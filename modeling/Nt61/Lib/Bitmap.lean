/-
Bitmap — an array of words as one row of bits.

Bit `k` of the row is bit `k % w` of word `k / w`; beyond the last word there are no set bits.
-/
import Mathlib.Logic.Function.Basic

namespace Nt61.Lib

open BitVec

variable {w n : Nat} {bits : Fin n → BitVec w} {b k : Nat}

def bitAt (bits : Fin n → BitVec w) (k : Nat) : Bool :=
  if h : k / w < n then (bits ⟨k / w, h⟩).getLsbD (k % w) else false

lemma bitAt_of_ge (hk : n * w ≤ k) (hw : 0 < w) : bitAt bits k = false := by
  unfold bitAt
  rw [dif_neg (Nat.not_lt.mpr ((Nat.le_div_iff_mul_le hw).mpr hk))]

lemma bitAt_zero (k : Nat) : bitAt (fun _ : Fin n => (0 : BitVec w)) k = false := by
  unfold bitAt
  split
  · exact getLsbD_zero
  · rfl

lemma mul_add_div_mod (word : Nat) (hb : b < w) :
    (word * w + b) / w = word ∧ (word * w + b) % w = b := by
  have hw : 0 < w := Nat.zero_lt_of_lt hb
  constructor
  · rw [Nat.add_comm, Nat.add_mul_div_right b word hw, Nat.div_eq_of_lt hb, Nat.zero_add]
  · rw [Nat.add_comm, Nat.add_mul_mod_self_right, Nat.mod_eq_of_lt hb]

lemma bitAt_of_div {word : Fin n} (hk : k / w = word) :
    bitAt bits k = (bits word).getLsbD (k % w) := by
  have hlt : k / w < n := by
    rw [hk]
    exact word.isLt
  have hwd : (⟨k / w, hlt⟩ : Fin n) = word := Fin.ext hk
  unfold bitAt
  rw [dif_pos hlt, hwd]

variable (word : Fin n)

lemma bitAt_word (hb : b < w) : bitAt bits (word * w + b) = (bits word).getLsbD b := by
  obtain ⟨hdv, hmd⟩ := mul_add_div_mod word.val hb
  rw [bitAt_of_div hdv, hmd]

lemma bitAt_update (value : BitVec w) (k : Nat) : bitAt (Function.update bits word value) k
      = if k / w = word then value.getLsbD (k % w) else bitAt bits k := by
  by_cases hk : k / w = word
  · rw [if_pos hk, bitAt_of_div hk, Function.update_self]
  unfold bitAt
  split
  · rename_i hlt
    have hwd : (⟨k / w, hlt⟩ : Fin n) ≠ word := fun heq => hk (congrArg Fin.val heq)
    rw [Function.update_of_ne hwd]
  · rfl

lemma getLsbD_one_shiftLeft (hb : b < w) (i : Nat) :
    (BitVec.ofNat w 1 <<< b).getLsbD i = decide (i = b) := by
  by_cases hi : i = b
  · simp [hi, hb]
  by_cases hlt : i < b
  · simp [hi, hlt]
  · have hsb : ¬ i - b = 0 := by omega
    simp [hi, hsb]

lemma eq_mul_add_iff (word : Nat) (hb : b < w) : k = word * w + b ↔ k / w = word ∧ k % w = b := by
  constructor
  · intro hk
    rw [hk]
    exact mul_add_div_mod word hb
  rintro ⟨rfl, rfl⟩
  rw [Nat.mul_comm]
  exact (Nat.div_add_mod k w).symm

lemma bitAt_setBit (hb : b < w) (k : Nat) :
    bitAt (Function.update bits word (bits word ||| BitVec.ofNat w 1 <<< b)) k
      = (decide (k = word * w + b) || bitAt bits k) := by
  rw [bitAt_update]
  by_cases hk : k / w = word
  · rw [if_pos hk, getLsbD_or, getLsbD_one_shiftLeft hb, bitAt_of_div hk, Bool.or_comm]
    congr 1
    rw [decide_eq_decide, eq_mul_add_iff word.val hb]
    exact ⟨fun h => ⟨hk, h⟩, And.right⟩
  · have hne : ¬ k = word * w + b := fun h => hk ((eq_mul_add_iff word.val hb).mp h).1
    rw [if_neg hk, decide_eq_false hne, Bool.false_or]

lemma bitAt_clearBit (hb : b < w) (k : Nat) :
    bitAt (Function.update bits word (bits word &&& ~~~(BitVec.ofNat w 1 <<< b))) k
      = (!decide (k = word * w + b) && bitAt bits k) := by
  rw [bitAt_update]
  by_cases hk : k / w = word
  · have hmd : k % w < w := Nat.mod_lt k (Nat.zero_lt_of_lt hb)
    rw [if_pos hk, getLsbD_and, getLsbD_not, getLsbD_one_shiftLeft hb,
      bitAt_of_div hk, decide_eq_true hmd, Bool.true_and, Bool.and_comm]
    congr 2
    rw [decide_eq_decide, eq_mul_add_iff word.val hb]
    exact ⟨fun h => ⟨hk, h⟩, And.right⟩
  have hne : ¬ k = word * w + b := fun h => hk ((eq_mul_add_iff word.val hb).mp h).1
  rw [if_neg hk, decide_eq_false hne]
  rfl

lemma or_and_not_self {word : BitVec w} (hb : word.getLsbD b = false) :
    (word ||| BitVec.ofNat w 1 <<< b) &&& ~~~(BitVec.ofNat w 1 <<< b) = word := by
  apply BitVec.eq_of_getLsbD_eq
  intro i hi
  rw [getLsbD_and, getLsbD_or, getLsbD_not, decide_eq_true hi]
  by_cases hib : i = b
  · rw [hib] at hi ⊢
    rw [hb]
    simp
  by_cases hbw : b < w
  · rw [getLsbD_one_shiftLeft hbw, decide_eq_false hib]
    simp
  have h0 : (BitVec.ofNat w 1 <<< b).getLsbD i = false := by
    have hlt : i < b := by omega
    simp [hlt]
  rw [h0]
  simp

lemma bitAt_clearWords (p : Nat → Prop) [DecidablePred p] (k : Nat) :
    bitAt (fun word : Fin n => if p word then (0 : BitVec w) else bits word) k
      = (!decide (p (k / w)) && bitAt bits k) := by
  unfold bitAt
  split
  · dsimp only
    by_cases hp : p (k / w)
    · rw [if_pos hp, decide_eq_true hp]
      exact getLsbD_zero
    · rw [if_neg hp, decide_eq_false hp]
      rfl
  · rw [Bool.and_false]

end Nt61.Lib
