/-
Words — numbers as sequences of 64-bit words, least significant first.

Adding and subtracting with a carry: what the two overflow flags of one position say about the next.
-/
import Nt61.Lib.Bits
import Mathlib.Data.Nat.Digits.Lemmas

namespace Nt61.Lib

open List Nat

/-! ## The number -/

/-- The number with the given words, least significant first. -/
def wordsValue (ws : List UInt64) : Nat := ofDigits (2 ^ 64) (ws.map UInt64.toNat)

@[simp] lemma wordsValue_nil : wordsValue [] = 0 := rfl

@[simp] lemma wordsValue_cons (w : UInt64) (ws : List UInt64) :
    wordsValue (w :: ws) = w.toNat + 2 ^ 64 * wordsValue ws := by
  unfold wordsValue
  rw [map_cons, ofDigits_cons]

variable (ws : List UInt64)

lemma wordsValue_head_tail : wordsValue ws = (ws.headD 0).toNat + 2 ^ 64 * wordsValue ws.tail := by
  cases ws with
  | nil => rfl
  | cons w ws => exact wordsValue_cons w ws

lemma wordsValue_append (us ws : List UInt64) :
    wordsValue (us ++ ws) = wordsValue us + 2 ^ (64 * us.length) * wordsValue ws := by
  unfold wordsValue
  rw [map_append, ofDigits_append, length_map, ← pow_mul]

lemma wordsValue_lt : wordsValue ws < 2 ^ (64 * ws.length) := by
  have h := @ofDigits_lt_base_pow_length (2 ^ 64) (ws.map UInt64.toNat) (by norm_num) (by
    intro d hd
    obtain ⟨w, _, rfl⟩ := mem_map.mp hd
    exact w.toNat_lt)
  rwa [length_map, ← pow_mul] at h

lemma wordsValue_concat (w : UInt64) :
    wordsValue (ws ++ [w]) = wordsValue ws + 2 ^ (64 * ws.length) * w.toNat := by
  rw [wordsValue_append, wordsValue_cons, wordsValue_nil, mul_zero, add_zero]

lemma wordsValue_eq_zero_iff : wordsValue ws = 0 ↔ ∀ w ∈ ws, w = 0 := by
  induction ws with
  | nil => simp
  | cons w ws ih =>
    rw [wordsValue_cons, forall_mem_cons, ← ih, ← UInt64.toNat_inj]
    show _ ↔ w.toNat = 0 ∧ _
    omega

lemma wordsValue_replicate_zero (n : Nat) : wordsValue (List.replicate n 0) = 0 := by
  rw [wordsValue_eq_zero_iff]
  intro w hw
  exact eq_of_mem_replicate hw

lemma wordsValue_concat_lt {w : UInt64} {k : Nat} (h : w.toNat < 2 ^ k) :
    wordsValue (ws ++ [w]) < 2 ^ (64 * ws.length + k) := by
  have hbl := wordsValue_lt ws
  rw [wordsValue_concat]
  calc wordsValue ws + 2 ^ (64 * ws.length) * w.toNat
      < 2 ^ (64 * ws.length) + 2 ^ (64 * ws.length) * w.toNat := by omega
    _ = 2 ^ (64 * ws.length) * (w.toNat + 1) := by ring
    _ ≤ 2 ^ (64 * ws.length) * 2 ^ k := mul_le_mul_left _ h
    _ = 2 ^ (64 * ws.length + k) := (pow_add ..).symm

lemma le_wordsValue_concat {w : UInt64} {k : Nat} (h : 2 ^ k ≤ w.toNat) :
    2 ^ (64 * ws.length + k) ≤ wordsValue (ws ++ [w]) := by
  rw [wordsValue_concat, pow_add]
  exact (mul_le_mul_left _ h).trans (le_add_left _ _)

lemma wordsValue_eq_digitsValue : wordsValue ws = digitsValue 64 (ws.map UInt64.toNat) := by
  induction ws with
  | nil => rfl
  | cons w ws ih =>
    rw [wordsValue_cons, ih]
    rfl

lemma testBit_wordsValue (k : Nat) :
    (wordsValue ws).testBit k = (ws.getD (k / 64) 0).toNat.testBit (k % 64) := by
  rw [wordsValue_eq_digitsValue, testBit_digitsValue (by decide)]
  · rw [getD_eq_getElem?_getD, getD_eq_getElem?_getD, getElem?_map]
    cases ws[k / 64]? with
    | none => rfl
    | some w => rfl
  intro d hd
  obtain ⟨w, _, rfl⟩ := mem_map.mp hd
  exact w.toNat_lt

/-! ## From the top down -/

/-- The first difference of two sequences given top first: `1` or `-1`, and `0` if there is none. -/
def compareTop : List UInt64 → List UInt64 → Int
  | u :: us, w :: ws => if u > w then 1 else if u < w then -1 else compareTop us ws
  | _, _ => 0

lemma compareTop_nonneg_iff {us ws : List UInt64} (hl : us.length = ws.length) :
    0 ≤ compareTop us ws ↔ wordsValue ws.reverse ≤ wordsValue us.reverse := by
  induction us generalizing ws with
  | nil =>
    obtain rfl : ws = [] := eq_nil_of_length_eq_zero hl.symm
    simp [compareTop]
  | cons u us ih =>
    obtain ⟨w, ws, rfl⟩ := exists_cons_of_length_eq_add_one hl.symm
    have hl : us.length = ws.length := by simpa using hl
    have hu := wordsValue_lt us.reverse
    have hw := wordsValue_lt ws.reverse
    rw [length_reverse] at hu hw
    rw [← hl] at hw
    rw [reverse_cons, reverse_cons, wordsValue_concat, wordsValue_concat,
      length_reverse, length_reverse, ← hl]
    generalize 2 ^ (64 * us.length) = b at hu hw
    unfold compareTop
    -- a difference in this word outweighs everything below it
    rcases lt_trichotomy u.toNat w.toNat with hlt | heq | hgt
    · rw [if_neg (by simp only [UInt64.lt_iff_toNat_lt]; omega),
        if_pos (UInt64.lt_iff_toNat_lt.mpr hlt)]
      have hs : b * (u.toNat + 1) ≤ b * w.toNat := mul_le_mul_left b hlt
      rw [mul_succ] at hs
      omega
    · rw [if_neg (by simp only [UInt64.lt_iff_toNat_lt]; omega),
        if_neg (by simp only [UInt64.lt_iff_toNat_lt]; omega), ih hl, heq]
      omega
    rw [if_pos (UInt64.lt_iff_toNat_lt.mpr hgt)]
    have hs : b * (w.toNat + 1) ≤ b * u.toNat := mul_le_mul_left b hgt
    rw [mul_succ] at hs
    omega

/-! ## Carries -/

def overflowingAdd (u w : UInt64) : UInt64 × Bool := (u + w, decide (2 ^ 64 ≤ u.toNat + w.toNat))

def overflowingSub (u w : UInt64) : UInt64 × Bool := (u - w, decide (u.toNat < w.toNat))

/-- One position of an addition: the sum of two words and a carry, and the next carry. -/
def addCarry (u w carry : UInt64) : UInt64 × UInt64 :=
  let (sum, c₁) := overflowingAdd u w
  let (sum, c₂) := overflowingAdd sum carry
  (sum, if c₁ || c₂ then 1 else 0)

/-- One position of a subtraction: the difference of two words and a borrow, and the next borrow. -/
def subBorrow (u w borrow : UInt64) : UInt64 × UInt64 :=
  let (difference, under₁) := overflowingSub u w
  let (difference, under₂) := overflowingSub difference borrow
  (difference, if under₁ || under₂ then 1 else 0)

lemma addCarry_spec (u w : UInt64) {carry : UInt64} (hca : carry.toNat ≤ 1) :
    (addCarry u w carry).1.toNat + 2 ^ 64 * (addCarry u w carry).2.toNat
        = u.toNat + w.toNat + carry.toNat ∧ (addCarry u w carry).2.toNat ≤ 1 := by
  have hu := u.toNat_lt
  have hw := w.toNat_lt
  simp only [addCarry, overflowingAdd, UInt64.toNat_add]
  by_cases h1 : 2 ^ 64 ≤ u.toNat + w.toNat
  · simp only [h1, decide_true, Bool.true_or, if_true, UInt64.toNat_one]
    omega
  by_cases h2 : 2 ^ 64 ≤ (u.toNat + w.toNat) % 2 ^ 64 + carry.toNat
  · simp only [h1, h2, decide_true, decide_false, Bool.false_or, if_true, UInt64.toNat_one]
    omega
  · simp only [h1, h2, decide_false, Bool.or_false, Bool.false_eq_true, if_false, UInt64.toNat_zero]
    omega

lemma subBorrow_spec (u w : UInt64) {borrow : UInt64} (hbr : borrow.toNat ≤ 1) :
    (subBorrow u w borrow).1.toNat + w.toNat + borrow.toNat
        = u.toNat + 2 ^ 64 * (subBorrow u w borrow).2.toNat
      ∧ (subBorrow u w borrow).2.toNat ≤ 1 := by
  have hu := u.toNat_lt
  have hw := w.toNat_lt
  simp only [subBorrow, overflowingSub, UInt64.toNat_sub]
  by_cases h1 : u.toNat < w.toNat
  · simp only [h1, decide_true, Bool.true_or, if_true, UInt64.toNat_one]
    omega
  by_cases h2 : (2 ^ 64 - w.toNat + u.toNat) % 2 ^ 64 < borrow.toNat
  · simp only [h1, h2, decide_true, decide_false, Bool.false_or, if_true, UInt64.toNat_one]
    omega
  · simp only [h1, h2, decide_false, Bool.or_false, Bool.false_eq_true, if_false, UInt64.toNat_zero]
    omega

/-! ## Shifts -/

lemma or_eq_add {a b s : Nat} (ha : a < 2 ^ s) : a ||| 2 ^ s * b = a + 2 ^ s * b := by
  rw [Nat.or_comm, ← Nat.two_pow_add_eq_or_of_lt ha, Nat.add_comm]

lemma two_pow_split {s : Nat} (hs : s < 64) : 2 ^ 64 = 2 ^ s * 2 ^ (64 - s) := by
  rw [← pow_add]
  congr 1
  omega

section

variable {w : UInt64} {s : Nat}

lemma toNat_shift (hs : s < 64) : (UInt64.ofNat s).toNat % 64 = s := by
  rw [UInt64.toNat_ofNat', mod_eq_of_lt (show s < 2 ^ 64 by omega), mod_eq_of_lt hs]

lemma toNat_shiftLeft (hs : s < 64) :
    (w <<< UInt64.ofNat s).toNat = 2 ^ s * (w.toNat % 2 ^ (64 - s)) := by
  rw [UInt64.toNat_shiftLeft, toNat_shift hs, shiftLeft_eq, two_pow_split hs, mul_comm,
    mul_mod_mul_left]

lemma toNat_shiftRight (hs : s < 64) : (w >>> UInt64.ofNat s).toNat = w.toNat / 2 ^ s := by
  rw [UInt64.toNat_shiftRight, toNat_shift hs, shiftRight_eq_div_pow]

lemma shiftRight_and_one (w : UInt64) (hs : s < 64) :
    ((w >>> UInt64.ofNat s) &&& 1 == 1) = w.toNat.testBit s := by
  rw [testBit_eq_decide_div_mod_eq, Bool.beq_eq_decide_eq, decide_eq_decide,
    ← UInt64.toNat_inj, UInt64.toNat_and, toNat_shiftRight hs, UInt64.toNat_one,
    and_one_is_mod]

end

lemma wordsValue_setBit {ws : List UInt64} {k : Nat} (hk : k < 64 * ws.length)
    (hf : 2 ^ (k + 1) ∣ wordsValue ws) :
    wordsValue (ws.modify (k / 64) (· ||| 1 <<< UInt64.ofNat (k % 64)))
      = wordsValue ws + 2 ^ k := by
  induction ws generalizing k with
  | nil => simp at hk
  | cons w ws ih =>
    rw [wordsValue_cons] at hf
    by_cases hlw : k < 64
    · have hw : 2 ^ (k + 1) ∣ w.toNat :=
        (Nat.dvd_add_left ((Nat.pow_dvd_pow 2 hlw).mul_right _)).mp hf
      obtain ⟨_, hc⟩ := hw
      have hon : (1 <<< UInt64.ofNat k : UInt64).toNat = 2 ^ k := by
        rw [toNat_shiftLeft hlw, UInt64.toNat_one, Nat.mod_eq_of_lt, Nat.mul_one]
        exact Nat.one_lt_two_pow (by omega)
      rw [Nat.div_eq_of_lt hlw, Nat.mod_eq_of_lt hlw, modify_zero_cons, wordsValue_cons,
        wordsValue_cons, UInt64.toNat_or, hon, hc, Nat.or_comm,
        or_eq_add (show 2 ^ k < 2 ^ (k + 1) from Nat.pow_lt_pow_right (by decide) (by omega))]
      ring
    obtain ⟨j, rfl⟩ : ∃ j, k = j + 64 := ⟨k - 64, by omega⟩
    have hpw : 2 ^ (j + 64 + 1) = 2 ^ 64 * 2 ^ (j + 1) := by ring
    rw [hpw] at hf
    have hw : w.toNat = 0 := by
      have hdv := (Nat.dvd_add_left (Nat.dvd_mul_right (2 ^ 64) (wordsValue ws))).mp
        ((Nat.dvd_mul_right _ _).trans hf)
      exact Nat.eq_zero_of_dvd_of_lt hdv w.toNat_lt
    rw [hw, Nat.zero_add] at hf
    rw [Nat.add_div_right _ (by decide), Nat.add_mod_right, modify_succ_cons,
      wordsValue_cons, wordsValue_cons,
      ih (by rw [length_cons] at hk; omega) (Nat.dvd_of_mul_dvd_mul_left (by decide) hf)]
    ring

end Nt61.Lib
