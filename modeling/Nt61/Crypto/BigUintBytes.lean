/-
BigUintBytes — the byte form of the big integers.

What is written is the one shortest byte string for the number, so a leading zero byte is lost on
the way.
-/
import Nt61.Crypto.BigUintArith

namespace Nt61.Crypto.BigUint

open Lib List

/-! ## Reading -/

lemma limbsOf_value (n : Nat) (bs : Bytes) (hl : bs.length ≤ 8 * n) :
    wordsValue (limbsOf n bs) = leValue bs := by
  induction n generalizing bs with
  | zero =>
    obtain rfl : bs = [] := eq_nil_of_length_eq_zero (by omega)
    rfl
  | succ n ih =>
    have hsp := leValue_append (bs.take 8) (bs.drop 8)
    have hlw := leValue_lt (bs.take 8)
    have hpw : 256 ^ (bs.take 8).length ≤ 2 ^ 64 := by
      rw [show 2 ^ 64 = 256 ^ 8 by norm_num]
      exact Nat.pow_le_pow_right (by decide) (by rw [length_take]; omega)
    rw [take_append_drop] at hsp
    rw [limbsOf, wordsValue_cons, ih _ (by rw [length_drop]; omega), UInt64.toNat_ofNat',
      Nat.mod_eq_of_lt (hlw.trans_le hpw), hsp]
    by_cases hfw : bs.length ≤ 8
    · rw [drop_eq_nil_of_le hfw]
      simp [leValue]
    · rw [length_take, Nat.min_eq_left (by omega)]
      norm_num

lemma fromBytes_val (bytes : Bytes) : (fromBytes bytes).val = beValue bytes := by
  show wordsValue (popZeros (limbsOf ((bytes.length + 7) / 8) bytes.reverse)) = _
  rw [popZeros_value, limbsOf_value _ _ (by rw [length_reverse]; omega)]
  rfl

lemma fromBytes_normal {bytes : Bytes} (hne : bytes ≠ []) : (fromBytes bytes).Normal := by
  have hp := length_pos_iff.mpr hne
  obtain ⟨n, hn⟩ : ∃ n, (bytes.length + 7) / 8 = n + 1 := ⟨(bytes.length + 7) / 8 - 1, by omega⟩
  apply popZeros_normal
  rw [hn]
  simp [limbsOf]

/-! ## The shortest byte string -/

/-- There is a byte, and the first one is zero only if it is the only one. -/
def Shortest (bs : Bytes) : Prop := bs ≠ [] ∧ (bs.head? = some 0 → bs.length = 1)

variable {bs : Bytes}

lemma Shortest.pow_le (hbs : Shortest bs) (hl : 1 < bs.length) :
    256 ^ (bs.length - 1) ≤ beValue bs := by
  obtain ⟨hne, hfs⟩ := hbs
  cases bs with
  | nil => exact absurd rfl hne
  | cons b bs =>
    have hp : 1 ≤ b.toNat := by
      rw [Nat.one_le_iff_ne_zero]
      intro h0
      have hb : b = 0 := UInt8.toNat_inj.mp h0
      have hon := hfs (by rw [hb]; rfl)
      omega
    rw [beValue_cons]
    calc 256 ^ bs.length = 256 ^ bs.length * 1 := (Nat.mul_one _).symm
      _ ≤ 256 ^ bs.length * b.toNat := Nat.mul_le_mul_left _ hp
      _ ≤ 256 ^ bs.length * b.toNat + beValue bs := Nat.le_add_right _ _

lemma Shortest.length_le (hbs : Shortest bs) {k : Nat} (hk : 0 < k)
    (hlt : beValue bs < 256 ^ k) : bs.length ≤ k := by
  by_contra hlg
  have hpw := hbs.pow_le (by omega)
  have := (Nat.pow_lt_pow_iff_right (show 1 < 256 by decide)).mp (hpw.trans_lt hlt)
  omega

lemma Shortest.unique {as bs : Bytes} (ha : Shortest as) (hb : Shortest bs)
    (h : beValue as = beValue bs) : as = bs := by
  have hlenA := ha.length_le (length_pos_iff.mpr hb.1) (h ▸ beValue_lt bs)
  have hlenB := hb.length_le (length_pos_iff.mpr ha.1) (h ▸ beValue_lt as)
  exact beValue_inj (by omega) h

/-! ## Writing -/

lemma dropFrontZeros_value (bs : Bytes) : beValue (dropFrontZeros bs) = beValue bs := by
  fun_induction dropFrontZeros bs with
  | case1 b bs ih =>
    rw [ih, beValue_cons 0]
    simp
  | case2 bs h => rfl

lemma dropFrontZeros_shortest (hne : bs ≠ []) : Shortest (dropFrontZeros bs) := by
  fun_induction dropFrontZeros bs with
  | case1 b bs ih => exact ih (by simp)
  | case2 bs h =>
    constructor
    · exact hne
    intro hhd
    match bs, hhd with
    | [_], _ => rfl
    | first :: b :: bs, hhd =>
      obtain rfl : first = 0 := by simpa using hhd
      exact absurd rfl (h b bs)

lemma beValue_limbs (limbs : List UInt64) :
    beValue (limbs.reverse.flatMap fun limb => beBytes 8 limb.toNat) = wordsValue limbs := by
  induction limbs with
  | nil => rfl
  | cons limb limbs ih =>
    rw [reverse_cons, flatMap_append, beValue_append, ih, flatMap_singleton, beBytes_length,
      beValue_beBytes, Nat.add_comm]
    norm_num

lemma toBytes_value (x : BigUint) : beValue x.toBytes = x.val := by
  unfold toBytes val
  rw [dropFrontZeros_value, beValue_limbs]

variable {x : BigUint}

lemma toBytes_shortest (hx : x.limbs ≠ []) : Shortest x.toBytes := by
  apply dropFrontZeros_shortest
  intro hnl
  have hlb := flatMap_eq_nil_iff.mp hnl (x.limbs.head hx) (mem_reverse.mpr (head_mem hx))
  have hl := beBytes_length 8 (x.limbs.head hx).toNat
  rw [hlb] at hl
  simp at hl

lemma toBytes_eq (hx : x.limbs ≠ []) (hbs : Shortest bs)
    (h : x.val = beValue bs) : x.toBytes = bs :=
  (toBytes_shortest hx).unique hbs (by rw [toBytes_value, h])

/-! ## Lengths -/

lemma pow_256 (k : Nat) : 256 ^ k = 2 ^ (8 * k) := by
  rw [pow_mul]
  norm_num

lemma byteLen_spec (hx : x.Normal) :
    0 < x.byteLen ∧ x.val < 256 ^ x.byteLen ∧ (0 < x.val → 256 ^ (x.byteLen - 1) ≤ x.val) := by
  obtain ⟨below, top, hlb, htp⟩ := hx.exists_top
  have hla : x.limbs.getLast? = some top := by rw [hlb, getLast?_concat]
  have hl : x.limbs.length - 1 = below.length := by simp [hlb]
  unfold byteLen val
  rw [hla, hl, hlb]
  by_cases h0 : top = 0
  · -- the top limb is the only one
    rw [htp h0, h0]
    simp
  obtain ⟨_, hlw, hhi⟩ := pow_leadingZeros h0
  generalize hby : (64 - leadingZeros top + 7) / 8 = limbBytes
  simp only [if_neg h0, hby, pow_256]
  refine ⟨by omega, ?_, ?_⟩
  · calc wordsValue (below ++ [top]) < 2 ^ (64 * below.length + (64 - leadingZeros top)) :=
          wordsValue_concat_lt below hhi
      _ ≤ 2 ^ (8 * (below.length * 8 + limbBytes)) := Nat.pow_le_pow_right (by decide) (by omega)
  intro _
  calc 2 ^ (8 * (below.length * 8 + limbBytes - 1))
      ≤ 2 ^ (64 * below.length + (63 - leadingZeros top)) :=
        Nat.pow_le_pow_right (by decide) (by omega)
    _ ≤ wordsValue (below ++ [top]) := le_wordsValue_concat below hlw

lemma beValue_lt_of_length (hx : x.Normal) (hp : 0 < x.val) (bytes : Bytes)
    (hl : bytes.length + 1 = x.byteLen) : beValue bytes < x.val := by
  obtain ⟨_, _, hle⟩ := byteLen_spec hx
  calc beValue bytes < 256 ^ bytes.length := beValue_lt bytes
    _ = 256 ^ (x.byteLen - 1) := by rw [← hl, Nat.add_sub_cancel]
    _ ≤ x.val := hle hp

lemma bitLen_byteLen (hx : x.Normal) (hp : 0 < x.val) :
    8 * (x.byteLen - 1) < x.bitLen ∧ x.bitLen ≤ 8 * x.byteLen := by
  obtain ⟨_, hlt, hle⟩ := byteLen_spec hx
  have hlw := pow_bitLen_le hp
  have hhi := val_lt_bitLen x
  rw [pow_256] at hlt hle
  have h1 := (Nat.pow_lt_pow_iff_right (show 1 < 2 by decide)).mp ((hle hp).trans_lt hhi)
  have h2 := (Nat.pow_lt_pow_iff_right (show 1 < 2 by decide)).mp (hlw.trans_lt hlt)
  omega

end Nt61.Crypto.BigUint
