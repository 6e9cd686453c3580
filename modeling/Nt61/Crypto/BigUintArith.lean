/-
BigUintArith — what the limb loops of the big integers compute.

The long division keeps as remainder the part of the dividend read so far, reduced; the
exponentiation keeps `result * base ^ exp`.
-/
import Nt61.Crypto.BigUint

namespace Nt61.Crypto.BigUint

open Lib List Nat

variable (x : BigUint)

def val : Nat := wordsValue x.limbs

/-- There is a limb, and the top one is zero only if it is the only one. -/
def Normal : Prop := x.limbs ≠ [] ∧ (x.limbs.getLast? = some 0 → x.limbs.length = 1)

instance (x : BigUint) : Decidable x.Normal := inferInstanceAs (Decidable (_ ∧ _))

/-! ## Normal limbs -/

variable (limbs : List UInt64)

lemma dropTopZeros_value : wordsValue (dropTopZeros limbs).reverse = wordsValue limbs.reverse := by
  fun_induction dropTopZeros limbs with
  | case1 l ls ih =>
    have htp : (0 :: l :: ls).reverse = (l :: ls).reverse ++ [0] := reverse_cons
    rw [ih, htp, wordsValue_concat]
    simp
  | case2 ls h => rfl

lemma dropTopZeros_head (hne : limbs ≠ []) : dropTopZeros limbs ≠ []
      ∧ ((dropTopZeros limbs).head? = some 0 → (dropTopZeros limbs).length = 1) := by
  fun_induction dropTopZeros limbs with
  | case1 l ls ih => exact ih (by simp)
  | case2 ls h =>
    constructor
    · exact hne
    intro hhd
    match ls, hhd with
    | [_], _ => rfl
    | top :: l :: ls, hhd =>
      obtain rfl : top = 0 := by simpa using hhd
      exact absurd rfl (h l ls)

lemma popZeros_value : wordsValue (popZeros limbs) = wordsValue limbs := by
  unfold popZeros
  rw [dropTopZeros_value, reverse_reverse]

lemma popZeros_normal {limbs : List UInt64} (hne : limbs ≠ []) : Normal ⟨popZeros limbs⟩ := by
  have h := dropTopZeros_head limbs.reverse (by simpa using hne)
  unfold Normal popZeros
  simpa using h

variable {x : BigUint}

lemma Normal.exists_top (hx : x.Normal) :
    ∃ below top, x.limbs = below ++ [top] ∧ (top = 0 → below = []) := by
  obtain ⟨hne, htp⟩ := hx
  have hsp := (dropLast_concat_getLast hne).symm
  refine ⟨x.limbs.dropLast, x.limbs.getLast hne, hsp, ?_⟩
  intro h0
  apply eq_nil_of_length_eq_zero
  rw [length_dropLast, htp (by rw [getLast?_eq_some_getLast hne, h0])]

lemma Normal.pow_le (hx : x.Normal) (hl : 1 < x.limbs.length) :
    2 ^ (64 * (x.limbs.length - 1)) ≤ x.val := by
  obtain ⟨below, top, hlb, htp⟩ := hx.exists_top
  have hbl : x.limbs.length = below.length + 1 := by simp [hlb]
  have hp : 2 ^ 0 ≤ top.toNat := by
    rw [pow_zero, one_le_iff_ne_zero]
    intro h0
    have hnl := htp (UInt64.toNat_inj.mp h0)
    rw [hnl] at hbl
    simp at hbl
    omega
  unfold val
  rw [hbl, hlb]
  exact le_wordsValue_concat below hp

variable {x y : BigUint}

lemma val_lt_of_length_lt (hx : x.limbs ≠ []) (hy : y.Normal)
    (hl : x.limbs.length < y.limbs.length) : x.val < y.val := by
  have hp := length_pos_iff.mpr hx
  have h := hy.pow_le (by omega)
  calc x.val < 2 ^ (64 * x.limbs.length) := wordsValue_lt x.limbs
    _ ≤ 2 ^ (64 * (y.limbs.length - 1)) := Nat.pow_le_pow_right (by decide) (by omega)
    _ ≤ y.val := h

lemma cmp_nonneg_iff (hx : x.Normal) (hy : y.Normal) : 0 ≤ x.cmp y ↔ y.val ≤ x.val := by
  unfold cmp
  by_cases hl : x.limbs.length = y.limbs.length
  · rw [if_neg (by simpa using hl), compareTop_nonneg_iff (by simpa using hl),
      reverse_reverse, reverse_reverse]
    rfl
  rw [if_pos hl]
  by_cases hgt : x.limbs.length > y.limbs.length
  · have h := val_lt_of_length_lt hy.1 hx hgt
    rw [if_pos hgt]
    simp [h.le]
  have h := val_lt_of_length_lt hx.1 hy (by omega)
  rw [if_neg hgt]
  simp [h]

/-! ## Small numbers -/

lemma ofU32_normal (value : UInt32) : (ofU32 value).Normal := by simp [Normal, ofU32]

lemma ofU32_val (value : UInt32) : (ofU32 value).val = value.toNat := by simp [val, ofU32]

lemma isZero_iff (x : BigUint) : x.isZero = true ↔ x.val = 0 := by
  unfold isZero val
  rw [wordsValue_eq_zero_iff]
  simp

/-! ## Addition and subtraction -/

lemma addLoop_value (n : Nat) (as bs : List UInt64) (carry : UInt64) (ha : as.length ≤ n)
    (hb : bs.length ≤ n) (hca : carry.toNat ≤ 1) :
    wordsValue (addLoop n as bs carry) = wordsValue as + wordsValue bs + carry.toNat := by
  induction n generalizing as bs carry with
  | zero =>
    obtain rfl : as = [] := eq_nil_of_length_eq_zero (by omega)
    obtain rfl : bs = [] := eq_nil_of_length_eq_zero (by omega)
    simp [addLoop]
  | succ n ih =>
    obtain ⟨_, hnx⟩ := addCarry_spec (as.headD 0) (bs.headD 0) hca
    rw [addLoop]
    simp only [wordsValue_cons]
    rw [ih as.tail bs.tail _ (by rw [length_tail]; omega) (by rw [length_tail]; omega)
      hnx, wordsValue_head_tail as, wordsValue_head_tail bs]
    omega

lemma add_val (x y : BigUint) : (x.add y).val = x.val + y.val := by
  unfold add val
  rw [popZeros_value, addLoop_value _ _ _ _ (le_max_left _ _) (le_max_right _ _) (by decide)]
  rfl

lemma addLoop_ne_nil (n : Nat) (as bs : List UInt64) (carry : UInt64) :
    addLoop n as bs carry ≠ [] := by
  cases n with
  | zero => simp [addLoop]
  | succ n => simp [addLoop]

lemma add_normal (x y : BigUint) : (x.add y).Normal := popZeros_normal (addLoop_ne_nil _ _ _ _)

lemma subLoop_value (as bs : List UInt64) (borrow : UInt64) (hbr : borrow.toNat ≤ 1) :
    ∃ last ≤ 1, wordsValue (subLoop as bs borrow) + wordsValue (bs.take as.length) + borrow.toNat
      = wordsValue as + 2 ^ (64 * as.length) * last := by
  induction as generalizing bs borrow with
  | nil => exact ⟨borrow.toNat, hbr, by simp [subLoop]⟩
  | cons a as ih =>
    obtain ⟨_, hnx⟩ := subBorrow_spec a (bs.headD 0) hbr
    obtain ⟨last, hla, _⟩ := ih bs.tail (subBorrow a (bs.headD 0) borrow).2 hnx
    have hta : wordsValue (bs.take (a :: as).length)
        = (bs.headD 0).toNat + 2 ^ 64 * wordsValue (bs.tail.take as.length) := by
      cases bs with
      | nil => simp
      | cons b bs => simp
    have hpw : 2 ^ (64 * (a :: as).length) * last = 2 ^ 64 * (2 ^ (64 * as.length) * last) := by
      rw [length_cons]
      ring
    refine ⟨last, hla, ?_⟩
    rw [subLoop]
    simp only [wordsValue_cons]
    omega

lemma subLoop_length (as bs : List UInt64) (borrow : UInt64) :
    (subLoop as bs borrow).length = as.length := by
  induction as generalizing bs borrow with
  | nil => rfl
  | cons a as ih => simp [subLoop, ih]

lemma sub_val (h : y.val ≤ x.val) : (x.sub y).val = x.val - y.val := by
  obtain ⟨last, hla, _⟩ := subLoop_value x.limbs y.limbs 0 (by decide)
  have hrs := wordsValue_lt (subLoop x.limbs y.limbs 0)
  rw [subLoop_length] at hrs
  have h0 : (0 : UInt64).toNat = 0 := rfl
  -- no limb of `y` beyond the last one of `x` is set
  have hy : wordsValue y.limbs = wordsValue (y.limbs.take x.limbs.length) := by
    have hsp := wordsValue_append (y.limbs.take x.limbs.length) (y.limbs.drop x.limbs.length)
    rw [take_append_drop] at hsp
    by_cases hl : y.limbs.length ≤ x.limbs.length
    · rw [take_of_length_le hl]
    rw [length_take, min_eq_left (by omega)] at hsp
    have hlt : wordsValue (y.limbs.drop x.limbs.length) = 0 := by
      by_contra hne
      have hon : 1 ≤ wordsValue (y.limbs.drop x.limbs.length) := by omega
      have := mul_le_mul_left (2 ^ (64 * x.limbs.length)) hon
      unfold val at h
      omega
    rw [hlt] at hsp
    omega
  unfold sub val at *
  rw [popZeros_value]
  -- a last borrow would make the difference too large
  match last, hla with
  | 0, _ => omega
  | 1, _ => omega

lemma sub_normal (hx : x.limbs ≠ []) (y : BigUint) : (x.sub y).Normal := by
  apply popZeros_normal
  rw [← length_pos_iff, subLoop_length]
  exact length_pos_iff.mpr hx

/-! ## Multiplication -/

lemma product_lt (a b r carry : UInt64) : a.toNat * b.toNat + r.toNat + carry.toNat < 2 ^ 128 := by
  have ha : a.toNat ≤ 2 ^ 64 - 1 := by have := a.toNat_lt; omega
  have hb : b.toNat ≤ 2 ^ 64 - 1 := by have := b.toNat_lt; omega
  have hr := r.toNat_lt
  have hca := carry.toNat_lt
  have := mul_le_mul ha hb
  omega

variable (a : UInt64)

section

variable (bs result : List UInt64)
include bs

lemma mulRow_length (carry : UInt64) (hl : bs.length ≤ result.length) :
    (mulRow a bs result carry).length = result.length := by
  induction bs generalizing result carry with
  | nil =>
    unfold mulRow
    split
    · exact length_set
    · rfl
  | cons b bs ih =>
    rw [length_cons] at hl
    rw [mulRow, length_cons, ih _ _ (by rw [length_tail]; omega), length_tail]
    omega

lemma mulRow_drop (carry : UInt64) :
    (mulRow a bs result carry).drop (bs.length + 1) = result.drop (bs.length + 1) := by
  induction bs generalizing result carry with
  | nil =>
    unfold mulRow
    split
    · cases result with
      | nil => rfl
      | cons r result => rfl
    · rfl
  | cons b bs ih => rw [mulRow, length_cons, drop_succ_cons, ih, drop_tail]

lemma mulRow_value (carry : UInt64) (hla : result[bs.length]? = some 0) :
    wordsValue (mulRow a bs result carry)
      = wordsValue result + a.toNat * wordsValue bs + carry.toNat := by
  induction bs generalizing result carry with
  | nil =>
    obtain ⟨result, rfl⟩ : ∃ rest, result = 0 :: rest := by
      cases result with
      | nil => simp at hla
      | cons r rest => exact ⟨rest, by simpa using hla⟩
    unfold mulRow
    split
    · simp
      omega
    rename_i h0
    have hca : carry.toNat = 0 := by
      rw [gt_iff_lt, UInt64.lt_iff_toNat_lt] at h0
      simpa using h0
    simp [hca]
  | cons b bs ih =>
    have hlt := product_lt a b (result.headD 0) carry
    have hsp := div_add_mod (a.toNat * b.toNat + (result.headD 0).toNat + carry.toNat) (2 ^ 64)
    have hnx : (result.tail)[bs.length]? = some 0 := by
      rw [getElem?_tail]
      exact hla
    rw [mulRow, wordsValue_cons, ih _ _ hnx, wordsValue_head_tail result, wordsValue_cons,
      UInt64.toNat_ofNat', UInt64.toNat_ofNat', shiftRight_eq_div_pow,
      mod_eq_of_lt (show _ / 2 ^ 64 < 2 ^ 64 by omega)]
    linarith

end

lemma mulLoop_value (as bs result : List UInt64) (hl : result.length = as.length + bs.length)
    (h0 : ∀ r ∈ result.drop bs.length, r = 0) :
    wordsValue (mulLoop as bs result) = wordsValue result + wordsValue as * wordsValue bs := by
  induction as generalizing result with
  | nil => simp [mulLoop]
  | cons a as ih =>
    rw [length_cons] at hl
    have hla : result[bs.length]? = some 0 := by
      have hlt : bs.length < result.length := by omega
      rw [getElem?_eq_getElem hlt]
      congr 1
      apply h0
      rw [drop_eq_getElem_cons hlt]
      exact mem_cons_self
    have hrw := mulRow_value a bs result 0 hla
    have hrowLen := mulRow_length a bs result 0 (by omega)
    have hrowDrop := mulRow_drop a bs result 0
    generalize hr : mulRow a bs result 0 = row at hrw hrowLen hrowDrop
    have hrs : ∀ r ∈ row.tail.drop bs.length, r = 0 := by
      intro r hr
      rw [drop_tail, hrowDrop] at hr
      exact h0 r (mem_of_mem_drop (by rwa [← drop_drop] at hr))
    rw [mulLoop, hr, wordsValue_cons, ih row.tail (by rw [length_tail]; omega) hrs, wordsValue_cons]
    rw [wordsValue_head_tail row] at hrw
    have hca : (0 : UInt64).toNat = 0 := rfl
    linarith

lemma mulLoop_length (as bs result : List UInt64) (hl : result.length = as.length + bs.length) :
    (mulLoop as bs result).length = result.length := by
  induction as generalizing result with
  | nil => rfl
  | cons a as ih =>
    rw [length_cons] at hl
    have hrowLen := mulRow_length a bs result 0 (by omega)
    rw [mulLoop, length_cons, ih _ (by rw [length_tail]; omega), length_tail]
    omega

lemma mul_val (x y : BigUint) : (x.mul y).val = x.val * y.val := by
  unfold mul val
  rw [popZeros_value, mulLoop_value _ _ _ (by simp), wordsValue_replicate_zero, zero_add]
  intro r hr
  exact eq_of_mem_replicate (mem_of_mem_drop hr)

lemma mul_normal (h : 0 < x.limbs.length + y.limbs.length) : (x.mul y).Normal := by
  apply popZeros_normal
  rw [← length_pos_iff, mulLoop_length _ _ _ (by simp), length_replicate]
  exact h

/-! ## Shifts -/

lemma shlLoop_value {s : Nat} (hs : s < 64) (limbs : List UInt64) (high : UInt64)
    (hhi : high.toNat < 2 ^ s) :
    wordsValue (shlLoop s limbs high) = high.toNat + 2 ^ s * wordsValue limbs := by
  induction limbs generalizing high with
  | nil => simp [shlLoop]
  | cons limb limbs ih =>
    have hlb := limb.toNat_lt
    have hpw := two_pow_split hs
    -- what is shifted out is the part of the limb above `64 - s` bits
    have ho : (if s > 0 then limb >>> UInt64.ofNat (64 - s) else 0).toNat
        = limb.toNat / 2 ^ (64 - s) := by
      by_cases h0 : s > 0
      · rw [if_pos h0, toNat_shiftRight (by omega)]
      obtain rfl : s = 0 := by omega
      rw [div_eq_of_lt hlb]
      rfl
    have hnx : limb.toNat / 2 ^ (64 - s) < 2 ^ s := by
      rw [div_lt_iff_lt_mul (by positivity), ← hpw]
      exact hlb
    rw [shlLoop, wordsValue_cons, ih _ (by rw [ho]; exact hnx), ho, UInt64.toNat_or,
      toNat_shiftLeft hs, or_eq_add hhi]
    have hsp := div_add_mod limb.toNat (2 ^ (64 - s))
    calc high.toNat + 2 ^ s * (limb.toNat % 2 ^ (64 - s))
          + 2 ^ 64 * (limb.toNat / 2 ^ (64 - s) + 2 ^ s * wordsValue limbs)
        = high.toNat + 2 ^ s * ((2 ^ (64 - s) * (limb.toNat / 2 ^ (64 - s))
            + limb.toNat % 2 ^ (64 - s)) + 2 ^ 64 * wordsValue limbs) := by
          rw [hpw]
          ring
      _ = high.toNat + 2 ^ s * (limb.toNat + 2 ^ 64 * wordsValue limbs) := by rw [hsp]

lemma shlLoop_ne_nil (s : Nat) (limbs : List UInt64) (high : UInt64) :
    shlLoop s limbs high ≠ [] := by
  cases limbs with
  | nil => simp [shlLoop]
  | cons limb limbs => simp [shlLoop]

lemma shl_val (x : BigUint) (bits : Nat) : (x.shl bits).val = 2 ^ bits * x.val := by
  unfold shl
  by_cases h0 : bits = 0
  · rw [if_pos h0, h0, pow_zero, one_mul]
  rw [if_neg h0]
  unfold val
  rw [popZeros_value, wordsValue_append, wordsValue_replicate_zero,
    shlLoop_value (mod_lt _ (by decide)) _ _ (by simp)]
  have hbi : 2 ^ bits = 2 ^ (64 * (bits / 64)) * 2 ^ (bits % 64) := by rw [← pow_add, div_add_mod]
  rw [hbi]
  simp [mul_assoc]

lemma shl_normal (hx : x.Normal) (bits : Nat) : (x.shl bits).Normal := by
  unfold shl
  split
  · exact hx
  · apply popZeros_normal
    simp [shlLoop_ne_nil]

lemma shrLoop_value {s : Nat} (hs : s < 64) (limbs : List UInt64) :
    wordsValue (shrLoop s limbs) = wordsValue limbs / 2 ^ s := by
  have hpw := two_pow_split hs
  have hp : 0 < 2 ^ s := by positivity
  -- shifting the lowest limb leaves room for `s` bits of the number above it
  have hdv : ∀ l v : Nat, (l + 2 ^ 64 * v) / 2 ^ s = l / 2 ^ s + 2 ^ (64 - s) * v := by
    intro l v
    rw [hpw, mul_assoc, add_mul_div_left _ _ hp]
  fun_induction shrLoop s limbs with
  | case1 => simp
  | case2 limb =>
    rw [wordsValue_cons, wordsValue_cons, toNat_shiftRight hs, wordsValue_nil, mul_zero,
      add_zero, add_zero]
  | case3 limb next limbs ih =>
    have hlw : wordsValue (next :: limbs) % 2 ^ s = next.toNat % 2 ^ s := by
      rw [wordsValue_cons, hpw, mul_assoc, add_mul_mod_self_left]
    have hlb : limb.toNat / 2 ^ s < 2 ^ (64 - s) := by
      rw [div_lt_iff_lt_mul hp, mul_comm, ← hpw]
      exact limb.toNat_lt
    have hfs : (if s > 0 then limb >>> UInt64.ofNat s ||| next <<< UInt64.ofNat (64 - s)
          else limb >>> UInt64.ofNat s).toNat
        = limb.toNat / 2 ^ s + 2 ^ (64 - s) * (wordsValue (next :: limbs) % 2 ^ s) := by
      by_cases h0 : s > 0
      · have hba : 64 - (64 - s) = s := by omega
        rw [if_pos h0, UInt64.toNat_or, toNat_shiftRight hs, toNat_shiftLeft (by omega), hba,
          or_eq_add hlb, hlw]
      · obtain rfl : s = 0 := by omega
        rw [if_neg h0, toNat_shiftRight hs, pow_zero, mod_one, mul_zero, add_zero]
    have hsp := mod_add_div (wordsValue (next :: limbs)) (2 ^ s)
    rw [wordsValue_cons _ (shrLoop s (next :: limbs)), ih, hfs, wordsValue_cons limb, hdv]
    calc limb.toNat / 2 ^ s + 2 ^ (64 - s) * (wordsValue (next :: limbs) % 2 ^ s)
          + 2 ^ 64 * (wordsValue (next :: limbs) / 2 ^ s)
        = limb.toNat / 2 ^ s + 2 ^ (64 - s) * (wordsValue (next :: limbs) % 2 ^ s
            + 2 ^ s * (wordsValue (next :: limbs) / 2 ^ s)) := by
          rw [hpw]
          ring
      _ = limb.toNat / 2 ^ s + 2 ^ (64 - s) * wordsValue (next :: limbs) := by rw [hsp]

lemma shrLoop_length (s : Nat) (limbs : List UInt64) : (shrLoop s limbs).length = limbs.length := by
  fun_induction shrLoop s limbs with
  | case1 => rfl
  | case2 limb => rfl
  | case3 limb next limbs ih => simp [ih]

lemma shr_normal (hx : x.Normal) (bits : Nat) : (x.shr bits).Normal := by
  unfold shr
  split
  · exact hx
  split
  · exact ofU32_normal 0
  apply popZeros_normal
  rw [← length_pos_iff, shrLoop_length, length_drop]
  omega

lemma shr_val (x : BigUint) (bits : Nat) : (x.shr bits).val = x.val / 2 ^ bits := by
  have hbi : 2 ^ bits = 2 ^ (64 * (bits / 64)) * 2 ^ (bits % 64) := by rw [← pow_add, div_add_mod]
  have hsp := wordsValue_append (x.limbs.take (bits / 64)) (x.limbs.drop (bits / 64))
  have hlw := wordsValue_lt (x.limbs.take (bits / 64))
  have hlb := wordsValue_lt x.limbs
  rw [take_append_drop] at hsp
  unfold shr
  by_cases h0 : bits = 0
  · rw [if_pos h0, h0, Nat.pow_zero, Nat.div_one]
  rw [if_neg h0]
  by_cases hgo : bits / 64 ≥ x.limbs.length
  · rw [if_pos hgo]
    symm
    apply Nat.div_eq_of_lt
    calc x.val < 2 ^ (64 * x.limbs.length) := hlb
      _ ≤ 2 ^ bits := Nat.pow_le_pow_right (by decide) (by omega)
  rw [if_neg hgo]
  unfold val
  rw [length_take, Nat.min_eq_left (by omega)] at hsp hlw
  rw [popZeros_value, shrLoop_value (Nat.mod_lt _ (by decide)), hbi, ← Nat.div_div_eq_div_mul,
    hsp, Nat.add_mul_div_left _ _ (by positivity), Nat.div_eq_of_lt hlw, Nat.zero_add]

/-! ## Bits -/

lemma pow_leadingZeros {limb : UInt64} (h : limb ≠ 0) :
    leadingZeros limb < 64 ∧ 2 ^ (63 - leadingZeros limb) ≤ limb.toNat
      ∧ limb.toNat < 2 ^ (64 - leadingZeros limb) := by
  have hne : limb.toNat ≠ 0 := fun h0 => h (UInt64.toNat_inj.mp h0)
  have hlg : limb.toNat.log2 < 64 := (log2_lt hne).mpr limb.toNat_lt
  unfold leadingZeros
  rw [if_neg h]
  have hlw : 63 - (63 - limb.toNat.log2) = limb.toNat.log2 := by omega
  have hhi : 64 - (63 - limb.toNat.log2) = limb.toNat.log2 + 1 := by omega
  rw [hlw, hhi]
  exact ⟨by omega, log2_self_le hne, lt_log2_self⟩

lemma bitLenTop_spec : wordsValue limbs.reverse < 2 ^ bitLenTop limbs
      ∧ (0 < wordsValue limbs.reverse → 2 ^ (bitLenTop limbs - 1) ≤ wordsValue limbs.reverse) := by
  induction limbs with
  | nil => simp
  | cons limb below ih =>
    rw [reverse_cons, bitLenTop]
    by_cases h0 : limb = 0
    · rw [h0, wordsValue_concat]
      simpa using ih
    obtain ⟨_, hlw, hhi⟩ := pow_leadingZeros h0
    have hlt := wordsValue_concat_lt below.reverse hhi
    have hle := le_wordsValue_concat below.reverse hlw
    rw [length_reverse] at hlt hle
    rw [if_pos h0, mul_comm]
    refine ⟨hlt, ?_⟩
    intro _
    rwa [show 64 * below.length + (64 - leadingZeros limb) - 1
      = 64 * below.length + (63 - leadingZeros limb) by omega]

lemma val_lt_bitLen (x : BigUint) : x.val < 2 ^ x.bitLen := by
  have h := (bitLenTop_spec x.limbs.reverse).1
  rwa [reverse_reverse] at h

lemma pow_bitLen_le (hp : 0 < x.val) : 2 ^ (x.bitLen - 1) ≤ x.val := by
  have h := (bitLenTop_spec x.limbs.reverse).2
  rw [reverse_reverse] at h
  exact h hp

lemma bitLenTop_le : bitLenTop limbs ≤ 64 * limbs.length := by
  induction limbs with
  | nil => rfl
  | cons limb below ih =>
    rw [bitLenTop, length_cons]
    split
    · omega
    · omega

lemma bitLen_le (x : BigUint) : x.bitLen ≤ 64 * x.limbs.length := by
  have h := bitLenTop_le x.limbs.reverse
  rwa [length_reverse] at h

lemma bit_eq_testBit (x : BigUint) (index : Nat) : x.bit index = x.val.testBit index := by
  unfold bit val
  rw [testBit_wordsValue, getD_eq_getElem?_getD]
  cases x.limbs[index / 64]? with
  | none => simp
  | some limb => exact shiftRight_and_one limb (mod_lt _ (by decide))

lemma orLow_val (hx : x.limbs ≠ []) (hev : x.val % 2 = 0) (bit : Bool) :
    (x.orLow bit).val = x.val + bit.toNat := by
  obtain ⟨limbs⟩ := x
  cases limbs with
  | nil => exact absurd rfl hx
  | cons limb limbs =>
    have hlb : limb.toNat % 2 = 0 := by
      simp only [val, wordsValue_cons] at hev
      omega
    have hor : (limb ||| if bit then 1 else 0).toNat = limb.toNat + bit.toNat := by
      have hbt : (if bit then 1 else 0 : UInt64).toNat = bit.toNat := by cases bit <;> rfl
      have hha : limb.toNat = 2 ^ 1 * (limb.toNat / 2) := by omega
      rw [UInt64.toNat_or, hbt, Nat.or_comm, hha,
        or_eq_add (show bit.toNat < 2 ^ 1 by cases bit <;> decide), Nat.add_comm]
    simp only [orLow, val, wordsValue_cons]
    omega

lemma orLow_normal (hx : x.Normal) (bit : Bool) : (x.orLow bit).Normal := by
  obtain ⟨limbs⟩ := x
  match limbs, hx with
  | [limb], _ => simp [orLow, Normal]
  | limb :: next :: limbs, hx =>
    have htp := hx.2
    simp only [orLow] at htp ⊢
    exact ⟨by simp, by simpa using htp⟩

/-! ## Division -/

section

variable {x m : BigUint}

lemma divStep_dividend {rem : BigUint} (hrm : rem.Normal) (i : Nat) :
    ((rem.shl 1).orLow (x.bit i)).val = 2 * rem.val + (x.val.testBit i).toNat := by
  rw [orLow_val (shl_normal hrm 1).1 (by rw [shl_val]; omega), shl_val, bit_eq_testBit, pow_one]

lemma divStep_rem (hm : m.Normal) {state : List UInt64 × BigUint} (hrm : state.2.Normal)
    (hlt : state.2.val < m.val) (i : Nat) : (divStep x m state i).2.Normal
      ∧ (divStep x m state i).2.val = (2 * state.2.val + (x.val.testBit i).toNat) % m.val := by
  have hsh := shl_normal hrm 1
  have hnr := orLow_normal hsh (x.bit i)
  have hvl := divStep_dividend (x := x) hrm i
  have hbt : (x.val.testBit i).toNat ≤ 1 := Bool.toNat_le _
  unfold divStep
  rw [← hvl]
  generalize (state.2.shl 1).orLow (x.bit i) = rem at *
  by_cases hge : m.val ≤ rem.val
  · rw [if_pos ((cmp_nonneg_iff hnr hm).mpr hge)]
    refine ⟨sub_normal hnr.1 m, ?_⟩
    rw [sub_val hge, mod_eq_sub_mod hge, mod_eq_of_lt (by omega)]
  · rw [if_neg (by rwa [ge_iff_le, cmp_nonneg_iff hnr hm])]
    exact ⟨hnr, (mod_eq_of_lt (not_le.mp hge)).symm⟩

lemma divStep_quotient (hm : m.Normal) {state : List UInt64 × BigUint} (hrm : state.2.Normal)
    {i : Nat} (hi : i < 64 * state.1.length) (hf : 2 ^ (i + 1) ∣ wordsValue state.1) :
    (divStep x m state i).1.length = state.1.length ∧ wordsValue (divStep x m state i).1
        = wordsValue state.1
          + 2 ^ i * (if m.val ≤ 2 * state.2.val + (x.val.testBit i).toNat then 1 else 0) := by
  have hsh := shl_normal hrm 1
  have hnr := orLow_normal hsh (x.bit i)
  rw [← divStep_dividend hrm]
  unfold divStep
  generalize (state.2.shl 1).orLow (x.bit i) = rem at *
  by_cases hge : m.val ≤ rem.val
  · rw [if_pos ((cmp_nonneg_iff hnr hm).mpr hge), if_pos hge, mul_one]
    exact ⟨length_modify .., wordsValue_setBit hi hf⟩
  · rw [if_neg (by rwa [ge_iff_le, cmp_nonneg_iff hnr hm]), if_neg hge]
    exact ⟨rfl, rfl⟩

lemma double_div {t b c : Nat} (hb : b ≤ 1) (hc : 0 < c) :
    (2 * t + b) / c = 2 * (t / c) + (if c ≤ 2 * (t % c) + b then 1 else 0) := by
  have hsp : 2 * t + b = c * (2 * (t / c)) + (2 * (t % c) + b) := by
    have h := div_add_mod t c
    linarith
  have hlt := mod_lt t hc
  rw [hsp, mul_add_div hc]
  congr 1
  split
  · exact Nat.div_eq_of_lt_le (by omega) (by omega)
  · exact Nat.div_eq_of_lt (by omega)

/-- All rounds from bit `n - 1` down. Before them the quotient and the remainder are the ones of the
dividend without its `n` low bits. -/
lemma divLoop_spec (hm : m.Normal) (hp : 0 < m.val) (n : Nat)
    (state : List UInt64 × BigUint) (hrm : state.2.Normal)
    (hvl : state.2.val = x.val / 2 ^ n % m.val) (hn : n ≤ 64 * state.1.length)
    (hqu : wordsValue state.1 = 2 ^ n * (x.val / 2 ^ n / m.val)) :
    let final := (List.range n).reverse.foldl (divStep x m) state
    final.2.Normal ∧ final.2.val = x.val % m.val ∧ final.1.length = state.1.length
      ∧ wordsValue final.1 = x.val / m.val := by
  induction n generalizing state with
  | zero => simp_all
  | succ n ih =>
    -- one more bit of the dividend
    have hnx : x.val / 2 ^ n = 2 * (x.val / 2 ^ (n + 1)) + (x.val.testBit n).toNat := by
      rw [Nat.toNat_testBit, Nat.pow_succ, ← Nat.div_div_eq_div_mul, Nat.div_add_mod]
    have hlt : state.2.val < m.val := by
      rw [hvl]
      exact mod_lt _ hp
    obtain ⟨hs, hstepVal⟩ := divStep_rem (x := x) hm hrm hlt n
    obtain ⟨hstepLen, hstepQuot⟩ := divStep_quotient (x := x) hm hrm (i := n) (by omega)
      (by rw [hqu]; exact dvd_mul_right _ _)
    rw [range_succ, reverse_append, ← hstepLen]
    apply ih _ hs
    · rw [hstepVal, hvl, hnx, add_mod, mul_mod, mod_mod, ← mul_mod, ← add_mod]
    · omega
    · rw [hstepQuot, hqu, hnx, double_div (Bool.toNat_le _) hp, hvl]
      ring

end

variable {m : BigUint}

lemma divRem_spec (x : BigUint) (hm : m.Normal) (hp : 0 < m.val) :
    (x.divRem m).2.Normal ∧ (x.divRem m).2.val = x.val % m.val
      ∧ (x.divRem m).1.Normal ∧ (x.divRem m).1.val = x.val / m.val := by
  have h0 : m.isZero = false := by
    rw [Bool.eq_false_iff, ne_eq, isZero_iff]
    omega
  have hlt := val_lt_bitLen x
  have hlp := divLoop_spec (x := x) hm hp x.bitLen
    (List.replicate (max x.limbs.length 1) 0, ofU32 0) (ofU32_normal 0)
    (by rw [Nat.div_eq_of_lt hlt]; rfl)
    (by have := bitLen_le x; rw [length_replicate]; omega)
    (by rw [Nat.div_eq_of_lt hlt, Nat.zero_div, Nat.mul_zero, wordsValue_replicate_zero])
  unfold divRem
  rw [h0]
  generalize (List.range x.bitLen).reverse.foldl (divStep x m)
    (List.replicate (max x.limbs.length 1) 0, ofU32 0) = final at *
  obtain ⟨hrm, hvl, hl, hqu⟩ := hlp
  refine ⟨hrm, hvl, popZeros_normal ?_, ?_⟩
  · rw [← length_pos_iff, hl, length_replicate]
    omega
  · show wordsValue (popZeros final.1) = _
    rw [popZeros_value, hqu]

lemma modOp_normal (x : BigUint) (hm : m.Normal) (hp : 0 < m.val) :
    (x.modOp m).Normal := (divRem_spec x hm hp).1

lemma modOp_val (x : BigUint) (hm : m.Normal) (hp : 0 < m.val) :
    (x.modOp m).val = x.val % m.val := (divRem_spec x hm hp).2.1

/-! ## Exponentiation -/

lemma odd_iff (x : BigUint) : (x.limbs.headD 0 &&& 1 == 1) = decide (x.val % 2 = 1) := by
  have hvl : x.val % 2 = (x.limbs.headD 0).toNat % 2 := by
    unfold val
    rw [wordsValue_head_tail]
    omega
  rw [Bool.beq_eq_decide_eq, decide_eq_decide, hvl, ← UInt64.toNat_inj, UInt64.toNat_and,
    UInt64.toNat_one, and_one_is_mod]

lemma pow_halved {b c e m : Nat} (hc : b ^ 2 ≡ c [MOD m]) :
    b ^ e ≡ c ^ (e / 2) * b ^ (e % 2) [MOD m] := by
  have hsp : b ^ e = (b ^ 2) ^ (e / 2) * b ^ (e % 2) := by rw [← pow_mul, ← pow_add, div_add_mod]
  rw [hsp]
  exact (hc.pow _).mul_right _

lemma modExpLoop_spec (hm : m.Normal) (hp : 0 < m.val) (rounds : Nat)
    (result base exp : BigUint) (hr : result.Normal) (hlt : result.val < m.val)
    (hb : base.Normal) (hep : exp.val < 2 ^ rounds) :
    (modExpLoop m rounds result base exp).Normal
      ∧ (modExpLoop m rounds result base exp).val = result.val * base.val ^ exp.val % m.val := by
  induction rounds generalizing result base exp with
  | zero =>
    have h0 : exp.val = 0 := by simpa using hep
    rw [h0, pow_zero, mul_one, mod_eq_of_lt hlt]
    exact ⟨hr, rfl⟩
  | succ rounds ih =>
    rw [modExpLoop]
    by_cases h0 : exp.val = 0
    · rw [if_pos ((isZero_iff exp).mpr h0), h0, pow_zero, mul_one, mod_eq_of_lt hlt]
      exact ⟨hr, rfl⟩
    rw [if_neg (by rwa [isZero_iff]), odd_iff]
    have hrs : (exp.shr 1).val < 2 ^ rounds := by
      rw [shr_val]
      omega
    have hsq : base.val ^ 2 ≡ ((base.mul base).modOp m).val [MOD m.val] := by
      rw [modOp_val _ hm hp, mul_val, ← pow_two]
      exact (mod_modEq _ _).symm
    have hhl := pow_halved (e := exp.val) hsq
    by_cases hod : exp.val % 2 = 1
    · obtain ⟨hnr, hvl⟩ := ih ((result.mul base).modOp m) ((base.mul base).modOp m)
        (exp.shr 1) (modOp_normal _ hm hp)
        (by rw [modOp_val _ hm hp]; exact mod_lt _ hp) (modOp_normal _ hm hp) hrs
      simp only [hod, decide_true, if_true]
      refine ⟨hnr, ?_⟩
      rw [hvl, modOp_val (result.mul base) hm hp, mul_val result, shr_val]
      rw [hod, pow_one] at hhl
      have hs := (mod_modEq (result.val * base.val) m.val).mul_right
        (((base.mul base).modOp m).val ^ (exp.val / 2))
      have hke := hhl.mul_left result.val
      rw [mul_comm (_ ^ _) base.val, ← mul_assoc] at hke
      exact hs.trans hke.symm
    obtain ⟨hnr, hvl⟩ := ih result ((base.mul base).modOp m) (exp.shr 1) hr hlt
      (modOp_normal _ hm hp) hrs
    simp only [hod, decide_false, Bool.false_eq_true, if_false]
    refine ⟨hnr, ?_⟩
    have hev : exp.val % 2 = 0 := by omega
    rw [hev, pow_zero, mul_one] at hhl
    rw [hvl, shr_val]
    exact (hhl.mul_left result.val).symm

lemma modExp_spec (x e : BigUint) (hm : m.Normal) (hon : 1 < m.val) :
    (x.modExp e m).Normal ∧ (x.modExp e m).val = x.val ^ e.val % m.val := by
  have hs0 : (ofU32 1).val = 1 := ofU32_val 1
  have hp : 0 < m.val := by omega
  obtain ⟨hnr, hvl⟩ := modExpLoop_spec hm hp e.bitLen (ofU32 1) (x.modOp m) e
    (ofU32_normal 1) (by omega) (modOp_normal x hm hp) (val_lt_bitLen e)
  refine ⟨hnr, ?_⟩
  show (modExpLoop m e.bitLen (ofU32 1) (x.modOp m) e).val = _
  rw [hvl, hs0, one_mul, modOp_val x hm hp, ← pow_mod]

end Nt61.Crypto.BigUint
