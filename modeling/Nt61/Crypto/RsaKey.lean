/-
RsaKey — what a proper RSA key is, and the arithmetic behind it.

Raising to `e` and then to `d` is the identity modulo `n`, for messages that share a factor with `n`
as well: modulo a prime, Fermat's theorem or zero.
-/
import Nt61.Crypto.Rsa
import Nt61.Crypto.BigUintBytes
import Mathlib.NumberTheory.LucasLehmer

namespace Nt61.Crypto

open Lib BigUint Nat

/-! ## Powers modulo primes -/

lemma pow_modEq_self {p k : Nat} (hp : p.Prime) (hps : 0 < k) (hk : k ≡ 1 [MOD p - 1])
    (a : Nat) : a ^ k ≡ a [MOD p] := by
  obtain ⟨t, _⟩ := (modEq_iff_dvd' hps).mp hk.symm
  have hsp : k = (p - 1) * t + 1 := by omega
  rw [hsp, pow_succ, pow_mul]
  by_cases hdv : p ∣ a
  · have h0 : a ≡ 0 [MOD p] := (modEq_zero_iff_dvd).mpr hdv
    calc (a ^ (p - 1)) ^ t * a ≡ (a ^ (p - 1)) ^ t * 0 [MOD p] := h0.mul_left _
      _ = 0 := mul_zero _
      _ ≡ a [MOD p] := h0.symm
  have hcp : a.Coprime p := ((Nat.Prime.coprime_iff_not_dvd hp).mpr hdv).symm
  have hfr : a ^ (p - 1) ≡ 1 [MOD p] := by
    have h := Nat.ModEq.pow_totient hcp
    rwa [totient_prime hp] at h
  calc (a ^ (p - 1)) ^ t * a ≡ 1 ^ t * a [MOD p] := (hfr.pow t).mul_right a
    _ = a := by rw [one_pow, one_mul]

/-! ## Padded numbers -/

lemma beValue_replicate_append (k : Nat) (bytes : Bytes) :
    beValue (List.replicate k 0 ++ bytes) = beValue bytes := by
  induction k with
  | zero => rfl
  | succ k ih => rw [List.replicate_succ, List.cons_append, beValue_zero_cons, ih]

lemma toBytesPadded_value (x : BigUint) (len : Nat) : beValue (toBytesPadded x len) = x.val := by
  unfold toBytesPadded
  rw [beValue_replicate_append, toBytes_value]

lemma toBytesPadded_length {x : BigUint} (hx : x.limbs ≠ []) {len : Nat} (hp : 0 < len)
    (hlt : x.val < 256 ^ len) : (toBytesPadded x len).length = len := by
  have hrw := (toBytes_shortest hx).length_le hp (by rwa [toBytes_value])
  simp only [toBytesPadded, List.length_append, List.length_replicate]
  omega

namespace RsaPrivateKey

/-! ## Keys -/

/-- The modulus is the product of two distinct odd primes, and the exponents are inverses modulo `(p
- 1) * (q - 1)`. -/
structure Exponents (key : RsaPrivateKey) (p q : Nat) : Prop where
  prime_p : p.Prime
  prime_q : q.Prime
  odd_p : p ≠ 2
  odd_q : q ≠ 2
  distinct : p ≠ q
  normal : key.n.Normal
  modulus : key.n.val = p * q
  inverse : key.e.val * key.d.val ≡ 1 [MOD (p - 1) * (q - 1)]

/-- The parts for the Chinese remainder form. -/
structure Crt (key : RsaPrivateKey) : Prop where
  normal_p : key.p.Normal
  normal_q : key.q.Normal
  dp_eq : key.dp.val = key.d.val % (key.p.val - 1)
  dq_eq : key.dq.val = key.d.val % (key.q.val - 1)
  qi_inverse : key.qi.val * key.q.val ≡ 1 [MOD key.p.val]

/-- A key of 523 bits, from the primes `3` and `2 ^ 521 - 1`. -/
def mersenne : RsaPrivateKey :=
  { n := ⟨[0xfffffffffffffffd, 0xffffffffffffffff, 0xffffffffffffffff, 0xffffffffffffffff,
      0xffffffffffffffff, 0xffffffffffffffff, 0xffffffffffffffff, 0xffffffffffffffff, 0x5ff]⟩
    e := ⟨[0x7]⟩
    d := ⟨[0xdb6db6db6db6db6b, 0x6db6db6db6db6db6, 0xb6db6db6db6db6db, 0xdb6db6db6db6db6d,
      0x6db6db6db6db6db6, 0xb6db6db6db6db6db, 0xdb6db6db6db6db6d, 0x6db6db6db6db6db6, 0x2db]⟩
    p := ⟨[0x3]⟩
    q := ⟨[0xffffffffffffffff, 0xffffffffffffffff, 0xffffffffffffffff, 0xffffffffffffffff,
      0xffffffffffffffff, 0xffffffffffffffff, 0xffffffffffffffff, 0xffffffffffffffff, 0x1ff]⟩
    dp := ⟨[0x1]⟩
    dq := ⟨[0xdb6db6db6db6db6d, 0x6db6db6db6db6db6, 0xb6db6db6db6db6db, 0xdb6db6db6db6db6d,
      0x6db6db6db6db6db6, 0xb6db6db6db6db6db, 0xdb6db6db6db6db6d, 0x6db6db6db6db6db6, 0xdb]⟩
    qi := ⟨[0x1]⟩ }

lemma mersenne_q : mersenne.q.val = 2 ^ 521 - 1 := by decide +kernel

lemma mersenne_exponents : mersenne.Exponents mersenne.p.val mersenne.q.val where
  prime_p := by exact prime_three
  prime_q := by
    rw [mersenne_q]
    exact lucas_lehmer_sufficiency 521 (by norm_num) (by norm_num)
  odd_p := by decide +kernel
  odd_q := by decide +kernel
  distinct := by decide +kernel
  normal := by decide
  modulus := by decide +kernel
  inverse := by decide +kernel

lemma mersenne_crt : mersenne.Crt where
  normal_p := by decide
  normal_q := by decide
  dp_eq := by decide +kernel
  dq_eq := by decide +kernel
  qi_inverse := by decide +kernel

namespace Exponents

variable {key : RsaPrivateKey} {p q : Nat}

variable (hkey : key.Exponents p q)
include hkey

lemma coprime : p.Coprime q := (coprime_primes hkey.prime_p hkey.prime_q).mpr hkey.distinct

lemma three_le_p : 3 ≤ p := by
  have htw := hkey.prime_p.two_le
  have hod := hkey.odd_p
  omega

lemma three_le_q : 3 ≤ q := by
  have htw := hkey.prime_q.two_le
  have hod := hkey.odd_q
  omega

lemma one_lt_modulus : 1 < key.n.val := by
  have h := mul_le_mul hkey.three_le_p hkey.three_le_q
  rw [hkey.modulus]
  omega

lemma pow_mod_p {k : Nat} (hk : k ≡ key.d.val [MOD p - 1]) (m : Nat) :
    m ^ (key.e.val * k) ≡ m [MOD p] := by
  have hon : key.e.val * k ≡ 1 [MOD p - 1] :=
    (hk.mul_left key.e.val).trans (hkey.inverse.of_mul_right _)
  have hp : 0 < key.e.val * k := by
    apply pos_of_ne_zero
    intro h0
    have hth := hkey.three_le_p
    rw [h0, Nat.ModEq, zero_mod, mod_eq_of_lt (by omega)] at hon
    omega
  exact pow_modEq_self hkey.prime_p hp hon m

lemma symm : key.Exponents q p where
  prime_p := hkey.prime_q
  prime_q := hkey.prime_p
  odd_p := hkey.odd_q
  odd_q := hkey.odd_p
  distinct := hkey.distinct.symm
  normal := hkey.normal
  modulus := by rw [hkey.modulus, mul_comm]
  inverse := by rw [mul_comm (q - 1)]; exact hkey.inverse

lemma pow_mod_n (m : Nat) : m ^ (key.e.val * key.d.val) ≡ m [MOD key.n.val] := by
  rw [hkey.modulus, ← modEq_and_modEq_iff_modEq_mul hkey.coprime]
  exact ⟨hkey.pow_mod_p rfl m, hkey.symm.pow_mod_p rfl m⟩

end Exponents

/-! ## The Chinese remainder form -/

section

variable {key : RsaPrivateKey}

lemma Crt.quotient (hcr : key.Crt) {diff m1 m2 : Nat} (hdf : diff + m2 ≡ m1 [MOD key.p.val]) :
    m2 + key.qi.val * diff % key.p.val * key.q.val ≡ m1 [MOD key.p.val] := by
  have hq : key.qi.val * diff % key.p.val * key.q.val ≡ diff [MOD key.p.val] :=
    calc key.qi.val * diff % key.p.val * key.q.val
        ≡ key.qi.val * diff * key.q.val [MOD key.p.val] := (mod_modEq _ _).mul_right _
      _ = key.qi.val * key.q.val * diff := by ring
      _ ≡ 1 * diff [MOD key.p.val] := hcr.qi_inverse.mul_right diff
      _ = diff := one_mul diff
  calc m2 + key.qi.val * diff % key.p.val * key.q.val ≡ m2 + diff [MOD key.p.val] := hq.add_left m2
    _ = diff + m2 := add_comm _ _
    _ ≡ m1 [MOD key.p.val] := hdf

lemma recombine_val (hcr : key.Crt) (hp : 0 < key.p.val) {m1 m2 : BigUint} (h1 : m1.Normal)
    (h2 : m2.Normal) : (key.recombine m1 m2).Normal
      ∧ ∃ h < key.p.val, (key.recombine m1 m2).val = m2.val + h * key.q.val
        ∧ m2.val + h * key.q.val ≡ m1.val [MOD key.p.val] := by
  unfold recombine
  refine ⟨add_normal _ _, ?_⟩
  by_cases hge : m2.val ≤ m1.val
  · rw [if_pos ((cmp_nonneg_iff h1 h2).mpr hge)]
    refine ⟨key.qi.val * (m1.val - m2.val) % key.p.val, mod_lt _ hp, ?_, ?_⟩
    · rw [add_val, mul_val, modOp_val _ hcr.normal_p hp, mul_val, sub_val hge]
    · apply hcr.quotient
      rw [Nat.sub_add_cancel hge]
  rw [if_neg (by rwa [ge_iff_le, cmp_nonneg_iff h1 h2])]
  have hlt : m1.val ≤ m2.val := by omega
  have hmd : (m2.val - m1.val) % key.p.val < key.p.val := mod_lt _ hp
  have hrd : ((m2.sub m1).modOp key.p).val = (m2.val - m1.val) % key.p.val := by
    rw [modOp_val _ hcr.normal_p hp, sub_val hlt]
  refine ⟨key.qi.val * (key.p.val - (m2.val - m1.val) % key.p.val) % key.p.val, mod_lt _ hp, ?_, ?_⟩
  · rw [add_val, mul_val, modOp_val _ hcr.normal_p hp, mul_val, sub_val (by rw [hrd]; omega), hrd]
  -- the difference from `p` stands for `m1 - m2`
  apply hcr.quotient
  have hsp := mod_add_div (m2.val - m1.val) key.p.val
  have hsm : key.p.val - (m2.val - m1.val) % key.p.val + m2.val
      = m1.val + key.p.val * ((m2.val - m1.val) / key.p.val + 1) := by
    rw [mul_add]
    omega
  rw [hsm]
  exact add_modEq_left_iff.mpr (dvd_mul_right _ _)

lemma recombine_eq (hkey : key.Exponents key.p.val key.q.val) (hcr : key.Crt) {m1 m2 : BigUint}
    (h1 : m1.Normal) (h2 : m2.Normal) {m : Nat} (hlt : m < key.n.val)
    (hm1 : m1.val ≡ m [MOD key.p.val]) (hm2 : m2.val = m % key.q.val) :
    (key.recombine m1 m2).Normal ∧ (key.recombine m1 m2).val = m := by
  have hp : 0 < key.p.val := hkey.prime_p.pos
  have hq : 0 < key.q.val := hkey.prime_q.pos
  obtain ⟨hnr, h, hh, hvl, hmd⟩ := recombine_val hcr hp h1 h2
  refine ⟨hnr, ?_⟩
  rw [hvl]
  have hmodP : m2.val + h * key.q.val ≡ m [MOD key.p.val] := hmd.trans hm1
  have hmodQ : m2.val + h * key.q.val ≡ m [MOD key.q.val] := by
    rw [Nat.ModEq, add_mul_mod_self_right, hm2, mod_mod]
  have hmodN : m2.val + h * key.q.val ≡ m [MOD key.n.val] := by
    rw [hkey.modulus]
    exact (modEq_and_modEq_iff_modEq_mul hkey.coprime).mp ⟨hmodP, hmodQ⟩
  apply Nat.ModEq.eq_of_lt_of_lt hmodN _ hlt
  have hm2lt : m2.val < key.q.val := by
    rw [hm2]
    exact mod_lt _ hq
  calc m2.val + h * key.q.val < key.q.val + h * key.q.val := by omega
    _ = (h + 1) * key.q.val := by ring
    _ ≤ key.p.val * key.q.val := mul_le_mul_right _ hh
    _ = key.n.val := hkey.modulus.symm

end

/-! ## Signing a number -/

def signPadded (key : RsaPrivateKey) (padded : Bytes) : Bytes :=
  toBytesPadded ((fromBytes padded).modExp key.d key.n) key.n.byteLen

lemma Exponents.signed {key : RsaPrivateKey} {p q : Nat} (hkey : key.Exponents p q)
    (padded : Bytes) (hlt : beValue padded < key.n.val) :
    (key.signPadded padded).length = key.n.byteLen
      ∧ ((fromBytes (key.signPadded padded)).modExp key.e key.n).Normal
      ∧ ((fromBytes (key.signPadded padded)).modExp key.e key.n).val = beValue padded := by
  have hon := hkey.one_lt_modulus
  obtain ⟨hp, hby, _⟩ := byteLen_spec hkey.normal
  obtain ⟨hnr, hvl⟩ := modExp_spec (fromBytes padded) key.d hkey.normal hon
  obtain ⟨hag, hba⟩ := modExp_spec (fromBytes (key.signPadded padded)) key.e hkey.normal hon
  rw [fromBytes_val] at hvl hba
  refine ⟨?_, hag, ?_⟩
  · apply toBytesPadded_length hnr.1 hp
    calc _ = beValue padded ^ key.d.val % key.n.val := hvl
      _ < key.n.val := mod_lt _ (by omega)
      _ < 256 ^ key.n.byteLen := hby
  have hsg : beValue (key.signPadded padded) = beValue padded ^ key.d.val % key.n.val := by
    rw [signPadded, toBytesPadded_value, hvl]
  have hpw : (beValue padded ^ key.d.val) ^ key.e.val ≡ beValue padded [MOD key.n.val] := by
    rw [← pow_mul, mul_comm]
    exact hkey.pow_mod_n (beValue padded)
  rw [hba, hsg, ← pow_mod, hpw, mod_eq_of_lt hlt]

end RsaPrivateKey

end Nt61.Crypto
