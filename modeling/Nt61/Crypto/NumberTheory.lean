/-
NumberTheory — inverses and the primality test of `crypto/rsa.rs`.

A round of the primality test rejects a prime only if its witness is a multiple of it: a square root
of one is one or minus one.
-/
import Mathlib.FieldTheory.Finite.Basic
import Nt61.Crypto.BigUintBytes
import Nt61.Lib.Checked

namespace Nt61.Crypto.BigUint

open Lib List

/-! ## Canonical values -/

variable {x y m : BigUint}

lemma Normal.ext (hx : x.Normal) (hy : y.Normal) (h : x.val = y.val) : x = y := by
  have hl : x.limbs.length = y.limbs.length := by
    rcases Nat.lt_trichotomy x.limbs.length y.limbs.length with hlt | heq | hlt
    · exact absurd h (val_lt_of_length_lt hx.1 hy hlt).ne
    · exact heq
    · exact absurd h (val_lt_of_length_lt hy.1 hx hlt).ne'
  have hlt (z : BigUint) : ∀ d ∈ z.limbs.map UInt64.toNat, d < 2 ^ 64 := by
    simpa using fun w _ => w.toNat_lt
  have hlb := Nat.ofDigits_inj_of_len_eq (by decide) (by simpa using hl) (hlt x) (hlt y) h
  exact congrArg mk (map_injective_iff.mpr (fun _ _ => UInt64.toNat_inj.mp) hlb)

lemma compareTop_range (us ws : List UInt64) (hl : us.length = ws.length) :
    (compareTop us ws = 0 ↔ us = ws) ∧ -1 ≤ compareTop us ws ∧ compareTop us ws ≤ 1 := by
  fun_induction compareTop us ws with
  | case1 u us w ws hgt => simp [(UInt64.ne_of_lt hgt).symm]
  | case2 u us w ws hgt hlt => simp [UInt64.ne_of_lt hlt]
  | case3 u us w ws hgt hlt ih =>
    obtain rfl : u = w := UInt64.le_antisymm (UInt64.not_lt.mp hgt) (UInt64.not_lt.mp hlt)
    simpa using ih (by simpa using hl)
  | case4 us ws hcs => cases us <;> cases ws <;> grind

lemma cmp_range (x y : BigUint) : (x.cmp y = 0 ↔ x = y) ∧ -1 ≤ x.cmp y ∧ x.cmp y ≤ 1 := by
  unfold cmp
  split
  · next hl =>
    have hne : x ≠ y := fun h => hl (by rw [h])
    split <;> simp [hne]
  next hl =>
  have h := compareTop_range x.limbs.reverse y.limbs.reverse (by simpa using hl)
  cases x
  cases y
  simpa using h

lemma cmp_eq_zero_iff (hx : x.Normal) (hy : y.Normal) : x.cmp y = 0 ↔ x.val = y.val :=
  (cmp_range x y).1.trans ⟨congrArg val, hx.ext hy⟩

lemma cmp_eq (hx : x.Normal) (hy : y.Normal) :
    x.cmp y = if y.val < x.val then 1 else if x.val < y.val then -1 else 0 := by
  have hle := cmp_nonneg_iff hx hy
  have h0 := cmp_eq_zero_iff hx hy
  obtain ⟨-, _, _⟩ := cmp_range x y
  split_ifs <;> omega

/-! ## Inverses -/

def modInverseLoop (modulus : BigUint) : Nat → BigUint → BigUint → BigUint → BigUint → BigUint
  | 0, t, _, _, _ => t
  | rounds + 1, t, newt, r, newr =>
    if newr.isZero then t
    else
      let quotient := (r.divRem newr).1
      modInverseLoop modulus rounds newt
        (if t.cmp (quotient.mul newt) ≥ 0 then t.sub (quotient.mul newt)
          else (modulus.sub (((quotient.mul newt).sub t).modOp modulus)).modOp modulus)
        newr (r.sub (quotient.mul newr))

def modInverse (x modulus : BigUint) : BigUint :=
  (modInverseLoop modulus x.val (ofU32 0) (ofU32 1) modulus x).modOp modulus

lemma modOp_lt (hm : m.Normal) (hps : 0 < m.val) : (x.modOp m).val < m.val := by
  rw [modOp_val x hm hps]
  exact Nat.mod_lt _ hps

lemma mul_normal_of (hx : x.Normal) (y : BigUint) : (x.mul y).Normal :=
  mul_normal (Nat.add_pos_left (length_pos_iff.mpr hx.1) _)

lemma nextCoefficient (hm : m.Normal) (hps : 0 < m.val) {t p : BigUint} (ht : t.Normal)
    (hp : p.Normal) :
    let next := if t.cmp p ≥ 0 then t.sub p else (m.sub ((p.sub t).modOp m)).modOp m
    next.Normal ∧ (next.val : ZMod m.val) = t.val - p.val := by
  split
  · next hge =>
    have hle := (cmp_nonneg_iff ht hp).mp hge
    exact ⟨sub_normal ht.1 p, by rw [sub_val hle, Nat.cast_sub hle]⟩
  next hlt =>
  have hle : t.val ≤ p.val := by
    rw [ge_iff_le, cmp_nonneg_iff ht hp] at hlt
    omega
  have hmd := Nat.mod_lt (p.val - t.val) hps
  refine ⟨modOp_normal _ hm hps, ?_⟩
  rw [modOp_val _ hm hps, sub_val (by rw [modOp_val _ hm hps, sub_val hle]; omega),
    modOp_val _ hm hps, sub_val hle, ZMod.natCast_mod, Nat.cast_sub hmd.le, ZMod.natCast_self,
    ZMod.natCast_mod, Nat.cast_sub hle]
  ring

/-- Euclid's algorithm: `t * a` and `newt * a` stay `r` and `newr` modulo `m`. -/
lemma modInverseLoop_spec (hm : m.Normal) (hps : 0 < m.val) (a : ZMod m.val) (rounds : Nat)
    {t newt r newr : BigUint} (ht : t.Normal) (hnw : newt.Normal) (hr : r.Normal)
    (hnr : newr.Normal) (hrs : newr.val ≤ rounds) (hcp : r.val.Coprime newr.val)
    (hta : t.val * a = r.val) (hnt : newt.val * a = newr.val) :
    (modInverseLoop m rounds t newt r newr).val * a = 1 := by
  induction rounds generalizing t newt r newr with
  | zero =>
    rw [Nat.le_zero.mp hrs, Nat.coprime_zero_right] at hcp
    rw [modInverseLoop, hta, hcp, Nat.cast_one]
  | succ rounds ih =>
    rw [modInverseLoop]
    by_cases h0 : newr.val = 0
    · rw [h0, Nat.coprime_zero_right] at hcp
      rw [if_pos ((isZero_iff newr).mpr h0), hta, hcp, Nat.cast_one]
    rw [if_neg (by rwa [isZero_iff])]
    have hnp : 0 < newr.val := Nat.pos_of_ne_zero h0
    obtain ⟨-, -, hq, hqv⟩ := divRem_spec r hnr hnp
    generalize (r.divRem newr).1 = q at *
    have hle : (q.mul newr).val ≤ r.val := by
      rw [mul_val, hqv]
      exact Nat.div_mul_le_self _ _
    have hrt : (r.sub (q.mul newr)).val = r.val % newr.val := by
      rw [sub_val hle, mul_val, hqv, Nat.mod_eq_sub_div_mul]
    have hnx := nextCoefficient hm hps ht (mul_normal_of hq newt)
    refine ih hnw hnx.1 hnr (sub_normal hr.1 _) ?_ ?_ hnt ?_
    · have hlt := Nat.mod_lt r.val hnp
      omega
    · rwa [hrt, Nat.Coprime, Nat.gcd_comm, ← Nat.gcd_rec, Nat.gcd_comm]
    · rw [hnx.2, sub_val hle, Nat.cast_sub hle, mul_val, mul_val, Nat.cast_mul, Nat.cast_mul,
        sub_mul, mul_assoc, hta, hnt]

def Computes (x : BigUint) (n : Nat) : Prop := x.Normal ∧ x.val = n

lemma modInverse_spec (hx : x.Normal) (hm : m.Normal) (hon : 2 ≤ m.val)
    (hcp : x.val.Coprime m.val) : (x.modInverse m).Normal ∧ (x.modInverse m).val < m.val
      ∧ (x.modInverse m).val * x.val % m.val = 1 := by
  have hps : 0 < m.val := by omega
  have hlp := modInverseLoop_spec hm hps x.val x.val (ofU32_normal 0) (ofU32_normal 1) hm hx
    le_rfl hcp.symm (by simp [ofU32_val]) (by simp [ofU32_val])
  unfold modInverse
  refine ⟨modOp_normal _ hm hps, modOp_lt hm hps, ?_⟩
  rw [← Nat.cast_mul, ← Nat.cast_one, ZMod.natCast_eq_natCast_iff'] at hlp
  rw [modOp_val _ hm hps, Nat.mod_mul_mod, hlp, Nat.mod_eq_of_lt hon]

/-- The big integers refine the natural numbers. -/
theorem refines_nat (x y m : BigUint) (hx : x.Normal) (hy : y.Normal) (hm : m.Normal) :
    Computes (x.add y) (x.val + y.val) ∧ Computes (x.mul y) (x.val * y.val)
      ∧ (y.val ≤ x.val → Computes (x.sub y) (x.val - y.val))
      ∧ (∀ bits, Computes (x.shr bits) (x.val / 2 ^ bits))
      ∧ x.cmp y = (if y.val < x.val then 1 else if x.val < y.val then -1 else 0)
      ∧ (0 < y.val → Computes (x.divRem y).1 (x.val / y.val)
        ∧ Computes (x.divRem y).2 (x.val % y.val))
      ∧ fromBytes x.toBytes = x
      ∧ (∀ bytes, bytes ≠ [] → (fromBytes bytes).toBytes = dropFrontZeros bytes)
      ∧ (2 ≤ m.val → Computes (x.modExp y m) (x.val ^ y.val % m.val)
        ∧ (x.val.Coprime m.val → (x.modInverse m).Normal ∧ (x.modInverse m).val < m.val
          ∧ (x.modInverse m).val * x.val % m.val = 1)) := by
  refine ⟨⟨add_normal x y, add_val x y⟩, ⟨mul_normal_of hx y, mul_val x y⟩,
    fun hle => ⟨sub_normal hx.1 y, sub_val hle⟩, fun bits => ⟨shr_normal hx bits, shr_val x bits⟩,
    cmp_eq hx hy, fun hps => ?_, ?_, fun bytes hne => ?_, fun hon => ⟨modExp_spec x y hm hon,
      modInverse_spec hx hm hon⟩⟩
  · obtain ⟨hrm, hremVal, hqu, hquotVal⟩ := divRem_spec x hy hps
    exact ⟨⟨hqu, hquotVal⟩, hrm, hremVal⟩
  · exact (fromBytes_normal (toBytes_shortest hx.1).1).ext hx (by rw [fromBytes_val, toBytes_value])
  · exact toBytes_eq (fromBytes_normal hne).1 (dropFrontZeros_shortest hne)
      (by rw [fromBytes_val, dropFrontZeros_value])

theorem refines_nat_three : Computes ((ofU32 3).mul (ofU32 5)) 15 :=
  (refines_nat (ofU32 3) (ofU32 5) (ofU32 7) (ofU32_normal 3) (ofU32_normal 5) (ofU32_normal 7)).2.1

/-! ## The primality test -/

/-- Halve an even number and count; as many rounds as it has bits make it odd. -/
def splitLoop : Nat → BigUint → Nat → Option (BigUint × Nat)
  | 0, d, r => some (d, r)
  | rounds + 1, d, r =>
    if d.limbs.headD 0 &&& 1 == 1 then some (d, r)
    else (Checked.add 32 r 1).bind fun r => splitLoop rounds (d.shr 1) r

/-- Square up to `rounds` times, until `n - 1` is reached. -/
def squareLoop (n nMinus1 : BigUint) : Nat → BigUint → Bool
  | 0, _ => false
  | rounds + 1, x =>
    let x := (x.mul x).modOp n
    x.cmp nMinus1 == 0 || squareLoop n nMinus1 rounds x

/-- The bytes are those of the generator. -/
def generateWitness (n : BigUint) (data : Bytes) : BigUint := (fromBytes data).modOp n

/-- A round that does not find `n` to be composite. -/
def passes (n nMinus1 d : BigUint) (r : Nat) (a : BigUint) : Bool :=
  let x := a.modExp d n
  x.cmp (ofU32 1) == 0 || x.cmp nMinus1 == 0 || squareLoop n nMinus1 (r - 1) x

/-- `is_probably_prime`, with what the generator fills in each round. -/
def isProbablyPrime (n : BigUint) (draws : List Bytes) : Option Bool :=
  if n.cmp (ofU32 2) < 0 then some false
  else if n.cmp (ofU32 2) = 0 ∨ n.cmp (ofU32 3) = 0 then some true
  else if n.limbs.headD 0 &&& 1 == 1 then
    let nMinus1 := n.sub (ofU32 1)
    (splitLoop nMinus1.bitLen nMinus1 0).map fun (d, r) =>
      draws.all fun data => passes n nMinus1 d r (generateWitness n data)
  else some false

lemma splitLoop_spec {rounds : Nat} {d d' : BigUint} {r r' : Nat}
    (h : splitLoop rounds d r = some (d', r')) :
    d'.val * 2 ^ r' = d.val * 2 ^ r ∧ r ≤ r' ∧ (0 < rounds → d.val % 2 = 0 → r < r') := by
  induction rounds generalizing d r with
  | zero =>
    cases h
    exact ⟨rfl, le_rfl, by simp⟩
  | succ rounds ih =>
    rw [splitLoop, odd_iff] at h
    split at h
    · next hod =>
      cases h
      exact ⟨rfl, le_rfl, by simp at hod; omega⟩
    next hev =>
    obtain ⟨_, hr1, h⟩ := Option.bind_eq_some_iff.mp h
    obtain ⟨-, rfl⟩ := Checked.add_eq_some_iff.mp hr1
    obtain ⟨hvl, hle, -⟩ := ih h
    have hha : d.val / 2 * 2 = d.val := by
      simp at hev
      omega
    refine ⟨?_, by omega, fun _ _ => hle⟩
    rw [hvl, shr_val, pow_one, Nat.pow_succ', ← Nat.mul_assoc, hha]

section

variable {n : BigUint} (hn : n.Normal) (hp : n.val.Prime)
include hn hp

lemma sub_one_spec : Computes (n.sub (ofU32 1)) (n.val - 1) :=
  ⟨sub_normal hn.1 _, sub_val hp.one_le⟩

lemma cmp_minus_one (hx : x.Normal) (hlt : x.val < n.val) :
    x.cmp (n.sub (ofU32 1)) = 0 ↔ (x.val : ZMod n.val) = -1 := by
  have hon := hp.one_lt
  obtain ⟨hnr, hvl⟩ := sub_one_spec hn hp
  have hcs : (-1 : ZMod n.val) = (n.val - 1 : Nat) := by
    rw [Nat.cast_sub hon.le, ZMod.natCast_self, Nat.cast_one, zero_sub]
  rw [cmp_eq_zero_iff hx hnr, hvl, hcs, ZMod.natCast_eq_natCast_iff',
    Nat.mod_eq_of_lt hlt, Nat.mod_eq_of_lt (by omega)]

/-- A power of two of a number is one, so it is one or the squares come to minus one. -/
lemma squareLoop_of_pow (rounds : Nat) (x : BigUint)
    (hpw : (x.val : ZMod n.val) ^ 2 ^ (rounds + 1) = 1) (hon : (x.val : ZMod n.val) ≠ 1)
    (hmn : (x.val : ZMod n.val) ≠ -1) : squareLoop n (n.sub (ofU32 1)) rounds x = true := by
  have : Fact n.val.Prime := ⟨hp⟩
  induction rounds generalizing x with
  | zero =>
    rw [pow_one, pow_two, mul_self_eq_one_iff] at hpw
    exact (hpw.elim hon hmn).elim
  | succ rounds ih =>
    have hsq : (x.val : ZMod n.val) ^ 2 ≠ 1 := by
      rw [pow_two, ne_eq, mul_self_eq_one_iff]
      exact not_or.mpr ⟨hon, hmn⟩
    have hvl : (((x.mul x).modOp n).val : ZMod n.val) = (x.val : ZMod n.val) ^ 2 := by
      rw [modOp_val _ hn hp.pos, ZMod.natCast_mod, mul_val, Nat.cast_mul, pow_two]
    rw [squareLoop, Bool.or_eq_true, beq_iff_eq,
      cmp_minus_one hn hp (modOp_normal _ hn hp.pos) (modOp_lt hn hp.pos), hvl]
    by_cases hrc : (x.val : ZMod n.val) ^ 2 = -1
    · exact .inl hrc
    · refine .inr (ih _ ?_ (hvl ▸ hsq) (hvl ▸ hrc))
      rw [hvl, ← pow_mul, ← pow_succ', hpw]

lemma passes_of_prime {d : BigUint} {r : Nat} (hr : 0 < r) (hsp : d.val * 2 ^ r = n.val - 1)
    (a : BigUint) (ha : ¬ n.val ∣ a.val) : passes n (n.sub (ofU32 1)) d r a = true := by
  have : Fact n.val.Prime := ⟨hp⟩
  obtain ⟨hx, hvl⟩ := modExp_spec a d hn hp.one_lt
  have hlt : (a.modExp d n).val < n.val := hvl ▸ Nat.mod_lt _ hp.pos
  have hcs : ((a.modExp d n).val : ZMod n.val) = (a.val : ZMod n.val) ^ d.val := by
    rw [hvl, ZMod.natCast_mod, Nat.cast_pow]
  have hon : (a.modExp d n).cmp (ofU32 1) = 0 ↔ ((a.modExp d n).val : ZMod n.val) = 1 := by
    rw [cmp_eq_zero_iff hx (ofU32_normal 1), ← Nat.cast_one, ZMod.natCast_eq_natCast_iff',
      Nat.mod_eq_of_lt hlt, Nat.mod_eq_of_lt hp.one_lt]
    rfl
  unfold passes
  simp only [Bool.or_eq_true, beq_iff_eq, hon, cmp_minus_one hn hp hx hlt]
  by_cases hrc : ((a.modExp d n).val : ZMod n.val) = 1
    ∨ ((a.modExp d n).val : ZMod n.val) = -1
  · exact .inl hrc
  obtain ⟨h1, h2⟩ := not_or.mp hrc
  refine .inr (squareLoop_of_pow hn hp _ _ ?_ h1 h2)
  rw [hcs, ← pow_mul, Nat.sub_add_cancel hr, hsp]
  exact ZMod.pow_card_sub_one_eq_one (by rwa [ne_eq, ZMod.natCast_eq_zero_iff])

end

/-- A prime is rejected only with a witness that is a multiple of it. -/
theorem rejected_prime (n : BigUint) (hn : n.Normal) (hp : n.val.Prime) (draws : List Bytes)
    (h : isProbablyPrime n draws = some false) :
    ∃ data ∈ draws, n.val ∣ (generateWitness n data).val := by
  by_contra hno
  push Not at hno
  have htw := hp.two_le
  unfold isProbablyPrime at h
  rw [if_neg (by rw [cmp_eq hn (ofU32_normal 2), ofU32_val]; split <;> simp; omega)] at h
  split at h
  · cases h
  next hsm =>
  rw [cmp_eq_zero_iff hn (ofU32_normal 2)] at hsm
  have hod : n.val % 2 = 1 := hp.eq_two_or_odd.resolve_left (not_or.mp hsm).1
  rw [if_pos (by rw [odd_iff]; simpa using hod)] at h
  obtain ⟨⟨_, _⟩, hsp, ha⟩ := Option.map_eq_some_iff.mp h
  obtain ⟨-, hvl⟩ := sub_one_spec hn hp
  have hbi : 0 < (n.sub (ofU32 1)).bitLen := by
    have := val_lt_bitLen (n.sub (ofU32 1))
    by_contra h0
    rw [Nat.eq_zero_of_not_pos h0] at this
    omega
  obtain ⟨hpr, -, hr⟩ := splitLoop_spec hsp
  rw [hvl, Nat.pow_zero, Nat.mul_one] at hpr
  obtain ⟨data, hd, hfl⟩ := List.all_eq_false.mp ha
  exact hfl (passes_of_prime hn hp (hr hbi (by omega)) hpr _ (hno data hd))

theorem rejected_five : ∃ data ∈ [[0]], 5 ∣ (generateWitness (ofU32 5) data).val :=
  rejected_prime (ofU32 5) (ofU32_normal 5) Nat.prime_five [[0]] (by decide +kernel)

end Nt61.Crypto.BigUint
