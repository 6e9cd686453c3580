/-
Gf2 — polynomials over the field of two elements, given by their bits.

Exclusive or is addition, and moving the bits up by one place is multiplication by `X`. Modulo `g =
X ^ n + bitPoly n m` the bit that falls out at the top comes back as `m` (`mk_shiftIn`).
-/
import Mathlib.RingTheory.AdjoinRoot
import Mathlib.Algebra.Field.ZMod

namespace Nt61.Lib

open Polynomial AdjoinRoot List

/-! ## Bits as coefficients -/

def bit (b : Bool) : ZMod 2 := if b then 1 else 0

lemma bit_xor (a b : Bool) : bit (a ^^ b) = bit a + bit b := by cases a <;> cases b <;> rfl

lemma bit_and (a b : Bool) : bit (a && b) = bit a * bit b := by cases a <;> cases b <;> rfl

lemma bit_injective : Function.Injective bit := by decide

noncomputable def bitPoly (n : Nat) (a : Nat → Bool) : (ZMod 2)[X] :=
  ∑ i ∈ Finset.range n, monomial i (bit (a i))

variable (n : Nat)

lemma coeff_bitPoly (a : Nat → Bool) (k : Nat) :
    (bitPoly n a).coeff k = if k < n then bit (a k) else 0 := by
  unfold bitPoly
  rw [finsetSum_coeff]
  simp only [coeff_monomial, Finset.sum_ite_eq', Finset.mem_range]

lemma bitPoly_congr {n : Nat} {a b : Nat → Bool} (h : ∀ i < n, a i = b i) :
    bitPoly n a = bitPoly n b := by
  apply Finset.sum_congr rfl
  intro i hi
  rw [h i (Finset.mem_range.mp hi)]

lemma bitPoly_succ (a : Nat → Bool) : bitPoly (n + 1) a = bitPoly n a + monomial n (bit (a n)) := by
  unfold bitPoly
  rw [Finset.sum_range_succ]

lemma bitPoly_false : bitPoly n (fun _ => false) = 0 := by
  ext k
  rw [coeff_bitPoly]
  split_ifs <;> rfl

lemma bitPoly_xor (a b : Nat → Bool) :
    bitPoly n (fun i => a i ^^ b i) = bitPoly n a + bitPoly n b := by
  unfold bitPoly
  rw [← Finset.sum_add_distrib]
  apply Finset.sum_congr rfl
  intro i _
  rw [bit_xor, map_add]

lemma bitPoly_and (c : Bool) (a : Nat → Bool) :
    bitPoly n (fun i => c && a i) = C (bit c) * bitPoly n a := by
  ext k
  rw [coeff_C_mul, coeff_bitPoly, coeff_bitPoly, mul_ite, mul_zero, bit_and]

lemma degree_bitPoly_lt (a : Nat → Bool) : (bitPoly n a).degree < n := by
  rw [degree_lt_iff_coeff_zero]
  intro k hk
  rw [coeff_bitPoly, if_neg (Nat.not_lt.mpr hk)]

/-- The bits one place further up, with a zero at the bottom. -/
def shiftUp (a : Nat → Bool) : Nat → Bool
  | 0 => false
  | i + 1 => a i

lemma bitPoly_shiftUp (a : Nat → Bool) : bitPoly (n + 1) (shiftUp a) = X * bitPoly n a := by
  ext k
  rw [coeff_bitPoly]
  cases k with
  | zero =>
    rw [coeff_X_mul_zero]
    rfl
  | succ k =>
    rw [coeff_X_mul, coeff_bitPoly]
    show (if k + 1 < n + 1 then bit (a k) else 0) = _
    simp only [Nat.add_lt_add_iff_right]

/-! ## Residues -/

/-- The bits one place further up; the top bit of `n` comes back as the bits `m`. -/
def shiftIn (n : Nat) (m a : Nat → Bool) (i : Nat) : Bool := shiftUp a i ^^ (shiftUp a n && m i)

section

variable {n : Nat} {m : Nat → Bool} {g : (ZMod 2)[X]} (hg : g = X ^ n + bitPoly n m)
include hg

lemma mk_shiftIn (a : Nat → Bool) : mk g (bitPoly n (shiftIn n m a))
      = mk g X * mk g (bitPoly n a) := by
  rw [← map_mul, ← bitPoly_shiftUp, bitPoly_succ, mk_eq_mk]
  unfold shiftIn
  rw [bitPoly_xor, bitPoly_and, ← C_mul_X_pow_eq_monomial]
  -- over two elements `- X ^ n` is `X ^ n`
  have htw : (2 : (ZMod 2)[X]) = 0 := CharTwo.two_eq_zero
  use C (bit (shiftUp a n))
  rw [hg]
  linear_combination (- X ^ n * C (bit (shiftUp a n))) * htw

lemma bits_eq_of_mk_eq {a b : Nat → Bool} (h : mk g (bitPoly n a) = mk g (bitPoly n b)) :
    ∀ i < n, a i = b i := by
  have hmn : g.Monic := by
    rw [hg]
    exact monic_X_pow_add (degree_bitPoly_lt n m)
  have hdg : g.degree = (n : WithBot Nat) := by
    rw [hg, degree_add_eq_left_of_degree_lt]
    · exact degree_X_pow n
    · rw [degree_X_pow]
      exact degree_bitPoly_lt n m
  have hlw : (bitPoly n a - bitPoly n b).degree < g.degree := by
    rw [hdg]
    exact (degree_sub_le _ _).trans_lt (max_lt (degree_bitPoly_lt n a) (degree_bitPoly_lt n b))
  have h0 : bitPoly n a - bitPoly n b = 0 := by
    by_contra hne
    exact hmn.not_dvd_of_degree_lt hne hlw (mk_eq_mk.mp h)
  intro i hi
  have hcf := congrArg (fun p => coeff p i) (sub_eq_zero.mp h0)
  simp only [coeff_bitPoly, if_pos hi] at hcf
  exact bit_injective hcf

end

/-! ## Shift and add -/

section

variable {σ : Type} {R : Type} [CommRing R] {φ : (ZMod 2)[X] →+* R} {value : σ → R}
  {add : σ → σ → σ} {shift : σ → σ}

def shiftAdd (add : σ → σ → σ) (shift : σ → σ) (state : σ × σ) (b : Bool) : σ × σ :=
  (if b then add state.1 state.2 else state.1, shift state.2)

lemma foldl_shiftAdd (had : ∀ z v, value (add z v) = value z + value v)
    (hsh : ∀ v, value (shift v) = φ X * value v) (a : Nat → Bool) (n : Nat) (z v : σ) :
    value (((range n).map a).foldl (shiftAdd add shift) (z, v)).1
        = value z + φ (bitPoly n a) * value v
      ∧ value (((range n).map a).foldl (shiftAdd add shift) (z, v)).2 = φ X ^ n * value v := by
  induction n with
  | zero => simp [bitPoly]
  | succ n ih =>
    obtain ⟨ihz, ihv⟩ := ih
    rw [range_succ, map_append, foldl_append, bitPoly_succ]
    generalize ((range n).map a).foldl (shiftAdd add shift) (z, v) = state at ihz ihv
    show value (if a n then add state.1 state.2 else state.1) = _ ∧ value (shift state.2) = _
    constructor
    · rw [← C_mul_X_pow_eq_monomial]
      cases a n with
      | false => simp [bit, ihz]
      | true =>
        rw [if_pos rfl, had, ihz, ihv]
        simp only [bit, if_true, C_1, one_mul, map_add, map_pow]
        ring
    · rw [hsh, ihv]
      ring

end

/-! ## Horner's rule -/

section

variable {R : Type} [CommRing R]

/-- The first of `m` values at `X ^ m`, the last at `X`. -/
noncomputable def hornerPoly (xs : List R) : R[X] :=
  ∑ i : Fin xs.length, C (xs.get i) * X ^ (xs.length - i)

lemma hornerPoly_cons (x : R) (xs : List R) :
    hornerPoly (x :: xs) = C x * X ^ (xs.length + 1) + hornerPoly xs := by
  unfold hornerPoly
  show ∑ i : Fin (xs.length + 1), C ((x :: xs).get i) * X ^ (xs.length + 1 - i.val) = _
  rw [Fin.sum_univ_succ]
  simp

lemma foldl_horner (h : R) (xs : List R) (y : R) :
    xs.foldl (fun y x => (y + x) * h) y = y * h ^ xs.length + (hornerPoly xs).eval h := by
  induction xs generalizing y with
  | nil => simp [hornerPoly]
  | cons x xs ih =>
    rw [foldl_cons, ih, hornerPoly_cons, length_cons, eval_add, eval_mul, eval_C,
      eval_pow, eval_X]
    ring

lemma coeff_hornerPoly (xs : List R) (j : Nat) :
    (hornerPoly xs).coeff j = (0 :: xs.reverse)[j]?.getD 0 := by
  induction xs with
  | nil => cases j <;> simp [hornerPoly]
  | cons x xs ih =>
    rw [hornerPoly_cons, coeff_add, ih, coeff_C_mul_X_pow, reverse_cons, ← cons_append]
    obtain hlt | rfl | hgt := Nat.lt_trichotomy j (xs.length + 1)
    · rw [if_neg hlt.ne, zero_add, getElem?_append_left (by simpa using hlt)]
    · simp
    · rw [if_neg hgt.ne', zero_add, getElem?_eq_none (by simpa using hgt.le),
        getElem?_eq_none (by simpa using hgt)]

lemma hornerPoly_inj {xs ys : List R} (hl : xs.length = ys.length)
    (h : hornerPoly xs = hornerPoly ys) : xs = ys := by
  refine reverse_injective (ext_getElem (by simpa using hl) fun j hj hj' => ?_)
  have hcf := congrArg (coeff · (j + 1)) h
  simpa only [coeff_hornerPoly, getElem?_cons_succ, getElem?_eq_getElem hj,
    getElem?_eq_getElem hj', Option.getD_some] using hcf

end

end Nt61.Lib
