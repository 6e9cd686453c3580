/-
Align — rounding up to a power of two with a mask.

`alignUp w v a` is `(v + a - 1) & !(a - 1)` on words of `w` bits, where the addition stops the
program if it overflows.
-/
import Nt61.Lib.Checked
import Mathlib.Data.Nat.Bitwise

namespace Nt61.Lib

open Nat Checked

/-- `(v + a - 1) & !(a - 1)` on words of `w` bits. -/
def alignUp (w v a : Nat) : Option Nat := do
  let sum ← add w v a
  let sum ← sub sum 1
  let mask ← sub a 1
  some (sum &&& (2 ^ w - 1 - mask))

lemma and_not_low {n k w : Nat} (hn : n < 2 ^ w) (hk : k ≤ w) :
    n &&& (2 ^ w - 2 ^ k) = 2 ^ k * (n / 2 ^ k) := by
  have hma : 2 ^ w - 2 ^ k = 2 ^ k * (2 ^ (w - k) - 1) := by
    rw [Nat.mul_sub, ← Nat.pow_add, Nat.add_sub_cancel' hk, Nat.mul_one]
  rw [hma]
  apply Nat.eq_of_testBit_eq
  intro i
  rw [testBit_and, testBit_two_pow_mul, testBit_two_pow_sub_one,
    testBit_two_pow_mul, testBit_div_two_pow]
  by_cases hi : k ≤ i
  · rcases Nat.lt_or_ge i w with hlt | hge
    · simp [hi, Nat.sub_add_cancel hi]
      omega
    have hbt : n.testBit i = false :=
      Nat.testBit_lt_two_pow (hn.trans_le (Nat.pow_le_pow_right (by decide) hge))
    simp [hbt, Nat.sub_add_cancel hi]
  · simp [hi]

lemma alignUp_eq {w v k : Nat} (hk : k ≤ w) (hsm : v + 2 ^ k < 2 ^ w) :
    ∃ r, alignUp w v (2 ^ k) = some r ∧ v ≤ r ∧ r < v + 2 ^ k ∧ 2 ^ k ∣ r := by
  have hp : 0 < 2 ^ k := Nat.two_pow_pos k
  refine ⟨2 ^ k * ((v + 2 ^ k - 1) / 2 ^ k), ?_, ?_, ?_, Nat.dvd_mul_right _ _⟩
  · unfold alignUp
    rw [add_eq hsm, Option.bind_eq_bind, Option.bind_some,
      sub_eq (show 1 ≤ v + 2 ^ k by omega), Option.bind_some,
      sub_eq (show 1 ≤ 2 ^ k by omega), Option.bind_some,
      show 2 ^ w - 1 - (2 ^ k - 1) = 2 ^ w - 2 ^ k by omega,
      and_not_low (show v + 2 ^ k - 1 < 2 ^ w by omega) hk]
  · have := lt_mul_div_succ (v + 2 ^ k - 1) hp
    rw [mul_add, mul_one] at this
    omega
  · have := mul_div_le (v + 2 ^ k - 1) (2 ^ k)
    omega

lemma lt_of_alignUp {w v a r : Nat} (h : alignUp w v a = some r) : v + a < 2 ^ w := by
  unfold alignUp add at h
  by_contra hge
  rw [if_neg hge] at h
  cases h

lemma alignUp_of_dvd {w v k : Nat} (hk : k ≤ w) (hsm : v + 2 ^ k < 2 ^ w) (hv : 2 ^ k ∣ v) :
    alignUp w v (2 ^ k) = some v := by
  obtain ⟨r, hr, _, _, hdv⟩ := alignUp_eq hk hsm
  have hsb : 2 ^ k ∣ r - v := dvd_sub hdv hv
  have h0 : r - v = 0 := eq_zero_of_dvd_of_lt hsb (by omega)
  rw [hr]
  congr
  omega

end Nt61.Lib
