/-
Bits — numbers as sequences of bits.

How a loop that sets bits builds a number, and where bit `k` of a little-endian byte string is. Bits
from the top down: raising to the number they stand for by squaring and multiplying.
-/
import Nt61.Lib.Bytes

namespace Nt61.Lib

open Nat List

/-! ## Setting bits -/

def setBits (n : Nat) (test : Nat → Bool) : Nat :=
  (range n).foldl (fun x k => if test k then x ||| 1 <<< k else x) 0

def bitSet (x k : Nat) : Bool := (x >>> k) &&& 1 == 1

lemma bitSet_eq_testBit (x k : Nat) : bitSet x k = x.testBit k := by
  unfold bitSet
  rw [testBit_eq_decide_div_mod_eq, and_one_is_mod, shiftRight_eq_div_pow]
  rfl

/-! ## The bits of a sequence of digits -/

/-- Digits of `w` bits, least significant first. -/
def digitsValue (w : Nat) : List Nat → Nat
  | [] => 0
  | d :: ds => d + 2 ^ w * digitsValue w ds

lemma testBit_digitsValue {w : Nat} (hw : 0 < w) (ds : List Nat) (hds : ∀ d ∈ ds, d < 2 ^ w)
    (k : Nat) : (digitsValue w ds).testBit k = (ds.getD (k / w) 0).testBit (k % w) := by
  induction ds generalizing k with
  | nil => simp [digitsValue]
  | cons d ds ih =>
    rw [digitsValue, add_comm, testBit_two_pow_mul_add _ (hds d mem_cons_self)]
    by_cases hk : k < w
    · rw [if_pos hk, div_eq_of_lt hk, mod_eq_of_lt hk]
      rfl
    rw [if_neg hk, ih fun d' hd' => hds d' (mem_cons_of_mem d hd')]
    obtain ⟨j, rfl⟩ : ∃ j, k = j + w := ⟨k - w, by omega⟩
    rw [Nat.add_sub_cancel, Nat.add_div_right _ hw, Nat.add_mod_right]
    rfl

lemma leValue_eq_digitsValue (bs : Bytes) : leValue bs = digitsValue 8 (bs.map UInt8.toNat) := by
  induction bs with
  | nil => rfl
  | cons b bs ih =>
    rw [leValue, ih]
    rfl

lemma testBit_leValue (bs : Bytes) (k : Nat) :
    (leValue bs).testBit k = (bs.getD (k / 8) 0).toNat.testBit (k % 8) := by
  rw [leValue_eq_digitsValue, testBit_digitsValue (by decide)]
  · rw [getD_eq_getElem?_getD, getD_eq_getElem?_getD, getElem?_map]
    cases bs[k / 8]? with
    | none => rfl
    | some b => rfl
  intro d hd
  obtain ⟨b, _, rfl⟩ := mem_map.mp hd
  exact b.toNat_lt

/-! ## Bits from the top down -/

/-- Most significant bit first. -/
def msbValue (bits : List Bool) : Nat := bits.foldl (fun v bit => 2 * v + bit.toNat) 0

lemma foldl_square_mul {M : Type} [CommMonoid M] (base : M) (bits : List Bool) (v : Nat) :
    bits.foldl (fun r bit => if bit then r * r * base else r * r) (base ^ v)
      = base ^ bits.foldl (fun v bit => 2 * v + bit.toNat) v := by
  induction bits generalizing v with
  | nil => rfl
  | cons bit bits ih =>
    rw [foldl_cons, foldl_cons, ← ih]
    cases bit with congr 1
    | false =>
      show base ^ v * base ^ v = base ^ (2 * v + 0)
      rw [← pow_add, add_zero, two_mul]
    | true =>
      show base ^ v * base ^ v * base = base ^ (2 * v + 1)
      rw [← pow_add, pow_succ, two_mul]

end Nt61.Lib
