/-
Checked — unsigned arithmetic; `none` is the overflow.
-/
import Mathlib.Algebra.BigOperators.Group.List.Basic
import Mathlib.Algebra.Order.Ring.Nat

namespace Nt61.Lib.Checked

def add (w a b : Nat) : Option Nat := if a + b < 2 ^ w then some (a + b) else none

def mul (w a b : Nat) : Option Nat := if a * b < 2 ^ w then some (a * b) else none

/-- Subtraction: it stops below zero. -/
def sub (a b : Nat) : Option Nat := if b ≤ a then some (a - b) else none

/-- Addition of signed numbers of `w` bits. -/
def addSigned (w : Nat) (a b : Int) : Option Int :=
  if -2 ^ (w - 1) ≤ a + b ∧ a + b < 2 ^ (w - 1) then some (a + b) else none

def addProducts (w : Nat) : Nat → List (Nat × Nat) → Option Nat
  | sum, [] => some sum
  | sum, (x, y) :: rest => do
    let product ← mul w x y
    let sum ← add w sum product
    addProducts w sum rest

lemma bind_of_some {α β : Type} {m : Option α} {a : α} (h : m = some a) (f : α → Option β) :
    (m >>= f) = f a := by
  rw [h]
  rfl

variable {w a b : Nat}

lemma add_eq (h : a + b < 2 ^ w) : add w a b = some (a + b) := if_pos h

lemma mul_eq (h : a * b < 2 ^ w) : mul w a b = some (a * b) := if_pos h

lemma sub_eq (h : b ≤ a) : sub a b = some (a - b) := if_pos h

lemma add_eq_some_iff {c : Nat} : add w a b = some c ↔ a + b < 2 ^ w ∧ c = a + b := by
  unfold add
  by_cases h : a + b < 2 ^ w
  · rw [if_pos h]
    simp [h, eq_comm]
  · rw [if_neg h]
    simp [h]

lemma mul_eq_some_iff {c : Nat} : mul w a b = some c ↔ a * b < 2 ^ w ∧ c = a * b := by
  unfold mul
  split
  · next h => simp [h, eq_comm]
  · next h => simp [h]

lemma sub_eq_some_iff {c : Nat} : sub a b = some c ↔ c + b = a := by
  unfold sub
  split
  · rw [Option.some_inj]
    omega
  · simp only [reduceCtorEq, false_iff]
    omega

lemma addProducts_eq {bound sum : Nat} (ps : List (Nat × Nat))
    (hbd : ∀ p ∈ ps, p.1 * p.2 ≤ bound) (hro : sum + ps.length * bound < 2 ^ w) :
    addProducts w sum ps = some (sum + (ps.map fun p => p.1 * p.2).sum) := by
  induction ps generalizing sum with
  | nil => rfl
  | cons p ps ih =>
    have hp : p.1 * p.2 ≤ bound := hbd p List.mem_cons_self
    have hl : (p :: ps).length * bound = ps.length * bound + bound := by
      rw [List.length_cons, Nat.succ_mul]
    show ((mul w p.1 p.2).bind fun product =>
      (add w sum product).bind fun sum => addProducts w sum ps) = _
    rw [mul_eq (by omega), Option.bind_some, add_eq (by omega), Option.bind_some,
      ih (fun q hq => hbd q (List.mem_cons_of_mem p hq)) (by omega), List.map_cons,
      List.sum_cons, Nat.add_assoc]

end Nt61.Lib.Checked
