/-
Ring — a ring of `n` slots between two free-running counters.

Only what the counters are modulo `n` matters, so they may themselves wrap at any multiple of `n`.
-/
import Mathlib.Data.Nat.ModEq
import Mathlib.Data.Fin.Basic

namespace Nt61.Lib

open Nat

variable {α : Type} {n : Nat} [NeZero n]

/-- The ring holds the list `xs`, oldest first. -/
structure Holds (slots : Fin n → α) (head tail : Nat) (xs : List α) : Prop where
  length_le : xs.length ≤ n
  head_mod : head % n = (tail + xs.length) % n
  slot : ∀ (k : Nat) (hk : k < xs.length), slots (Fin.ofNat n (tail + k)) = xs[k]

variable {slots : Fin n → α} {head tail : Nat} {xs : List α} {x : α}

lemma ofNat_congr {a b : Nat} (h : a % n = b % n) : Fin.ofNat n a = Fin.ofNat n b := Fin.ext h

lemma Holds.nil (h : head % n = tail % n) : Holds slots head tail [] where
  length_le := zero_le n
  head_mod := h
  slot := fun k hk => absurd hk (not_lt_zero k)

lemma Holds.push (h : Holds slots head tail xs) (hro : xs.length < n) (x : α) {head' : Nat}
    (hhd' : head' % n = (head + 1) % n) :
    Holds (Function.update slots (Fin.ofNat n head) x) head' tail (xs ++ [x]) where
  length_le := by
    rw [List.length_append]
    exact hro
  head_mod := by
    rw [hhd', add_mod, h.head_mod, ← add_mod, List.length_append]
    rfl
  slot := by
    intro k hk
    rw [List.length_append, List.length_singleton] at hk
    by_cases hla : k = xs.length
    · -- the new element
      have hsl : Fin.ofNat n (tail + k) = Fin.ofNat n head := by
        apply ofNat_congr
        rw [hla, h.head_mod]
      rw [hsl]
      simp [hla]
    -- an old one: its slot is not the one at `head`, as fewer than `n` are in use
    have hold : k < xs.length := by omega
    have hsl : Fin.ofNat n (tail + k) ≠ Fin.ofNat n head := by
      intro heq
      have hmd : (tail + k) % n = (tail + xs.length) % n := by
        rw [← h.head_mod]
        exact Fin.ext_iff.mp heq
      have hk' : k % n = xs.length % n := Nat.ModEq.add_left_cancel' tail hmd
      rw [mod_eq_of_lt (by omega), mod_eq_of_lt hro] at hk'
      exact hla hk'
    rw [Function.update_of_ne hsl, h.slot k hold]
    exact (List.getElem_append_left hold).symm

lemma Holds.oldest (h : Holds slots head tail (x :: xs)) : slots (Fin.ofNat n tail) = x :=
  h.slot 0 (succ_pos _)

lemma Holds.pop (h : Holds slots head tail (x :: xs)) {tail' : Nat}
    (htl' : tail' % n = (tail + 1) % n) : Holds slots head tail' xs where
  length_le := le_of_succ_le h.length_le
  head_mod := by
    rw [h.head_mod, add_mod tail', htl', ← add_mod, List.length_cons, add_assoc, add_comm 1]
  slot := by
    intro k hk
    have hsl : Fin.ofNat n (tail' + k) = Fin.ofNat n (tail + (k + 1)) := by
      apply ofNat_congr
      rw [add_mod tail', htl', ← add_mod, add_assoc, add_comm 1]
    rw [hsl]
    exact h.slot (k + 1) (succ_lt_succ hk)

end Nt61.Lib
