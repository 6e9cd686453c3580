/-
Scan — nested loops with an early exit are ONE search over the flattened index.

`findSome?` over a range is a `for` loop that returns from its body; a loop over a list is a loop
over its positions (`findSome?_positions`).
-/
import Mathlib.Data.List.GetD

namespace Nt61.Lib

open List

variable {α β : Type}

/-! ## Rows -/

lemma row_div {b i : Nat} (hi : i < b) (k : Nat) : (k * b + i) / b = k := by
  rw [Nat.add_comm, Nat.add_mul_div_right _ _ (Nat.zero_lt_of_lt hi), Nat.div_eq_of_lt hi, Nat.zero_add]

lemma row_mod {b i : Nat} (hi : i < b) (k : Nat) : (k * b + i) % b = i := by
  rw [Nat.add_comm, Nat.add_mul_mod_self_right, Nat.mod_eq_of_lt hi]

/-! ## Searches -/

lemma findSome?_congr {l : List β} {f g : β → Option α} (h : ∀ x ∈ l, f x = g x) :
    l.findSome? f = l.findSome? g := by
  induction l with
  | nil => rfl
  | cons x l ih =>
    rw [findSome?_cons, findSome?_cons, h x mem_cons_self,
      ih fun y hy => h y (mem_cons_of_mem x hy)]

lemma findSome?_range_mul (a b : Nat) (g : Nat → Option α) :
    ((range a).findSome? fun s => (range b).findSome? fun e => g (s * b + e))
      = (range (a * b)).findSome? g := by
  induction a with
  | zero => rw [Nat.zero_mul]; rfl
  | succ a ih =>
    have hin : ((range b).map fun e => a * b + e).findSome? g
        = (range b).findSome? fun e => g (a * b + e) := by
      rw [findSome?_map]
      rfl
    rw [range_succ, findSome?_append, ih, Nat.succ_mul, range_add, findSome?_append, hin]
    simp

variable (l : List β)

lemma map_getD_range (default : β) : (range l.length).map (fun k => l.getD k default) = l := by
  refine ext_getElem (by simp) ?_
  intro i _ hi
  rw [getElem_map, getElem_range, getD_eq_getElem _ _ hi]

lemma findSome?_positions (default : β) (f : β → Option α) :
    l.findSome? f = (range l.length).findSome? fun k => f (l.getD k default) := by
  have hfi : ((range l.length).map fun k => l.getD k default).findSome? f
      = (range l.length).findSome? (f ∘ fun k => l.getD k default) := findSome?_map
  rw [map_getD_range] at hfi
  exact hfi

lemma findSome?_test (p : β → Bool) (f : β → α) :
    (l.findSome? fun i => if p i then some (f i) else none) = (l.find? p).map f := by
  induction l with
  | nil => rfl
  | cons x l ih =>
    rw [findSome?_cons, find?_cons]
    cases p x
    · simpa using ih
    · rfl

/-! ## Values -/

lemma flatMap_range_mul (a b : Nat) (g : Nat → α) :
    ((range a).flatMap fun s => (range b).map fun e => g (s * b + e)) = (range (a * b)).map g := by
  induction a with
  | zero => rw [Nat.zero_mul]; rfl
  | succ a ih =>
    rw [range_succ, flatMap_append, ih, Nat.succ_mul, range_add, map_append, map_map]
    simp [Function.comp_def]

lemma flatMap_positions (default : β) (f : β → List α) :
    l.flatMap f = (range l.length).flatMap fun k => f (l.getD k default) := by
  rw [← flatMap_map (fun k => l.getD k default) f, map_getD_range]

/-! ## Cursors -/

/-- Search until the cursor is back at its start or the rounds are used up. The cursor ends behind
the last place that was looked at. -/
def searchFrom (free : Nat → Bool) (advance : Nat → Nat) (start : Nat) :
    Nat → Nat → Option Nat × Nat
  | 0, p => (none, p)
  | rounds + 1, p =>
    if free p then (some p, advance p)
    else if advance p = start then (none, advance p)
    else searchFrom free advance start rounds (advance p)

/-- Round a range of `n` places: after `k` rounds the cursor is `k` places on. -/
lemma searchFrom_spec {f : Nat → Bool} {g : Nat → Nat} {b n s k : Nat}
    (had : ∀ i < n, g (b + i) = b + (i + 1) % n) (hs : s < n) (hk : k < n)
    (rounds : Nat) (hus : ∀ j < k, f (b + (s + j) % n) = false) :
    let r := searchFrom f g (b + s) rounds (b + (s + k) % n)
    (∃ i < n, r.2 = b + i) ∧ (∀ p ∈ r.1, f p = true ∧ ∃ j < k + rounds, p = b + (s + j) % n)
      ∧ (r.1 = none → ∀ j < k + rounds, f (b + (s + j) % n) = false) := by
  induction rounds generalizing k with
  | zero => exact ⟨⟨_, Nat.mod_lt _ (by omega), rfl⟩, nofun, fun _ => hus⟩
  | succ rounds ih =>
    have hlt : (s + k) % n < n := Nat.mod_lt _ (by omega)
    have hnx : g (b + (s + k) % n) = b + (s + (k + 1)) % n := by
      rw [had _ hlt, Nat.mod_add_mod, Nat.add_assoc]
    rw [searchFrom, hnx]
    cases hf : f (b + (s + k) % n) with
    | true =>
      refine ⟨⟨_, Nat.mod_lt _ (by omega), rfl⟩, ?_, nofun⟩
      rintro _ ⟨⟩
      exact ⟨hf, k, by omega, rfl⟩
    | false =>
      have hus' : ∀ j < k + 1, f (b + (s + j) % n) = false := by
        intro j hj
        obtain hj | rfl := Nat.lt_succ_iff_lt_or_eq.mp hj
        · exact hus j hj
        · exact hf
      obtain hk' | hla : k + 1 < n ∨ k + 1 = n := Nat.lt_or_eq_of_le hk
      · have hro : b + (s + (k + 1)) % n ≠ b + s := by
          obtain h | h := Nat.lt_or_ge (s + (k + 1)) n
          · rw [Nat.mod_eq_of_lt h]
            omega
          · rw [Nat.mod_eq_sub_mod h, Nat.mod_eq_of_lt (by omega)]
            omega
        rw [if_neg (by simp), if_neg hro, Nat.add_comm rounds, ← Nat.add_assoc k]
        exact ih hk' hus'
      -- once round: every place was looked at
      rw [if_neg (by simp), hla, Nat.add_mod_right, Nat.mod_eq_of_lt hs, if_pos rfl]
      refine ⟨⟨s, hs, rfl⟩, nofun, fun _ j _ => ?_⟩
      rw [← Nat.add_mod_mod]
      exact hus' _ (hla ▸ Nat.mod_lt _ (by omega))

end Nt61.Lib
