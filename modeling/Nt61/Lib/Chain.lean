/-
Chain — finite chains in a successor function.

A chain is determined by its head (`Chain.iterate`), does not see changes of `next` off its nodes
(`Chain.congr`), and grows at its end (`Chain.snoc`).
-/
import Mathlib.Data.List.Basic
import Mathlib.Logic.Function.Iterate

namespace Nt61.Lib

open Function

variable {α : Type}

/-- The non-empty list is the way from its head to `stop` along `next`. -/
def Chain (next : α → α) (stop : α) : List α → Prop
  | [] => False
  | [c] => next c = stop
  | c :: d :: l => next c = d ∧ Chain next stop (d :: l)

namespace Chain

variable {next next' : α → α} {stop : α} {l : List α}

lemma congr (h : Chain next stop l) (hag : ∀ c ∈ l, next' c = next c) : Chain next' stop l := by
  induction l with
  | nil => exact h
  | cons c l ih =>
    have hc : next' c = next c := hag c List.mem_cons_self
    cases l with
    | nil => exact hc.trans h
    | cons d l => exact ⟨hc.trans h.1, ih h.2 fun e he => hag e (List.mem_cons_of_mem c he)⟩

lemma next_getElem (h : Chain next stop l) {i : Nat} (hi : i + 1 < l.length) :
    next l[i] = l[i + 1] := by
  induction l generalizing i with
  | nil => exact absurd h id
  | cons c l ih =>
    cases l with
    | nil => simp at hi
    | cons d l =>
      cases i with
      | zero => exact h.1
      | succ i => exact ih h.2 (by simpa using hi)

lemma next_getLast (h : Chain next stop l) {i : Nat} (hi : i + 1 = l.length) :
    next l[i] = stop := by
  induction l generalizing i with
  | nil => exact absurd h id
  | cons c l ih =>
    cases l with
    | nil =>
      obtain rfl : i = 0 := by simpa using hi
      exact h
    | cons d l =>
      cases i with
      | zero => simp at hi
      | succ i => exact ih h.2 (by simpa using hi)

lemma iterate {c : α} (h : Chain next stop (c :: l)) {i : Nat}
    (hi : i < (c :: l).length) : next^[i] c = (c :: l)[i] := by
  induction i with
  | zero => rfl
  | succ i ih =>
    rw [iterate_succ_apply', ih (by omega)]
    exact next_getElem h hi

lemma snoc [DecidableEq α] {last c : α} (h : Chain next stop (l ++ [last]))
    (hnd : (l ++ [last]).Nodup) (hc : c ∉ l ++ [last]) :
    Chain (update (update next c stop) last c) stop (l ++ [last, c]) := by
  induction l with
  | nil =>
    have hne : c ≠ last := fun heq => hc (by simp [heq])
    refine ⟨by simp, ?_⟩
    show update (update next c stop) last c c = stop
    rw [update_of_ne hne, update_self]
  | cons d l ih =>
    have hd : d ≠ last ∧ d ≠ c := by
      constructor
      · rintro rfl
        simp at hnd
      · rintro rfl
        simp at hc
    have hnd' : (l ++ [last]).Nodup := (List.nodup_cons.mp hnd).2
    have hc' : c ∉ l ++ [last] := fun hm => hc (List.mem_cons_of_mem d hm)
    have hke : update (update next c stop) last c d = next d := by
      rw [update_of_ne hd.1, update_of_ne hd.2]
    cases l with
    | nil => exact ⟨hke.trans h.1, ih h.2 hnd' hc'⟩
    | cons e l => exact ⟨hke.trans h.1, ih h.2 hnd' hc'⟩

end Chain

end Nt61.Lib
