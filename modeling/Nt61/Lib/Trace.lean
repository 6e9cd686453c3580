/-
Trace — what a run of answering operations leaves behind.

`trace` keeps every operation with its answer, oldest first; `final` is the state after the last
one. `Since p stop h` says that an entry with `p` stands in `h` and none with `stop` comes after it:
one more entry decides it again from what it was (`since_append`).
-/
import Mathlib.Data.List.Induction

namespace Nt61.Lib

open List

section

variable {S Op Answer : Type} (step : Op → S → Answer × S)

def final (s : S) (ops : List Op) : S := ops.foldl (fun s op => (step op s).2) s

/-- The operations with their answers, oldest first. -/
def trace : S → List Op → List (Op × Answer)
  | _, [] => []
  | s, op :: ops => (op, (step op s).1) :: trace (step op s).2 ops

lemma final_append (s : S) (ops more : List Op) :
    final step s (ops ++ more) = final step (final step s ops) more :=
  foldl_append

lemma trace_append (s : S) (ops more : List Op) :
    trace step s (ops ++ more) = trace step s ops ++ trace step (final step s ops) more := by
  induction ops generalizing s with
  | nil => rfl
  | cons op ops ih =>
    show (op, (step op s).1) :: trace step (step op s).2 (ops ++ more) = _
    rw [ih]
    rfl

lemma length_trace (s : S) (ops : List Op) : (trace step s ops).length = ops.length := by
  induction ops generalizing s with
  | nil => rfl
  | cons op ops ih => exact congrArg (· + 1) (ih _)

lemma trace_induction {I : List (Op × Answer) → S → Prop} {s : S} (hnl : I [] s)
    (hs : ∀ h s op, I h s → I (h ++ [(op, (step op s).1)]) (step op s).2) (ops : List Op) :
    I (trace step s ops) (final step s ops) := by
  induction ops using reverseRecOn with
  | nil => exact hnl
  | append_singleton ops op ih =>
    rw [trace_append, final_append]
    exact hs _ _ _ ih

lemma trace_entry {s : S} {ops : List Op} {j : Nat} {x : Op × Answer}
    (hx : (trace step s ops)[j]? = some x) :
    ∃ before after, ops = before ++ x.1 :: after ∧ before.length = j ∧
      x.2 = (step x.1 (final step s before)).1 ∧
      (trace step s ops).take j = trace step s before := by
  have hj : j < ops.length := by
    have := (List.getElem?_eq_some_iff.mp hx).1
    rwa [length_trace] at this
  have hsp : ops = ops.take j ++ ops[j] :: ops.drop (j + 1) := by
    rw [getElem_cons_drop, take_append_drop]
  have hl : (ops.take j).length = j := length_take_of_le (Nat.le_of_lt hj)
  have htr : trace step s ops = trace step s (ops.take j) ++ trace step (final step s (ops.take j))
          (ops[j] :: ops.drop (j + 1)) := by
    rw [← trace_append, ← hsp]
  have hl' : (trace step s (ops.take j)).length = j := by rw [length_trace, hl]
  have hxe : (ops[j], (step ops[j] (final step s (ops.take j))).1) = x := by
    rw [htr, getElem?_append_right (by omega), hl', Nat.sub_self] at hx
    exact Option.some.inj hx
  subst hxe
  refine ⟨ops.take j, ops.drop (j + 1), hsp, hl, rfl, ?_⟩
  rw [htr, take_append_of_le_length (by omega), take_of_length_le (by omega)]

end

section

variable {Entry : Type}

/-- An entry with `p` stands in the list, and none with `stop` comes after it. -/
def Since (p stop : Entry → Prop) (h : List Entry) : Prop :=
  ∃ (i : Nat) (x : Entry), h[i]? = some x ∧ p x ∧
    ∀ (k : Nat) (y : Entry), i < k → h[k]? = some y → ¬ stop y

lemma since_append {p stop : Entry → Prop} {h : List Entry} {x : Entry} :
    Since p stop (h ++ [x]) ↔ p x ∨ (Since p stop h ∧ ¬ stop x) := by
  have hla : (h ++ [x])[h.length]? = some x := getElem?_concat_length
  have hold : ∀ {k : Nat}, k < h.length → (h ++ [x])[k]? = h[k]? :=
    fun hk => getElem?_append_left hk
  have hbd : ∀ {k : Nat} {y : Entry}, (h ++ [x])[k]? = some y → k < h.length ∨ k = h.length := by
    intro k y hy
    have := (List.getElem?_eq_some_iff.mp hy).1
    rw [List.length_append, List.length_singleton] at this
    omega
  constructor
  · rintro ⟨i, y, hy, hp, hso⟩
    rcases hbd hy with hi | rfl
    · rw [hold hi] at hy
      refine .inr ⟨⟨i, y, hy, hp, fun k z hk hz => ?_⟩, hso _ _ hi hla⟩
      have hk' := (List.getElem?_eq_some_iff.mp hz).1
      exact hso k z hk ((hold hk').trans hz)
    rw [hla] at hy
    cases hy
    exact .inl hp
  rintro (hp | ⟨⟨i, y, hy, hp, hso⟩, hx⟩)
  · refine ⟨h.length, x, hla, hp, fun k y hk hy => ?_⟩
    rcases hbd hy with hk' | hk' <;> omega
  have hi := (List.getElem?_eq_some_iff.mp hy).1
  refine ⟨i, y, (hold hi).trans hy, hp, fun k z hk hz => ?_⟩
  rcases hbd hz with hk' | rfl
  · exact hso k z hk ((hold hk').symm.trans hz)
  rw [hla] at hz
  cases hz
  exact hx

end

end Nt61.Lib
