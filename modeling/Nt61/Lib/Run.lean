/-
Run — runs of a system whose operations may get stuck.

`step op s` is the state after the operation, or `none` if it never ends. A run may carry a
condition on every operation, in the state it starts from.
-/

import Mathlib.Logic.Basic

namespace Nt61.Lib

/-- A run of the operations, each of them `allowed` in the state it starts from. -/
inductive Run {S Op : Type} (step : Op → S → Option S) (allowed : S → Op → Prop) :
    S → List Op → S → Prop where
  | nil (s : S) : Run step allowed s [] s
  | cons {s s₁ s' : S} {op : Op} {ops : List Op} (hallowed : allowed s op)
      (hstep : step op s = some s₁) (hrest : Run step allowed s₁ ops s') :
      Run step allowed s (op :: ops) s'

variable {S Op : Type} {step : Op → S → Option S}

lemma Run.keeps {allowed : S → Op → Prop} {I : S → Prop}
    (hop : ∀ {s op s'}, I s → allowed s op → step op s = some s' → I s')
    {s s' : S} {ops : List Op} (hr : Run step allowed s ops s') (hI : I s) : I s' := by
  induction hr with
  | nil s => exact hI
  | cons hallowed hstep _ ih => exact ih (hop hI hallowed hstep)

section

variable {S Op : Type} {step : Op → S → Option S} {allowed : S → Op → Prop} {s s₁ s' : S}

lemma Run.step_at {before after : List Op} {op : Op}
    (hr : Run step allowed s (before ++ op :: after) s') (hbf : Run step allowed s before s₁) :
    ∃ s2, step op s₁ = some s2 := by
  induction hbf with
  | nil s =>
    cases hr with
    | cons _ hstep _ => exact ⟨_, hstep⟩
  | cons _ hstep _ ih =>
    cases hr with
    | cons _ hs' hrest =>
      rw [hstep] at hs'
      cases hs'
      exact ih hrest

open Run

lemma Run.and_iff {extra : S → Op → Prop} {ops : List Op} :
    Run step (fun s op => allowed s op ∧ extra s op) s ops s' ↔
      Run step allowed s ops s' ∧ ∀ before op after s₁, ops = before ++ op :: after →
        Run step allowed s before s₁ → extra s₁ op := by
  constructor
  · intro hr
    induction hr with
    | nil s =>
      refine ⟨nil s, fun before op after s₁ heq => ?_⟩
      cases before <;> cases heq
    | cons hallowed hstep _ ih =>
      refine ⟨cons hallowed.1 hstep ih.1, fun before op after s2 heq hbf => ?_⟩
      cases hbf with
      | nil =>
        cases heq
        exact hallowed.2
      | cons _ hs' hrest =>
        cases heq
        rw [hstep] at hs'
        cases hs'
        exact ih.2 _ op after s2 rfl hrest
  rintro ⟨hr, hxt⟩
  induction hr with
  | nil s => exact nil s
  | cons hallowed hstep _ ih =>
    refine cons ⟨hallowed, hxt [] _ _ _ rfl (nil _)⟩ hstep (ih ?_)
    rintro before op after s2 rfl hbf
    exact hxt (_ :: before) op after s2 rfl (cons hallowed hstep hbf)

end

def execute {S Op : Type} (step : Op → S → Option S) (ops : List Op) (s : S) : Option S :=
  ops.foldlM (fun s op => step op s) s

lemma Run.of_execute {ops : List Op} {s s' : S}
    (h : execute step ops s = some s') : Run step (fun _ _ => True) s ops s' := by
  induction ops generalizing s with
  | nil =>
    cases h
    exact nil _
  | cons op ops ih =>
    unfold execute at h ih
    obtain ⟨_, hstep, hrest⟩ := Option.bind_eq_some_iff.mp h
    exact cons trivial hstep (ih hrest)

def executeAllowed {S Op : Type} (step : Op → S → Option S) (allowed : S → Op → Prop)
    [∀ s op, Decidable (allowed s op)] (ops : List Op) (s : S) : Option S :=
  ops.foldlM (fun s op => if allowed s op then step op s else none) s

lemma Run.of_executeAllowed {allowed : S → Op → Prop}
    [∀ s op, Decidable (allowed s op)] {ops : List Op} {s s' : S}
    (h : executeAllowed step allowed ops s = some s') : Run step allowed s ops s' := by
  induction ops generalizing s with
  | nil =>
    cases h
    exact nil _
  | cons op ops ih =>
    unfold executeAllowed at h ih
    rw [List.foldlM_cons] at h
    obtain ⟨_, hstep, hrest⟩ := Option.bind_eq_some_iff.mp h
    by_cases hallowed : allowed s op
    · rw [if_pos hallowed] at hstep
      exact cons hallowed hstep (ih hrest)
    · rw [if_neg hallowed] at hstep
      cases hstep

lemma foldlM_simulates {S T A : Type} {f : S → A → Option S} {g : T → A → T} {R : S → T → Prop}
    (hro : ∀ {s t}, R s t → ∀ a, ∃ s', f s a = some s' ∧ R s' (g t a))
    {s : S} {t : T} (hR : R s t) (xs : List A) :
    ∃ s', xs.foldlM f s = some s' ∧ R s' (xs.foldl g t) := by
  induction xs generalizing s t with
  | nil => exact ⟨s, rfl, hR⟩
  | cons a xs ih =>
    obtain ⟨_, hs1, hR1⟩ := hro hR a
    obtain ⟨s', hs', hR'⟩ := ih hR1
    refine ⟨s', ?_, hR'⟩
    rw [List.foldlM_cons, hs1]
    exact hs'

end Nt61.Lib
