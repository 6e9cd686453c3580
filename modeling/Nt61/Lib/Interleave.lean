/-
Interleave — threads that run straight-line programs of atomic operations on one shared state.

A schedule names the thread that goes next. The shared state is a function of the log alone
(`shared_run`), and what a thread has in the log is a front part of its program (`history_run`).
-/
import Mathlib.Data.List.Induction

namespace Nt61.Lib

open List

structure Threads (S A : Type) where
  shared : S
  /-- What each thread has still to do. -/
  rest : Nat → List A
  /-- Who has executed what, oldest first. -/
  log : List (Nat × A)

namespace Threads

variable {S A : Type}

def start (s : S) (program : Nat → List A) : Threads S A := ⟨s, program, []⟩

/-- The next operation of thread `i`. An operation that returns `false` ends its thread. -/
def step (act : A → S → S × Bool) (t : Threads S A) (i : Nat) : Threads S A :=
  match t.rest i with
  | [] => t
  | a :: rest =>
    { shared := (act a t.shared).1
      rest := Function.update t.rest i (if (act a t.shared).2 then rest else [])
      log := t.log ++ [(i, a)] }

def run (act : A → S → S × Bool) (t : Threads S A) (schedule : List Nat) : Threads S A :=
  schedule.foldl (step act) t

def history (log : List (Nat × A)) (i : Nat) : List A :=
  (log.filter fun entry => entry.1 = i).map Prod.snd

variable {act : A → S → S × Bool} {s : S} {program : Nat → List A}

/-! ## The shared state -/

def replay (act : A → S → S × Bool) (s : S) (log : List (Nat × A)) : S :=
  log.foldl (fun s entry => (act entry.2 s).1) s

lemma replay_append (log log' : List (Nat × A)) :
    replay act s (log ++ log') = replay act (replay act s log) log' := by
  unfold replay
  rw [foldl_append]

lemma replay_cons (entry : Nat × A) (log : List (Nat × A)) :
    replay act s (entry :: log) = replay act (act entry.2 s).1 log := rfl

lemma shared_step {t : Threads S A} (h : t.shared = replay act s t.log) (i : Nat) :
    (step act t i).shared = replay act s (step act t i).log := by
  unfold step
  split
  · exact h
  · rw [replay_append, ← h]
    rfl

variable (schedule : List Nat)

lemma shared_run : (run act (start s program) schedule).shared
      = replay act s (run act (start s program) schedule).log := by
  unfold run
  induction schedule using List.reverseRecOn with
  | nil => rfl
  | append_singleton schedule i ih =>
    rw [foldl_append]
    exact shared_step ih i

/-! ## Program order -/

lemma history_append (log log' : List (Nat × A)) (i : Nat) :
    history (log ++ log') i = history log i ++ history log' i := by
  unfold history
  rw [filter_append, map_append]

lemma history_step {t : Threads S A}
    (h : ∀ j, history t.log j ++ t.rest j <+: program j) (i j : Nat) :
    history (step act t i).log j ++ (step act t i).rest j <+: program j := by
  unfold step
  split
  · exact h j
  rename_i a rest hr
  show history (t.log ++ [(i, a)]) j
    ++ Function.update t.rest i (if (act a t.shared).2 then rest else []) j <+: program j
  rw [history_append]
  by_cases hj : j = i
  · subst hj
    have hon : history [(j, a)] j = [a] := by simp [history]
    have hft := h j
    rw [hr] at hft
    rw [hon, Function.update_self]
    -- a thread that ends here leaves the rest of its program out
    apply List.IsPrefix.trans _ hft
    rw [append_assoc]
    split
    · exact prefix_rfl
    · exact (prefix_append_right_inj _).mpr ((prefix_append_right_inj [a]).mpr nil_prefix)
  have hn : history [(i, a)] j = [] := by
    have hne : i ≠ j := Ne.symm hj
    simp [history, hne]
  rw [hn, append_nil, Function.update_of_ne hj]
  exact h j

lemma history_rest_run (j : Nat) : history (run act (start s program) schedule).log j
      ++ (run act (start s program) schedule).rest j <+: program j := by
  unfold run
  induction schedule using List.reverseRecOn generalizing j with
  | nil => exact prefix_rfl
  | append_singleton schedule i ih =>
    rw [foldl_append]
    exact history_step ih i j

lemma history_run (j : Nat) : history (run act (start s program) schedule).log j <+: program j :=
  (prefix_append _ _).trans (history_rest_run schedule j)

variable {a : A}

lemma mem_history {log : List (Nat × A)} {i : Nat} : a ∈ history log i ↔ (i, a) ∈ log := by
  unfold history
  rw [mem_map]
  constructor
  · rintro ⟨⟨j, _⟩, hm, rfl⟩
    obtain ⟨hlg, hj⟩ := mem_filter.mp hm
    obtain rfl : j = i := by simpa using hj
    exact hlg
  · intro hm
    exact ⟨(i, a), mem_filter.mpr ⟨hm, by simp⟩, rfl⟩

lemma mem_program_of_mem_log {schedule : List Nat} {i : Nat}
    (h : (i, a) ∈ (run act (start s program) schedule).log) : a ∈ program i :=
  (history_run schedule i).subset (mem_history.mpr h)

lemma prefix_of_mem {part front back : List A} (h : part <+: front ++ a :: back)
    (hm : a ∈ part) (hw : a ∉ front) : ∃ tail, part = front ++ a :: tail ∧ tail <+: back := by
  induction front generalizing part with
  | nil =>
    cases part with
    | nil => cases hm
    | cons b tail =>
      obtain ⟨rfl, htl⟩ := cons_prefix_cons.mp h
      exact ⟨tail, rfl, htl⟩
  | cons b front ih =>
    rw [mem_cons, not_or] at hw
    cases part with
    | nil => cases hm
    | cons c part =>
      obtain ⟨rfl, hr⟩ := cons_prefix_cons.mp h
      have hm' : a ∈ part := (mem_cons.mp hm).resolve_left hw.1
      obtain ⟨tail, rfl, htl⟩ := ih hr hm' hw.2
      exact ⟨tail, rfl, htl⟩

lemma split_log {log : List (Nat × A)} {i : Nat} {before after : List A}
    (h : history log i = before ++ a :: after) :
    ∃ front back, log = front ++ (i, a) :: back ∧ history front i = before
      ∧ history back i = after := by
  obtain ⟨front, back, hsp, hft, hba⟩ := map_eq_append_iff.mp h
  obtain ⟨entry, _, rfl, ha, haf⟩ := map_eq_cons_iff.mp hba
  obtain ⟨l1, _, rfl, hl1, hl2⟩ := filter_eq_append_iff.mp hsp
  obtain ⟨m1, m2, rfl, hsk, hen, hr⟩ := filter_eq_cons_iff.mp hl2
  obtain ⟨j, b⟩ := entry
  obtain rfl : j = i := by simpa using hen
  obtain rfl : b = a := ha
  refine ⟨l1 ++ m1, m2, by rw [append_assoc], ?_, ?_⟩
  · have hn : m1.filter (fun entry => entry.1 = j) = [] := filter_eq_nil_iff.mpr hsk
    unfold history
    rw [filter_append, hn, append_nil, hl1, hft]
  · unfold history
    rw [hr, haf]

end Threads

end Nt61.Lib
