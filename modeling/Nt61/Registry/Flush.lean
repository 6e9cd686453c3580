/-
Flush — `HiveSyncState` of `registry/flush.rs`, one atomic operation at a time.

`complete_flush` stores `Clean` and a zero count without looking at what came in since the export:
what is left after it are the operations that writers make after these two stores
(`flush_dirty_iff`).
-/
import Nt61.Lib.Interleave
import Mathlib.Algebra.Group.Nat.Defs

namespace Nt61.Registry

open Lib Lib.Threads List

/-! ## The atomics -/

inductive FlushState where
  | clean
  | dirty
  | flushing
  | error
  deriving DecidableEq, Repr

def FlushState.code : FlushState → UInt64
  | .clean => 0
  | .dirty => 1
  | .flushing => 2
  | .error => 3

structure HiveSyncState where
  state : UInt64
  lastFlush : UInt64
  lastModified : UInt64
  pendingModifications : UInt64
  flushInProgress : Bool
  deriving DecidableEq, Repr

namespace HiveSyncState

def new : HiveSyncState := ⟨FlushState.clean.code, 0, 0, 0, false⟩

def flushState (hive : HiveSyncState) : FlushState :=
  if hive.state = 0 then .clean
  else if hive.state = 1 then .dirty
  else if hive.state = 2 then .flushing
  else .error

def isDirty (hive : HiveSyncState) : Bool := hive.flushState = .dirty

def pendingCount (hive : HiveSyncState) : UInt64 := hive.pendingModifications

lemma isDirty_iff (hive : HiveSyncState) : hive.isDirty = true ↔ hive.state = 1 := by
  unfold isDirty flushState
  by_cases h0 : hive.state = 0
  · simp [h0]
  by_cases h1 : hive.state = 1
  · simp [h1]
  · by_cases h2 : hive.state = 2 <;> simp [h0, h2]

end HiveSyncState

/-! ## The programs -/

/-- One operation on the atomics; `exportHive` is the moment when the hive is copied. -/
inductive FlushAction where
  | storeState (state : FlushState)
  | addPending
  | clearPending
  | loadPending
  | storeModified (timestamp : UInt64)
  | storeFlush (timestamp : UInt64)
  | acquire
  | release
  | exportHive
  deriving DecidableEq, Repr

namespace FlushAction

/-- Also whether the thread goes on: `begin_flush` returns an error if the flag was set already. -/
def act : FlushAction → HiveSyncState → HiveSyncState × Bool
  | .storeState state, hive => ({ hive with state := state.code }, true)
  | .addPending, hive => ({ hive with pendingModifications := hive.pendingModifications + 1 }, true)
  | .clearPending, hive => ({ hive with pendingModifications := 0 }, true)
  | .loadPending, hive => (hive, true)
  | .storeModified timestamp, hive => ({ hive with lastModified := timestamp }, true)
  | .storeFlush timestamp, hive => ({ hive with lastFlush := timestamp }, true)
  | .acquire, hive => ({ hive with flushInProgress := true }, !hive.flushInProgress)
  | .release, hive => ({ hive with flushInProgress := false }, true)
  | .exportHive, hive => (hive, true)

end FlushAction

open FlushAction

def markDirty : List FlushAction := [.storeState .dirty, .addPending]

/-- `record_modification` on a hive that exists; it reads the count and does nothing with it. -/
def recordModification (timestamp : UInt64) : List FlushAction :=
  markDirty ++ [.storeModified timestamp, .loadPending]

def beginFlush : List FlushAction := [.acquire, .storeState .flushing]

def completeFlush (success : Bool) : List FlushAction :=
  (if success then [.storeState .clean, .clearPending] else [.storeState .error]) ++ [.release]

/-- `flush_hive` past its checks, when the export is written in full. -/
def flushHive (timestamp : UInt64) : List FlushAction :=
  beginFlush ++ [.exportHive] ++ completeFlush true ++ [.storeFlush timestamp]

inductive Write where
  | markDirty
  | recordModification (timestamp : UInt64)
  deriving DecidableEq, Repr

def Write.program : Write → List FlushAction
  | .markDirty => Registry.markDirty
  | .recordModification timestamp => Registry.recordModification timestamp

def flusher : Nat := 0

def programs (writes : Nat → List Write) (timestamp : UInt64) (i : Nat) : List FlushAction :=
  if i = flusher then flushHive timestamp else (writes i).flatMap Write.program

/-- A hive that nobody has used yet, with its writers and its flusher, after a schedule. -/
def runHive (writes : Nat → List Write) (timestamp : UInt64) (schedule : List Nat) :
    Threads HiveSyncState FlushAction :=
  run act (start .new (programs writes timestamp)) schedule

/-! ## What each atomic remembers -/

/-- Operations that leave the state alone or mark the hive dirty. -/
def KeepsDirty (a : FlushAction) : Prop := ∀ state, a = .storeState state → state = .dirty

/-- Operations that leave the count alone or add to it. -/
def KeepsCount (a : FlushAction) : Prop := a ≠ .clearPending

lemma replay_state {hive : HiveSyncState} {log : List (Nat × FlushAction)}
    (hkp : ∀ entry ∈ log, KeepsDirty entry.2) : (replay act hive log).state = 1
      ↔ hive.state = 1 ∨ ∃ i, (i, FlushAction.storeState .dirty) ∈ log := by
  induction log generalizing hive with
  | nil => simp [replay]
  | cons entry log ih =>
    obtain ⟨i, a⟩ := entry
    have ha : KeepsDirty a := hkp (i, a) mem_cons_self
    rw [replay_cons, ih fun e he => hkp e (mem_cons_of_mem _ he)]
    cases a with
    | storeState state =>
      obtain rfl := ha state rfl
      constructor
      · intro _
        exact Or.inr ⟨i, mem_cons_self⟩
      · intro _
        exact Or.inl rfl
    | addPending | clearPending | loadPending | storeModified | storeFlush | acquire | release
    | exportHive => simp [act]

lemma replay_pending {hive : HiveSyncState} {log : List (Nat × FlushAction)}
    (hkp : ∀ entry ∈ log, KeepsCount entry.2) : (replay act hive log).pendingModifications
      = hive.pendingModifications
        + UInt64.ofNat (log.countP fun entry => entry.2 = .addPending) := by
  induction log generalizing hive with
  | nil => simp [replay]
  | cons entry log ih =>
    obtain ⟨i, a⟩ := entry
    have ha : KeepsCount a := hkp (i, a) mem_cons_self
    rw [replay_cons, ih fun e he => hkp e (mem_cons_of_mem _ he), countP_cons]
    cases a with
    | clearPending => exact absurd rfl ha
    | addPending =>
      show hive.pendingModifications + 1 + _ = _
      rw [UInt64.ofNat_add, UInt64.add_assoc, UInt64.add_comm 1]
      rfl
    | storeState | loadPending | storeModified | storeFlush | acquire | release | exportHive => rfl

/-! ## One flush -/

section

variable {writes : Nat → List Write} {timestamp : UInt64} {schedule : List Nat}

lemma writer_keeps {i : Nat} (hi : i ≠ flusher) {a : FlushAction}
    (h : a ∈ programs writes timestamp i) : KeepsDirty a ∧ KeepsCount a := by
  unfold programs at h
  rw [if_neg hi] at h
  obtain ⟨write, -, hm⟩ := mem_flatMap.mp h
  cases write with
  | markDirty =>
    rcases (by simpa [Write.program, markDirty] using hm) with rfl | rfl <;>
      simp [KeepsDirty, KeepsCount]
  | recordModification t =>
    rcases (by simpa [Write.program, recordModification, markDirty] using hm) with
      rfl | rfl | rfl | rfl <;> simp [KeepsDirty, KeepsCount]

lemma keeps_of_history {log part : List (Nat × FlushAction)} (hsb : part ⊆ log)
    (hlg : log = (runHive writes timestamp schedule).log)
    (hfl : ∀ a ∈ history part flusher, KeepsDirty a ∧ KeepsCount a) :
    ∀ entry ∈ part, KeepsDirty entry.2 ∧ KeepsCount entry.2 := by
  rintro ⟨i, a⟩ hm
  by_cases hi : i = flusher
  · subst hi
    exact hfl a (mem_history.mpr hm)
  have hpr : a ∈ programs writes timestamp i := by
    apply mem_program_of_mem_log
    rw [← runHive, ← hlg]
    exact hsb hm
  exact writer_keeps hi hpr

lemma flusher_history
    (hdn : (flusher, FlushAction.release) ∈ (runHive writes timestamp schedule).log) :
    ∃ tail, tail <+: [FlushAction.storeFlush timestamp]
      ∧ history (runHive writes timestamp schedule).log flusher
        = [.acquire, .storeState .flushing, .exportHive]
          ++ .storeState .clean :: .clearPending :: .release :: tail := by
  have hpr : history (runHive writes timestamp schedule).log flusher
      <+: [.acquire, .storeState .flushing, .exportHive, .storeState .clean, .clearPending]
        ++ .release :: [.storeFlush timestamp] := history_run schedule flusher
  obtain ⟨tail, heq, htl⟩ := prefix_of_mem hpr (mem_history.mpr hdn) (by simp)
  exact ⟨tail, htl, heq⟩

/-- After a flush the hive is dirty, with a count above zero, if and only if a writer has stored
`Dirty` after the flusher stored `Clean` and writers have counted modifications after the flusher
cleared the count. -/
theorem flush_dirty_iff (writes : Nat → List Write) (timestamp : UInt64) (schedule : List Nat)
    (hdone : (flusher, FlushAction.release) ∈ (runHive writes timestamp schedule).log) :
    ∃ before mid after, (runHive writes timestamp schedule).log
        = before ++ (flusher, .storeState .clean) :: (mid ++ (flusher, .clearPending) :: after)
      ∧ (flusher, .exportHive) ∈ before ∧ ((runHive writes timestamp schedule).shared.isDirty = true
          ∧ 0 < (runHive writes timestamp schedule).shared.pendingCount
        ↔ (∃ i, (i, .storeState .dirty) ∈ mid ++ after)
          ∧ (after.countP fun entry => entry.2 = .addPending) % 2 ^ 64 ≠ 0) := by
  obtain ⟨_, htl, hhs⟩ := flusher_history hdone
  obtain ⟨before, rest, hlg, hbf, hr⟩ := split_log hhs
  obtain ⟨mid, after, rfl, hmd, haf⟩ := @split_log _ _ rest flusher [] _ hr
  have hsubMid : mid ⊆ (runHive writes timestamp schedule).log := by
    rw [hlg]
    intro entry hen
    simp [hen]
  have hsubAfter : after ⊆ (runHive writes timestamp schedule).log := by
    rw [hlg]
    intro entry hen
    simp [hen]
  -- neither part has a store of the flusher in it
  have hkeepsMid := keeps_of_history hsubMid rfl (by rw [hmd]; simp)
  have hkeepsAfter := keeps_of_history hsubAfter rfl (by
    rw [haf]
    intro a ha
    rcases mem_cons.mp ha with rfl | ha
    · simp [KeepsDirty, KeepsCount]
    · obtain rfl : a = .storeFlush timestamp := by simpa using htl.subset ha
      simp [KeepsDirty, KeepsCount])
  have hsh : (runHive writes timestamp schedule).shared
      = replay act .new (runHive writes timestamp schedule).log := shared_run schedule
  rw [hlg, replay_append, replay_cons, replay_append, replay_cons] at hsh
  refine ⟨before, mid, after, hlg, mem_history.mp (by rw [hbf]; simp), ?_⟩
  rw [hsh, HiveSyncState.isDirty_iff, HiveSyncState.pendingCount,
    replay_state fun entry hen => (hkeepsAfter entry hen).1,
    replay_pending fun entry hen => (hkeepsAfter entry hen).2]
  generalize replay act .new before = hive
  have hst : (act .clearPending (replay act (act (.storeState .clean) hive).1 mid)).1.state = 1
      ↔ ∃ i, (i, FlushAction.storeState .dirty) ∈ mid := by
    show (replay act (act (.storeState .clean) hive).1 mid).state = 1 ↔ _
    rw [replay_state fun entry hen => (hkeepsMid entry hen).1]
    show (0 : UInt64) = 1 ∨ _ ↔ _
    simp
  rw [hst]
  apply and_congr
  · simp only [mem_append, exists_or]
  show 0 < 0 + UInt64.ofNat _ ↔ _
  rw [UInt64.zero_add]
  exact Nat.pos_iff_ne_zero

theorem flush_dirty_iff_lateWriter : (flusher, FlushAction.release)
        ∈ (runHive (fun _ => [.markDirty]) 7 [0, 0, 0, 0, 0, 0, 1, 1]).log
      ∧ (runHive (fun _ => [.markDirty]) 7 [0, 0, 0, 0, 0, 0, 1, 1]).shared.isDirty = true
      ∧ ∃ before mid after, (runHive (fun _ => [.markDirty]) 7 [0, 0, 0, 0, 0, 0, 1, 1]).log
          = before ++ (flusher, .storeState .clean) :: (mid ++ (flusher, .clearPending) :: after)
        ∧ ((∃ i, (i, .storeState .dirty) ∈ mid ++ after)
          ∧ (after.countP fun entry => entry.2 = .addPending) % 2 ^ 64 ≠ 0) := by
  refine ⟨by decide, by decide, ?_⟩
  obtain ⟨before, mid, after, hlg, -, hif⟩ :=
    flush_dirty_iff (fun _ => [.markDirty]) 7 [0, 0, 0, 0, 0, 0, 1, 1] (by decide)
  exact ⟨before, mid, after, hlg, hif.mp (by decide)⟩

/-- A writer that records a modification between the export and the end of the flush: it is neither
in the export nor in what is left to do. -/
theorem flush_loses_update :
    (runHive (fun _ => [.recordModification 5]) 7 [0, 0, 0, 1, 1, 1, 1, 0, 0, 0]).log
        = [(0, .acquire), (0, .storeState .flushing), (0, .exportHive),
          (1, .storeState .dirty), (1, .addPending), (1, .storeModified 5), (1, .loadPending),
          (0, .storeState .clean), (0, .clearPending), (0, .release)]
      ∧ (runHive (fun _ => [.recordModification 5]) 7
          [0, 0, 0, 1, 1, 1, 1, 0, 0, 0]).shared.isDirty = false
      ∧ (runHive (fun _ => [.recordModification 5]) 7
          [0, 0, 0, 1, 1, 1, 1, 0, 0, 0]).shared.pendingCount = 0 := by
  decide

end

end Nt61.Registry
