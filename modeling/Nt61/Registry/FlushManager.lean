/-
FlushManager — calls of `FlushManager` in a row, `registry/flush.rs`.

A flush that fails leaves its hive in the state `Error`. `is_dirty` is about `Dirty` alone: the next
flush passes the hive over and reports success.
-/
import Nt61.Registry.Flush
import Nt61.Registry.Hive

namespace Nt61.Registry

open List

/-! ## The code -/

inductive FlushStrategy where
  | immediate | lazy | transactional | writeThrough
  deriving DecidableEq

structure FlushFlags where
  recursive : Bool
  persistent : Bool

def FlushFlags.default : FlushFlags := ⟨false, true⟩

/-- A hive's atomics, and whether it has modifications that were never exported. -/
structure TrackedHive where
  sync : HiveSyncState
  unexported : Bool

structure FlushManager where
  hiveStates : List TrackedHive
  strategy : FlushStrategy
  lazyIntervalUs : Nat

def HiveSyncState.perform (program : List FlushAction) (hive : HiveSyncState) : HiveSyncState :=
  program.foldl (fun hive a => (a.act hive).1) hive

/-- `written` says of which hives there is an export that is written in full. -/
def performFlush (written : Nat → Bool) (hiveId : Nat) (flags : FlushFlags) : Bool :=
  !flags.persistent || written hiveId && hiveId < 6

namespace FlushManager

def new (strategy : FlushStrategy) : FlushManager := ⟨replicate 8 ⟨.new, false⟩, strategy, 5000000⟩

variable (m : FlushManager) (written : Nat → Bool) (hiveId : Nat) (timestamp : UInt64)

def set (hive : TrackedHive) : FlushManager := { m with hiveStates := m.hiveStates.set hiveId hive }

def recordModification : FlushManager :=
  match m.hiveStates[hiveId]? with
  | none => m
  | some hive => m.set hiveId ⟨hive.sync.perform (Registry.recordModification timestamp), true⟩

def shouldFlushLazy (hive : HiveSyncState) : Bool :=
  hive.isDirty && m.lazyIntervalUs ≤ timestamp.toNat - hive.lastModified.toNat

/-- `flush_hive` on a hive that exists. -/
def flushState (flags : FlushFlags) (hive : TrackedHive) : Except HiveError Unit × TrackedHive :=
  if !hive.sync.isDirty && !flags.recursive then (.ok (), hive)
  else if m.strategy = .lazy && !flags.recursive && !m.shouldFlushLazy timestamp hive.sync then
    (.ok (), hive)
  else if hive.sync.flushInProgress then (.error .invalidPointer, hive)
  else if performFlush written hiveId flags then
    (.ok (), ⟨hive.sync.perform (Registry.flushHive timestamp),
      hive.unexported && !flags.persistent⟩)
  else (.error .outOfBounds,
    { hive with sync := hive.sync.perform (beginFlush ++ completeFlush false) })

def flushHive (flags : FlushFlags) : Except HiveError Unit × FlushManager :=
  match m.hiveStates[hiveId]? with
  | none => (.error .outOfBounds, m)
  | some hive =>
    let (result, hive) := m.flushState written hiveId timestamp flags hive
    (result, m.set hiveId hive)

/-- The loop of `flush_all` from a hive on. -/
def flushFrom : Nat → List TrackedHive → Except HiveError Unit × List TrackedHive
  | _, [] => (.ok (), [])
  | hiveId, hive :: hives =>
    match if hive.sync.isDirty then m.flushState written hiveId timestamp .default hive
      else (.ok (), hive) with
    | (.error e, hive) => (.error e, hive :: hives)
    | (.ok (), hive) =>
      let (result, hives) := flushFrom (hiveId + 1) hives
      (result, hive :: hives)

def flushAll : Except HiveError Unit × FlushManager :=
  let (result, hiveStates) := m.flushFrom written timestamp 0 m.hiveStates
  (result, { m with hiveStates })

end FlushManager

/-! ## Runs -/

inductive FlushCall where
  | recordModification (hiveId : Nat) (timestamp : UInt64)
  | flushHive (written : Nat → Bool) (hiveId : Nat) (timestamp : UInt64) (flags : FlushFlags)
  | flushAll (written : Nat → Bool) (timestamp : UInt64)

namespace FlushCall

def run (m : FlushManager) : FlushCall → Except HiveError Unit × FlushManager
  | .recordModification hiveId timestamp => (.ok (), m.recordModification hiveId timestamp)
  | .flushHive written hiveId timestamp flags => m.flushHive written hiveId timestamp flags
  | .flushAll written timestamp => m.flushAll written timestamp

def flags : FlushCall → FlushFlags
  | .flushHive _ _ _ flags => flags
  | _ => .default

def asked (m : FlushManager) : FlushCall → List TrackedHive
  | .recordModification _ _ => []
  | .flushHive _ hiveId _ _ => m.hiveStates[hiveId]?.toList
  | .flushAll _ _ => m.hiveStates

end FlushCall

def FlushManager.after (m : FlushManager) (calls : List FlushCall) : FlushManager :=
  calls.foldl (fun m call => (call.run m).2) m

/-- What was never exported is dirty, or its flush has failed. -/
def TrackedHive.Kept (hive : TrackedHive) : Prop :=
  hive.unexported → hive.sync.state = 1 ∨ hive.sync.state = 3

structure FlushManager.Inv (m : FlushManager) : Prop where
  eager : m.strategy ≠ .lazy
  kept : ∀ hive ∈ m.hiveStates, hive.Kept

section

variable {m : FlushManager} {written : Nat → Bool} {hiveId : Nat} {flags : FlushFlags}
  {timestamp : UInt64} {result : Except HiveError Unit} {hive hive' : TrackedHive}
  {hives hives' : List TrackedHive} {call : FlushCall} {calls : List FlushCall}

lemma FlushManager.Inv.set (h : m.Inv) (hkp : hive.Kept) : (m.set hiveId hive).Inv := by
  refine ⟨h.eager, fun other hm => ?_⟩
  obtain hold | rfl := mem_or_eq_of_mem_set hm
  · exact h.kept other hold
  · exact hkp

lemma flushState_spec (heg : m.strategy ≠ .lazy) (hps : flags.persistent) (hkp : hive.Kept)
    (hfl : m.flushState written hiveId timestamp flags hive = (result, hive')) :
    hive'.Kept ∧ (result = .ok () → (flags.recursive = false → hive.sync.state ≠ 3) →
      hive'.unexported = false) := by
  unfold FlushManager.flushState at hfl
  split_ifs at hfl with hcl hlz hbs hsc <;> cases hfl
  · refine ⟨hkp, fun _ hst => ?_⟩
    rw [Bool.and_eq_true, Bool.not_eq_true', Bool.not_eq_true', ← Bool.not_eq_true,
      HiveSyncState.isDirty_iff] at hcl
    exact Bool.eq_false_iff.mpr fun hun => (hkp hun).elim hcl.1 (hst hcl.2)
  · simp [heg] at hlz
  · exact ⟨hkp, nofun⟩
  · simp [TrackedHive.Kept, hps]
  · exact ⟨fun _ => .inr rfl, nofun⟩

lemma flushState_of_clean (hcl : hive.sync.isDirty ≠ true) :
    m.flushState written hiveId timestamp .default hive = (.ok (), hive) := by
  simp [FlushManager.flushState, hcl, FlushFlags.default]

lemma flushFrom_spec (heg : m.strategy ≠ .lazy) (hkp : ∀ hive ∈ hives, hive.Kept)
    (hfl : m.flushFrom written timestamp hiveId hives = (result, hives')) :
    (∀ hive ∈ hives', hive.Kept) ∧ (result = .ok () → (∀ hive ∈ hives, hive.sync.state ≠ 3) →
      ∀ hive ∈ hives', hive.unexported = false) := by
  induction hives generalizing hiveId hives' with
  | nil =>
    cases hfl
    exact ⟨hkp, fun _ _ => nofun⟩
  | cons hive hives ih =>
    obtain ⟨hhd, htl⟩ := forall_mem_cons.mp hkp
    rw [FlushManager.flushFrom,
      ite_eq_left_iff.mpr fun hcl => (flushState_of_clean hcl).symm] at hfl
    split at hfl <;> cases hfl
    · next hfs => exact ⟨forall_mem_cons.mpr ⟨(flushState_spec heg rfl hhd hfs).1, htl⟩, nofun⟩
    next hfs =>
    obtain ⟨hkp', hep⟩ := flushState_spec heg rfl hhd hfs
    obtain ⟨ihkept, ihok⟩ := ih htl rfl
    refine ⟨forall_mem_cons.mpr ⟨hkp', ihkept⟩, fun hok hst => ?_⟩
    obtain ⟨hst, hr⟩ := forall_mem_cons.mp hst
    exact forall_mem_cons.mpr ⟨hep rfl fun _ => hst, ihok hok hr⟩

lemma run_spec (h : m.Inv) (hps : call.flags.persistent) :
    (call.run m).2.Inv ∧ ((call.run m).1 = .ok () →
      (call.flags.recursive = false → ∀ hive ∈ call.asked m, hive.sync.state ≠ 3) →
      ∀ hive ∈ call.asked (call.run m).2, hive.unexported = false) := by
  cases call with
  | recordModification hiveId timestamp =>
    refine ⟨?_, fun _ _ => nofun⟩
    unfold FlushCall.run FlushManager.recordModification
    dsimp only
    split
    · exact h
    · exact h.set fun _ => .inl rfl
  | flushHive written hiveId timestamp flags =>
    unfold FlushCall.run FlushManager.flushHive FlushCall.asked
    dsimp only
    split
    · exact ⟨h, nofun⟩
    next hive hso =>
    have hkp := h.kept hive (mem_of_getElem? hso)
    obtain ⟨hkp', hep⟩ := flushState_spec h.eager hps hkp rfl
    refine ⟨h.set hkp', fun hok hst hive' hm => ?_⟩
    rw [FlushManager.set, Option.mem_toList, getElem?_set_self', hso] at hm
    cases hm
    exact hep hok fun hfl => hst hfl hive (by simp [hso])
  | flushAll written timestamp =>
    obtain ⟨hkp, hep⟩ := flushFrom_spec h.eager h.kept rfl
    exact ⟨⟨h.eager, hkp⟩, fun hok hst => hep hok (hst rfl)⟩

lemma after_inv (h : m.Inv) (hps : ∀ call ∈ calls, call.flags.persistent) :
    (m.after calls).Inv := by
  induction calls generalizing m with
  | nil => exact h
  | cons call calls ih =>
    obtain ⟨hca, hcl⟩ := forall_mem_cons.mp hps
    exact ih (run_spec h hca).1 hcl

/-- After a flush that succeeds, no hive it was asked for has changes left to export. -/
theorem exported_of_ok {strategy : FlushStrategy} (hstrategy : strategy ≠ .lazy)
    (hpersistent : ∀ c ∈ call :: calls, c.flags.persistent)
    (hm : (FlushManager.new strategy).after calls = m)
    (hstate : call.flags.recursive = false → ∀ hive ∈ call.asked m, hive.sync.state ≠ 3)
    (hok : (call.run m).1 = .ok ()) :
    ∀ hive ∈ call.asked (call.run m).2, hive.unexported = false := by
  obtain ⟨hca, hcl⟩ := forall_mem_cons.mp hpersistent
  have hw : (FlushManager.new strategy).Inv :=
    ⟨hstrategy, by simp [FlushManager.new, TrackedHive.Kept]⟩
  exact (run_spec (hm ▸ after_inv hw hcl) hca).2 hok hstate

def failedFlush : List FlushCall :=
  [.recordModification 0 1, .flushHive (fun _ => false) 0 2 .default]

theorem failedFlush_recursive : let retry := FlushCall.flushHive (fun _ => true) 0 3 ⟨true, true⟩
    ∀ hive ∈ retry.asked (retry.run ((FlushManager.new .immediate).after failedFlush)).2,
      hive.unexported = false :=
  @exported_of_ok _ _ failedFlush .immediate nofun
    (by simp [failedFlush, FlushCall.flags, FlushFlags.default]) rfl nofun rfl

/-- The next flush reports success and exports nothing; so does a flush that is not persistent. -/
theorem failedFlush_forgotten : let m := (FlushManager.new .immediate).after failedFlush
    let again := m.flushHive (fun _ => true) 0 3 .default
    let all := m.flushAll (fun _ => true) 3
    let modified := (FlushManager.new .immediate).recordModification 0 1
    let unwritten := modified.flushHive (fun _ => true) 0 2 ⟨false, false⟩
    (again.1.isOk ∧ again.2.hiveStates[0]?.any (·.unexported))
      ∧ (all.1.isOk ∧ all.2.hiveStates[0]?.any (·.unexported))
      ∧ unwritten.1.isOk ∧ unwritten.2.hiveStates[0]?.any (·.unexported) := by
  decide

end

end Nt61.Registry
