/-
Locking — `fs/locking.rs`: byte-range locks, and the check before a read or a write.

`is_locked` looks only at the locks that hold the whole range: a write over the end of a lock is let
through.
-/
import Mathlib.Algebra.Order.Ring.Nat

namespace Nt61.Locking

/-! ## The code -/

def STATUS_UNSUCCESSFUL : Nat := 0xC0000001

inductive LockType where
  | shared
  | exclusive
  deriving DecidableEq, Repr

structure ByteRangeLock where
  fileId : Nat
  processId : Nat
  offset : Nat
  length : Nat
  lockType : LockType
  mandatory : Bool
  key : Nat
  deriving DecidableEq, Repr

def saturatingAdd (a b : Nat) : Nat := min (a + b) (2 ^ 64 - 1)

namespace ByteRangeLock

def overlaps (self other : ByteRangeLock) : Bool :=
  !(self.offset ≥ saturatingAdd other.offset other.length
    || other.offset ≥ saturatingAdd self.offset self.length)

def conflictsWith (self other : ByteRangeLock) : Bool :=
  if self.processId = other.processId then false
  else if !self.overlaps other then false
  else if self.lockType = .shared ∧ other.lockType = .shared then false
  else true

def covers (self : ByteRangeLock) (offset length : Nat) : Bool :=
  offset ≥ self.offset && saturatingAdd offset length ≤ saturatingAdd self.offset self.length

/-- The lock stops `is_locked`'s loop. -/
def blocks (fileId processId offset length : Nat) (forWrite : Bool) (lock : ByteRangeLock) : Bool :=
  if lock.fileId ≠ fileId then false
  else if lock.processId = processId then false
  else if !lock.covers offset length then false
  else if lock.lockType = .exclusive then true
  else forWrite && lock.lockType = .shared

end ByteRangeLock

/-- The locks that are held, and `NEXT_KEY`. -/
structure LockManager where
  locks : List ByteRangeLock
  nextKey : Nat

namespace LockManager

def new : LockManager := ⟨[], 1⟩

def acquireLock (m : LockManager) (fileId processId offset length : Nat) (lockType : LockType)
    (mandatory : Bool) : Except Nat Nat × LockManager :=
  let newLock := ⟨fileId, processId, offset, length, lockType, mandatory, m.nextKey⟩
  let nextKey := (m.nextKey + 1) % 2 ^ 64
  if m.locks.any fun existing => existing.fileId = fileId && existing.conflictsWith newLock then
    (.error STATUS_UNSUCCESSFUL, { m with nextKey })
  else (.ok m.nextKey, ⟨m.locks ++ [newLock], nextKey⟩)

def isLocked (m : LockManager) (fileId processId offset length : Nat) (forWrite : Bool) : Bool :=
  m.locks.any (·.blocks fileId processId offset length forWrite)

end LockManager

/-! ## The two checks -/

open ByteRangeLock LockManager

def LockType.of (forWrite : Bool) : LockType := if forWrite then .exclusive else .shared

section

variable {fileId processId offset length : Nat} {forWrite : Bool}

/-- The lock is of another process and can stop the access. -/
def Blocking (fileId processId : Nat) (forWrite : Bool) (lock : ByteRangeLock) : Prop :=
  lock.fileId = fileId ∧ lock.processId ≠ processId ∧ (lock.lockType = .exclusive ∨ forWrite)

lemma blocks_iff (lock : ByteRangeLock) : lock.blocks fileId processId offset length forWrite
    ↔ Blocking fileId processId forWrite lock ∧ lock.covers offset length := by
  unfold blocks Blocking
  cases lock.lockType <;> grind

lemma conflicts_iff (lock new : ByteRangeLock) (hty : new.lockType = .of forWrite) :
    lock.fileId = new.fileId ∧ lock.conflictsWith new
      ↔ Blocking new.fileId new.processId forWrite lock ∧ lock.overlaps new := by
  unfold conflictsWith Blocking
  cases hlo : lock.lockType <;> cases forWrite <;> grind [LockType.of]

lemma overlaps_of_covers {lock new : ByteRangeLock} (hl : 1 ≤ new.length)
    (hof : new.offset < 2 ^ 64 - 1) (h : lock.covers new.offset new.length) :
    lock.overlaps new := by
  simp only [covers, overlaps, Bool.and_eq_true, Bool.not_or, Bool.not_eq_true',
    decide_eq_true_eq, decide_eq_false_iff_not] at h ⊢
  unfold saturatingAdd at h ⊢
  omega

/-- At the last offset the range is empty. -/
lemma not_overlaps_last {lock new : ByteRangeLock} (hof : ¬new.offset < 2 ^ 64 - 1) :
    ¬lock.overlaps new := by
  simp only [overlaps, Bool.not_or, Bool.and_eq_true, Bool.not_eq_true', decide_eq_false_iff_not]
  unfold saturatingAdd
  omega

/-- **The two checks agree** on an access exactly if, when a blocking lock overlaps it, one covers
it; at the last offset, exactly if no blocking lock covers it. -/
theorem isLocked_agrees_iff (m : LockManager) (fileId processId offset length : Nat)
    (forWrite mandatory : Bool) (hlength : 1 ≤ length) :
    (m.isLocked fileId processId offset length forWrite = false
        ↔ (m.acquireLock fileId processId offset length (.of forWrite) mandatory).1.isOk)
      ↔ if offset < 2 ^ 64 - 1 then
          ∀ lock ∈ m.locks, Blocking fileId processId forWrite lock →
            lock.overlaps ⟨fileId, processId, offset, length, .of forWrite, mandatory, m.nextKey⟩ →
            ∃ lock ∈ m.locks, Blocking fileId processId forWrite lock ∧ lock.covers offset length
        else ∀ lock ∈ m.locks, Blocking fileId processId forWrite lock →
          ¬lock.covers offset length := by
  generalize hw : ByteRangeLock.mk fileId processId offset length (.of forWrite) mandatory
    m.nextKey = new
  have hlc : m.isLocked fileId processId offset length forWrite = false
      ↔ ¬∃ lock ∈ m.locks, Blocking fileId processId forWrite lock ∧ lock.covers offset length := by
    simp only [isLocked, ← Bool.not_eq_true, List.any_eq_true, blocks_iff]
  have hgr : (m.acquireLock fileId processId offset length (.of forWrite) mandatory).1.isOk
      ↔ ¬∃ lock ∈ m.locks, Blocking fileId processId forWrite lock ∧ lock.overlaps new := by
    have hcn (lock : ByteRangeLock) : lock.fileId = new.fileId ∧ lock.conflictsWith new
        ↔ Blocking new.fileId new.processId forWrite lock ∧ lock.overlaps new :=
      conflicts_iff lock new (by rw [← hw])
    subst hw
    simp only [← hcn]
    unfold acquireLock
    dsimp only
    split
    · next han => exact iff_of_false nofun (not_not.mpr (by simpa using han))
    · next han => exact iff_of_true rfl (by simpa using han)
  rw [hlc, hgr, not_iff_not]
  split
  · next hof =>
    have hsb : (∃ lock ∈ m.locks, Blocking fileId processId forWrite lock
        ∧ lock.covers offset length) →
        ∃ lock ∈ m.locks, Blocking fileId processId forWrite lock ∧ lock.overlaps new := by
      rintro ⟨lock, hm, hbl, hcv⟩
      subst hw
      exact ⟨lock, hm, hbl, overlaps_of_covers hlength hof hcv⟩
    constructor
    · exact fun h lock hm hbl hov => h.mpr ⟨lock, hm, hbl, hov⟩
    · exact fun h => ⟨hsb, fun ⟨lock, hm, hbl, hov⟩ => h lock hm hbl hov⟩
  · next hof =>
    have hn : ¬∃ lock ∈ m.locks, Blocking fileId processId forWrite lock ∧ lock.overlaps new := by
      subst hw
      exact fun ⟨_, _, _, hov⟩ => not_overlaps_last hof hov
    rw [iff_false_right hn]
    exact ⟨fun h lock hm hbl hcv => h ⟨lock, hm, hbl, hcv⟩,
      fun h ⟨lock, hm, hbl, hcv⟩ => h lock hm hbl hcv⟩

/-- A write over the end of one shared lock and inside another. -/
theorem isLocked_agrees_inside : let m : LockManager :=
      ⟨[⟨1, 1, 0, 10, .shared, false, 1⟩, ⟨1, 3, 0, 20, .shared, false, 2⟩], 3⟩
    m.isLocked 1 2 5 10 true = false ↔ (m.acquireLock 1 2 5 10 (.of true) false).1.isOk :=
  (isLocked_agrees_iff _ 1 2 5 10 true false (by decide)).mpr (by unfold Blocking; decide)

/-- A write over the end of another process's lock passes the check. -/
theorem isLocked_misses_overlap : let m := (LockManager.new.acquireLock 1 1 0 10 .exclusive false).2
    m.isLocked 1 2 5 10 true = false
      ∧ (m.acquireLock 1 2 5 10 .exclusive false).1 = .error STATUS_UNSUCCESSFUL := by
  decide

end
end Nt61.Locking
