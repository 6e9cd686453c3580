/-
LogFile — recovery from the log, `fs/ntfs/logfile.rs`.

`recover_with_replay` empties the log buffer before the first record is replayed. If the callback
fails at a committed record, a second call finds no record to redo.
-/
import Mathlib.Data.List.Basic

namespace Nt61.NtfsLog

/-! ## The code -/

inductive LogRecordType where
  | initializeFileRecord | deallocateFileRecord | writeEndOfFileRecord
  | createAttribute | deleteAttribute
  | updateResidentValue | updateNonResidentValue | updateMappingPairs | setNewAttributeSizes
  | addIndexEntryRoot | deleteIndexEntryRoot | addIndexEntryAllocation
  | deleteIndexEntryAllocation | setIndexEntryVcnRoot | setIndexEntryVcnAllocation
  | updateFileNameRoot | updateFileNameAllocation
  | setBitsInNonResidentBitmap | clearBitsInNonResidentBitmap
  | commitTransaction | forgetTransaction
  | openNonResidentAttribute | dirtyPageTableDump | attributeNamesDump
  deriving DecidableEq

structure LogRecord where
  lsn : Nat
  prevLsn : Nat
  undoLsn : Nat
  recordType : LogRecordType
  transactionId : Nat
  data : List UInt8
  deriving DecidableEq

inductive TransactionState where
  | active
  | committed
  | aborted
  deriving DecidableEq

structure Transaction where
  id : Nat
  state : TransactionState
  records : List LogRecord

structure LogFile where
  transactions : List Transaction
  logBuffer : List LogRecord

/-- The callback: what its `n`-th call returns for a record that is redone, or undone. -/
abbrev Replay := Nat → LogRecord → Bool → Except String Unit

/-- Replay up to the first failure; with the outcome, the records that were replayed. The callback
has been called `n` times before. -/
def replayAll (replay : Replay) (redo : Bool) :
    Nat → List LogRecord → Except String Unit × List LogRecord
  | _, [] => (.ok (), [])
  | n, record :: records =>
    match replay n record redo with
    | .error e => (.error e, [])
    | .ok () =>
      let rest := replayAll replay redo (n + 1) records
      (rest.1, record :: rest.2)

namespace LogFile

def committedTransactions (log : LogFile) : List Nat :=
  (log.logBuffer.filter (·.recordType = .commitTransaction)).map (·.transactionId)

def committedRecords (log : LogFile) : List LogRecord :=
  (log.logBuffer.filter fun record => record.transactionId ∈ log.committedTransactions).filter
    (·.recordType ≠ .commitTransaction)

end LogFile

def Transaction.settle (committed : List Nat) (t : Transaction) : Transaction :=
  if t.id ∈ committed then { t with state := .committed }
  else if t.state = .active then { t with state := .aborted }
  else t

def Transaction.undoRecords (t : Transaction) : List LogRecord :=
  if t.state ≠ .aborted then []
  else t.records.filter fun record =>
    record.recordType = .updateResidentValue ∨ record.recordType = .updateNonResidentValue

def Transaction.forget (t : Transaction) : Transaction :=
  if t.state = .aborted then { t with records := [] } else t

structure Recovery where
  result : Except String Unit
  log : LogFile
  redone : List LogRecord

def LogFile.recoverWithReplay (replay : Replay) (log : LogFile) : Recovery :=
  let transactions := log.transactions.map (·.settle log.committedTransactions)
  let redo := replayAll replay true 0 log.committedRecords
  match redo.1 with
  | .error e => ⟨.error e, ⟨transactions, []⟩, redo.2⟩
  | .ok () =>
    match (replayAll replay false redo.2.length (transactions.flatMap (·.undoRecords))).1 with
    | .error e => ⟨.error e, ⟨transactions, []⟩, redo.2⟩
    | .ok () => ⟨.ok (), ⟨transactions.map (·.forget), []⟩, redo.2⟩

/-! ## A second call -/

/-- Every committed record that the first call did not replay is redone by the second. -/
def Retried (log : LogFile) (first second : Replay) : Prop :=
  ∀ record ∈ log.committedRecords.drop (log.recoverWithReplay first).redone.length,
    record ∈ ((log.recoverWithReplay first).log.recoverWithReplay second).redone

/-- All records are replayed exactly if every call succeeds. -/
lemma length_le_replayed (replay : Replay) (redo : Bool) (records : List LogRecord) (n : Nat) :
    records.length ≤ (replayAll replay redo n records).2.length
      ↔ ∀ i record, records[i]? = some record → replay (n + i) record redo = .ok () := by
  induction records generalizing n with
  | nil => simp
  | cons record records ih =>
    unfold replayAll
    split
    · next e he =>
      refine iff_of_false (by simp) fun h => ?_
      cases he.symm.trans (h 0 record rfl)
    next hok =>
    simp only [List.length_cons, Nat.add_le_add_iff_right, ih]
    constructor
    · intro h i r hr
      cases i with
      | zero =>
        cases hr
        exact hok
      | succ i => rw [← h i r hr, Nat.add_right_comm, Nat.add_assoc]
    · intro h i r hr
      rw [← h (i + 1) r hr, Nat.add_right_comm, Nat.add_assoc]

lemma recover_eq (log : LogFile) (replay : Replay) :
    (log.recoverWithReplay replay).redone = (replayAll replay true 0 log.committedRecords).2
      ∧ (log.recoverWithReplay replay).log.logBuffer = [] := by
  unfold LogFile.recoverWithReplay
  dsimp only
  split
  · exact ⟨rfl, rfl⟩
  · split <;> exact ⟨rfl, rfl⟩

/-- **Recovery is retried** only if there is nothing to retry: the first call redid all committed
records. A record at which it failed is never redone. -/
theorem retried_iff (log : LogFile) (first second : Replay) : Retried log first second
    ↔ ∀ i record, log.committedRecords[i]? = some record → first i record true = .ok () := by
  have hn : ((log.recoverWithReplay first).log.recoverWithReplay second).redone = [] := by
    rw [(recover_eq _ second).1, LogFile.committedRecords, (recover_eq log first).2]
    rfl
  have ha := length_le_replayed first true log.committedRecords 0
  simp only [Nat.zero_add] at ha
  rw [Retried, hn, ← ha, ← (recover_eq log first).1, ← List.drop_eq_nil_iff]
  simp only [List.not_mem_nil]
  exact List.eq_nil_iff_forall_not_mem.symm

def twoTransactions : LogFile where
  transactions := [⟨0, .committed, [⟨1, 0, 0, .updateResidentValue, 0, []⟩]⟩,
    ⟨1, .active, [⟨2, 0, 0, .updateResidentValue, 1, []⟩]⟩]
  logBuffer := [⟨1, 0, 0, .updateResidentValue, 0, []⟩, ⟨2, 0, 0, .updateResidentValue, 1, []⟩,
    ⟨3, 1, 0, .commitTransaction, 0, []⟩]

/-- The callback fails at the committed record. -/
theorem twoTransactions_not_retried :
    ¬ Retried twoTransactions (fun _ _ _ => .error "") fun _ _ _ => .ok () := by
  unfold Retried
  decide

end Nt61.NtfsLog
