/-
Transactions — `registry/transactions.rs`.

The manager looks for conflicts at a commit only, in the table of the keys committed before. A
caller reaches a transaction through `get_mut`; besides `add_operation` and `record_read` these are
its own `commit` and `rollback`. Nobody but the manager prepares a transaction.
-/
import Nt61.Lib.Trace
import Nt61.Registry.Hive
import Mathlib.Data.List.AList

namespace Nt61.Registry

open Lib List

/-! ## Transactions -/

inductive TransactionState where
  | active
  | preparing
  | prepared
  | committing
  | committed
  | aborting
  | aborted
  deriving DecidableEq, Repr

inductive IsolationLevel where
  | readUncommitted
  | readCommitted
  | repeatableRead
  | serializable
  deriving DecidableEq, Repr

inductive RegistryOperation where
  | createKey (parentOffset : UInt32) (keyName : String) (keyOffset : UInt32)
  | deleteKey (keyOffset : UInt32) (backupData : List UInt8)
  | setValue (keyOffset : UInt32) (valueName : String) (valueType : UInt32)
      (oldData : Option (List UInt8)) (newData : List UInt8)
  | deleteValue (keyOffset : UInt32) (valueName : String) (backupData : List UInt8)
  | renameKey (keyOffset : UInt32) (oldName newName : String)
  | setSecurity (keyOffset : UInt32) (oldDescriptor newDescriptor : List UInt8)
  deriving DecidableEq, Repr

def RegistryOperation.keyOffset : RegistryOperation → UInt32
  | .createKey _ _ keyOffset => keyOffset
  | .deleteKey keyOffset _ => keyOffset
  | .setValue keyOffset _ _ _ _ => keyOffset
  | .deleteValue keyOffset _ _ => keyOffset
  | .renameKey keyOffset _ _ => keyOffset
  | .setSecurity keyOffset _ _ => keyOffset

/-- `BTreeMap`; the order of the entries is the one of their insertion. -/
abbrev BTreeMap (κ α : Type) : Type := AList fun _ : κ => α

structure RegistryTransaction where
  id : UInt64
  state : TransactionState
  isolation : IsolationLevel
  operations : List RegistryOperation
  startTime : UInt64
  timeoutUs : UInt64
  readSet : BTreeMap UInt32 UInt64
  writeSet : BTreeMap UInt32 UInt64

namespace RegistryTransaction

def new (id : UInt64) (isolation : IsolationLevel) (timeoutUs : UInt64) : RegistryTransaction where
  id := id
  state := .active
  isolation := isolation
  operations := []
  startTime := 0
  timeoutUs := timeoutUs
  readSet := ∅
  writeSet := ∅

variable (txn : RegistryTransaction)

def isActive : Bool := txn.state = .active

/-- The time since the start; `start_time` is always `0`, so it never underflows. -/
def isTimedOut (currentTime : UInt64) : Bool := currentTime - txn.startTime > txn.timeoutUs

def addOperation (op : RegistryOperation) : Except HiveError RegistryTransaction :=
  if !txn.isActive then .error .invalidPointer
  else .ok { txn with
    writeSet := txn.writeSet.insert op.keyOffset 0
    operations := txn.operations ++ [op] }

def recordRead (keyOffset : UInt32) (version : UInt64) : RegistryTransaction :=
  { txn with readSet := txn.readSet.insert keyOffset version }

def prepare : Except HiveError RegistryTransaction :=
  if txn.state ≠ .active then .error .invalidPointer else .ok { txn with state := .prepared }

def commit : Except HiveError RegistryTransaction :=
  if txn.state ≠ .prepared then .error .invalidPointer else .ok { txn with state := .committed }

def rollback : Except HiveError RegistryTransaction :=
  if txn.state = .committed ∨ txn.state = .aborted then .error .invalidPointer
  else .ok { txn with state := .aborted }

end RegistryTransaction

/-! ## The manager -/

structure TransactionManager where
  transactions : BTreeMap UInt64 RegistryTransaction
  nextId : UInt64
  commitCount : UInt32
  maxTransactions : Nat
  committedWriteSets : BTreeMap UInt32 UInt64

namespace TransactionManager

def new (maxTransactions : Nat) : TransactionManager := ⟨∅, 1, 0, maxTransactions, ∅⟩

variable (m : TransactionManager)

def begin (isolation : IsolationLevel) (timeoutUs : UInt64) :
    Except HiveError UInt64 × TransactionManager :=
  if m.transactions.keys.length ≥ m.maxTransactions then (.error .outOfBounds, m)
  else
    (.ok m.nextId, { m with
      nextId := m.nextId + 1
      transactions := m.transactions.insert m.nextId (.new m.nextId isolation timeoutUs) })

variable (id : UInt64)

/-- The transaction behind `get_mut` is given another value. -/
def put (txn : RegistryTransaction) : TransactionManager :=
  { m with transactions := m.transactions.insert id txn }

def ownedByOther (txnId : UInt64) (key : UInt32) : Bool :=
  match m.committedWriteSets.lookup key with
  | some owner => owner ≠ txnId
  | none => false

def hasConflicts (txnId : UInt64) : Except HiveError Bool :=
  match m.transactions.lookup txnId with
  | none => .error .invalidPointer
  | some txn =>
    .ok (txn.writeSet.keys.any (m.ownedByOther txnId) ||
      (txn.isolation = .serializable && txn.readSet.keys.any (m.ownedByOther txnId)))

/-- What `commit` does with a transaction that has no conflicts. -/
def commitTransaction (txn : RegistryTransaction) : Except HiveError Unit × TransactionManager :=
  match txn.prepare with
  | .error e => (.error e, m)
  | .ok prepared =>
    match prepared.commit with
    | .error e => (.error e, m.put id prepared)
    | .ok committed =>
      (.ok (), { m with
        committedWriteSets :=
          committed.writeSet.keys.foldl (fun sets key => sets.insert key id) m.committedWriteSets
        commitCount := m.commitCount + 1
        transactions := m.transactions.erase id })

/-- What `commit` does with a transaction that has a conflict. -/
def abortTransaction (txn : RegistryTransaction) : Except HiveError Unit × TransactionManager :=
  match txn.rollback with
  | .error e => (.error e, m)
  | .ok aborted => (.error .invalidPointer, m.put id aborted)

def commit : Except HiveError Unit × TransactionManager :=
  match m.hasConflicts id with
  | .error e => (.error e, m)
  | .ok conflict =>
    match m.transactions.lookup id with
    | none => (.error .invalidPointer, m)
    | some txn => if conflict then m.abortTransaction id txn else m.commitTransaction id txn

def rollback : Except HiveError Unit × TransactionManager :=
  match m.transactions.lookup id with
  | none => (.error .invalidPointer, m)
  | some txn =>
    match txn.rollback with
    | .error e => (.error e, m)
    | .ok _ => (.ok (), { m with transactions := m.transactions.erase id })

def cleanupTimedout (currentTime : UInt64) : TransactionManager :=
  let timedOut := (m.transactions.entries.filter fun entry => entry.2.isTimedOut currentTime).map
    Sigma.fst
  timedOut.foldl (fun m id => (m.rollback id).2) m

end TransactionManager

open TransactionManager

/-- A call on the manager, or through `get_mut` on one of its transactions. -/
inductive TransactionCall where
  | begin (isolation : IsolationLevel) (timeoutUs : UInt64)
  | addOperation (id : UInt64) (op : RegistryOperation)
  | recordRead (id : UInt64) (keyOffset : UInt32) (version : UInt64)
  | commit (id : UInt64)
  | rollback (id : UInt64)
  | commitDirectly (id : UInt64)
  | rollbackDirectly (id : UInt64)
  | cleanupTimedout (currentTime : UInt64)
  deriving DecidableEq, Repr

inductive TransactionAnswer where
  | started (id : UInt64)
  | done
  | failed (error : HiveError)
  /-- `get_mut` found no transaction. -/
  | absent
  deriving DecidableEq, Repr

def TransactionAnswer.ofResult : Except HiveError Unit → TransactionAnswer
  | .ok () => .done
  | .error e => .failed e

namespace TransactionManager

variable (m : TransactionManager)

/-- Call a method on the transaction behind `get_mut`. -/
def through (id : UInt64) (method : RegistryTransaction → Except HiveError RegistryTransaction) :
    TransactionAnswer × TransactionManager :=
  match m.transactions.lookup id with
  | none => (.absent, m)
  | some txn =>
    match method txn with
    | .error e => (.failed e, m)
    | .ok txn => (.done, m.put id txn)

def call : TransactionCall → TransactionManager → TransactionAnswer × TransactionManager
  | .begin isolation timeoutUs, m =>
    match m.begin isolation timeoutUs with
    | (.ok id, m) => (.started id, m)
    | (.error e, m) => (.failed e, m)
  | .addOperation id op, m => m.through id fun txn => txn.addOperation op
  | .recordRead id keyOffset version, m => m.through id fun txn => .ok (txn.recordRead keyOffset version)
  | .commit id, m => (.ofResult (m.commit id).1, (m.commit id).2)
  | .rollback id, m => (.ofResult (m.rollback id).1, (m.rollback id).2)
  | .commitDirectly id, m => m.through id RegistryTransaction.commit
  | .rollbackDirectly id, m => m.through id RegistryTransaction.rollback
  | .cleanupTimedout currentTime, m => (.done, m.cleanupTimedout currentTime)

/-! ## What one call changes -/

section

variable {m : TransactionManager} {id : UInt64} {txn : RegistryTransaction}

/-- None of the keys that a commit looks at was committed by another transaction. -/
def NoConflict (m : TransactionManager) (id : UInt64) (txn : RegistryTransaction) : Prop :=
  ∀ key, key ∈ txn.writeSet ∨ (txn.isolation = .serializable ∧ key ∈ txn.readSet) →
    ∀ owner, m.committedWriteSets.lookup key = some owner → owner = id

lemma ownedByOther_eq_true {key : UInt32} : m.ownedByOther id key = true ↔
      ∃ owner, m.committedWriteSets.lookup key = some owner ∧ owner ≠ id := by
  unfold ownedByOther
  cases m.committedWriteSets.lookup key with
  | none => simp
  | some owner => simp

lemma hasConflicts_of_lookup (htx : m.transactions.lookup id = some txn) :
    ∃ conflict, m.hasConflicts id = .ok conflict ∧ (conflict = false ↔ m.NoConflict id txn) := by
  unfold hasConflicts
  rw [htx]
  refine ⟨_, rfl, ?_⟩
  rw [← Bool.not_eq_true, Bool.or_eq_true, Bool.and_eq_true, any_eq_true, any_eq_true,
    decide_eq_true_eq]
  simp only [ownedByOther_eq_true]
  constructor
  · intro h key hk owner how
    by_contra hne
    rcases hk with hw | ⟨hsr, hr⟩
    · exact h (.inl ⟨key, hw, owner, how, hne⟩)
    · exact h (.inr ⟨hsr, key, hr, owner, how, hne⟩)
  rintro h (⟨key, hw, owner, how, hne⟩ | ⟨hsr, key, hr, owner, how, hne⟩)
  · exact hne (h key (.inl hw) owner how)
  · exact hne (h key (.inr ⟨hsr, hr⟩) owner how)

lemma lookup_claim (keys : List UInt32) (sets : BTreeMap UInt32 UInt64) (key : UInt32) :
    (keys.foldl (fun sets key => sets.insert key id) sets).lookup key
      = if key ∈ keys then some id else sets.lookup key := by
  induction keys generalizing sets with
  | nil => rfl
  | cons k keys ih =>
    show (keys.foldl (fun sets key => sets.insert key id) (sets.insert k id)).lookup key = _
    rw [ih]
    by_cases hk : key = k
    · subst hk
      simp
    · simp [hk]

lemma commitTransaction_active (hac : txn.state = .active) :
    (m.commitTransaction id txn).1 = .ok () ∧
    (m.commitTransaction id txn).2.transactions = m.transactions.erase id ∧
    ∀ key, (m.commitTransaction id txn).2.committedWriteSets.lookup key
      = if key ∈ txn.writeSet then some id else m.committedWriteSets.lookup key := by
  have heq : m.commitTransaction id txn = (.ok (), { m with
      committedWriteSets :=
        txn.writeSet.keys.foldl (fun sets key => sets.insert key id) m.committedWriteSets
      commitCount := m.commitCount + 1
      transactions := m.transactions.erase id }) := by
    unfold commitTransaction RegistryTransaction.prepare
    rw [if_neg (not_not.mpr hac)]
    rfl
  rw [heq]
  refine ⟨rfl, rfl, fun key => ?_⟩
  rw [lookup_claim]
  exact if_congr AList.mem_keys.symm rfl rfl

lemma commit_cases (m : TransactionManager) (id : UInt64) :
    (∃ txn, m.transactions.lookup id = some txn ∧ txn.state = .active ∧ m.NoConflict id txn ∧
      (m.commit id).1 = .ok () ∧ (m.commit id).2.transactions = m.transactions.erase id ∧
      ∀ key, (m.commit id).2.committedWriteSets.lookup key
        = if key ∈ txn.writeSet then some id else m.committedWriteSets.lookup key) ∨
    (∃ e, (m.commit id).1 = .error e ∧ (m.commit id).2.committedWriteSets = m.committedWriteSets ∧
      (∀ txn, m.transactions.lookup id = some txn → txn.state = .active → ¬ m.NoConflict id txn) ∧
      ((m.commit id).2 = m ∨ ∃ txn, m.transactions.lookup id = some txn ∧
        (m.commit id).2 = m.put id { txn with state := .aborted })) := by
  cases htx : m.transactions.lookup id with
  | none =>
    have hcm : m.commit id = (.error .invalidPointer, m) := by simp only [commit, hasConflicts, htx]
    rw [hcm]
    refine .inr ⟨.invalidPointer, rfl, rfl, ?_, .inl rfl⟩
    intro txn h
    cases h
  | some txn =>
    obtain ⟨conflict, hcf, hf⟩ := hasConflicts_of_lookup htx
    cases conflict with
    | true =>
      have hcm : m.commit id = m.abortTransaction id txn := by simp only [commit, hcf, htx, if_true]
      have hno : ¬ m.NoConflict id txn := fun h => by cases hf.mpr h
      rw [hcm]
      unfold abortTransaction RegistryTransaction.rollback
      by_cases he : txn.state = .committed ∨ txn.state = .aborted
      · rw [if_pos he]
        refine .inr ⟨.invalidPointer, rfl, rfl, ?_, .inl rfl⟩
        rintro _ ⟨⟩ -
        exact hno
      rw [if_neg he]
      refine .inr ⟨.invalidPointer, rfl, rfl, ?_, .inr ⟨txn, rfl, rfl⟩⟩
      rintro _ ⟨⟩ -
      exact hno
    | false =>
      have hcm : m.commit id = m.commitTransaction id txn := by
        simp only [commit, hcf, htx]
        rfl
      rw [hcm]
      by_cases hac : txn.state = .active
      · exact .inl ⟨txn, rfl, hac, hf.mp rfl, commitTransaction_active hac⟩
      unfold commitTransaction RegistryTransaction.prepare
      rw [if_pos hac]
      refine .inr ⟨.invalidPointer, rfl, rfl, ?_, .inl rfl⟩
      rintro _ ⟨⟩ h
      exact absurd h hac

lemma rollback_cases (m : TransactionManager) (id : UInt64) : (m.rollback id).2 = m ∨
      (m.rollback id).2 = { m with transactions := m.transactions.erase id } := by
  unfold rollback
  cases m.transactions.lookup id with
  | none => exact .inl rfl
  | some txn =>
    simp only [RegistryTransaction.rollback]
    split
    · exact .inl rfl
    · exact .inr rfl

lemma lookup_of_erase {other : UInt64} (h : (m.transactions.erase other).lookup id = some txn) :
    id ≠ other ∧ m.transactions.lookup id = some txn := by
  have hne : id ≠ other := by
    rintro rfl
    rw [AList.lookup_erase] at h
    cases h
  rw [AList.lookup_erase_ne hne] at h
  exact ⟨hne, h⟩

lemma lookup_of_rollback {other : UInt64}
    (h : (m.rollback other).2.transactions.lookup id = some txn) :
    m.transactions.lookup id = some txn := by
  rcases rollback_cases m other with hm | hm
  · rwa [hm] at h
  · rw [hm] at h
    exact (lookup_of_erase h).2

lemma committedWriteSets_rollback (m : TransactionManager) (id : UInt64) :
    (m.rollback id).2.committedWriteSets = m.committedWriteSets := by
  rcases rollback_cases m id with hm | hm <;> rw [hm]

lemma rollbacks_keep (ids : List UInt64) (m : TransactionManager) :
    (ids.foldl (fun m id => (m.rollback id).2) m).committedWriteSets = m.committedWriteSets ∧
    ∀ id txn, (ids.foldl (fun m id => (m.rollback id).2) m).transactions.lookup id = some txn →
      m.transactions.lookup id = some txn := by
  induction ids generalizing m with
  | nil => exact ⟨rfl, fun _ _ h => h⟩
  | cons other ids ih =>
    obtain ⟨hst, hlk⟩ := ih (m.rollback other).2
    exact ⟨hst.trans (committedWriteSets_rollback m other),
      fun id txn h => lookup_of_rollback (hlk id txn h)⟩

lemma through_cases (m : TransactionManager) (id : UInt64)
    (method : RegistryTransaction → Except HiveError RegistryTransaction) :
    ((m.through id method).1 = .absent ∧ (m.through id method).2 = m) ∨
    (∃ e, (m.through id method).1 = .failed e ∧ (m.through id method).2 = m) ∨
    ∃ txn txn', m.transactions.lookup id = some txn ∧ method txn = .ok txn' ∧
      m.through id method = (.done, m.put id txn') := by
  cases htx : m.transactions.lookup id with
  | none =>
    have heq : m.through id method = (.absent, m) := by simp only [through, htx]
    rw [heq]
    exact .inl ⟨rfl, rfl⟩
  | some txn =>
    cases hmt : method txn with
    | error e =>
      have heq : m.through id method = (.failed e, m) := by simp only [through, htx, hmt]
      rw [heq]
      exact .inr (.inl ⟨e, rfl, rfl⟩)
    | ok txn' =>
      refine .inr (.inr ⟨txn, txn', rfl, hmt, ?_⟩)
      simp only [through, htx, hmt]

end

end TransactionManager

/-! ## The trace of a run -/

section

abbrev TransactionEntry : Type := TransactionCall × TransactionAnswer

variable (id : UInt64)

def Starts (isolation : IsolationLevel) (x : TransactionEntry) : Prop :=
  ∃ timeoutUs, x = (.begin isolation timeoutUs, .started id)

def Renews (x : TransactionEntry) : Prop := x.2 = .started id

def Commits (x : TransactionEntry) : Prop :=
  (x.1 = .commit id ∨ x.1 = .commitDirectly id) ∧ x.2 = .done

def Adds (key : UInt32) (x : TransactionEntry) : Prop :=
  ∃ op : RegistryOperation, x = (.addOperation id op, .done) ∧ op.keyOffset = key

def Records (key : UInt32) (x : TransactionEntry) : Prop :=
  ∃ version, x = (.recordRead id key version, .done)

structure Follows (x : TransactionEntry) (id : UInt64) (txn txn' : RegistryTransaction) :
    Prop where
  kept : ¬ Renews id x ∧ ¬ Commits id x
  isolation : txn'.isolation = txn.isolation
  state : txn'.state = txn.state ∨ txn'.state = .aborted
  writes : ∀ key, key ∈ txn'.writeSet ↔ Adds id key x ∨ key ∈ txn.writeSet
  reads : ∀ key, key ∈ txn'.readSet ↔ Records id key x ∨ key ∈ txn.readSet

variable (m : TransactionManager)

/-- No transaction in the map is prepared or committed. -/
def Resting : Prop :=
  ∀ id txn, m.transactions.lookup id = some txn → txn.state = .active ∨ txn.state = .aborted

variable {m : TransactionManager} {id other : UInt64} {txn txn' : RegistryTransaction}
  {c : TransactionCall} {answer : TransactionAnswer}

lemma Follows.same (hrn : ¬ Renews id (c, answer) := by simp [Renews])
    (hcm : ¬ Commits id (c, answer) := by simp [Commits])
    (had : ∀ op, (c, answer) ≠ (.addOperation id op, .done) := by simp)
    (hrd : ∀ key version, (c, answer) ≠ (.recordRead id key version, .done) := by simp) :
    Follows (c, answer) id txn txn where
  kept := ⟨hrn, hcm⟩
  isolation := rfl
  state := .inl rfl
  writes key := by
    constructor
    · exact .inr
    rintro (⟨op, hop, -⟩ | h)
    · exact absurd hop (had op)
    · exact h
  reads key := by
    constructor
    · exact .inr
    rintro (⟨version, hop⟩ | h)
    · exact absurd hop (hrd key version)
    · exact h

lemma Follows.of_failed {e : HiveError} : Follows (c, .failed e) id txn txn := .same

lemma Follows.of_absent : Follows (c, .absent) id txn txn := .same

lemma TransactionManager.lookup_put : (m.put other txn).transactions.lookup id
      = if id = other then some txn else m.transactions.lookup id := by
  show (m.transactions.insert other txn).lookup id = _
  by_cases h : id = other
  · subst h
    rw [AList.lookup_insert, if_pos rfl]
  · rw [AList.lookup_insert_ne h, if_neg h]

lemma follows_through {method : RegistryTransaction → Except HiveError RegistryTransaction}
    (hca : call c m = m.through other method)
    (hmt : ∀ txn txn', m.transactions.lookup other = some txn → method txn = .ok txn' →
      Follows (c, .done) other txn txn') (hot : id ≠ other → Follows (c, .done) id txn' txn')
    (h : (call c m).2.transactions.lookup id = some txn') :
    ∃ txn, m.transactions.lookup id = some txn ∧ Follows (c, (call c m).1) id txn txn' := by
  rw [hca] at h ⊢
  rcases m.through_cases other method with ⟨ha, hm⟩ | ⟨e, ha, hm⟩ | ⟨txn, new, htx, hw, heq⟩
  · rw [hm] at h
    rw [ha]
    exact ⟨txn', h, .of_absent⟩
  · rw [hm] at h
    rw [ha]
    exact ⟨txn', h, .of_failed⟩
  rw [heq] at h ⊢
  have h' : (m.put other new).transactions.lookup id = some txn' := h
  rw [lookup_put] at h'
  by_cases hid : id = other
  · subst hid
    rw [if_pos rfl] at h'
    cases h'
    exact ⟨txn, htx, hmt txn txn' htx hw⟩
  · rw [if_neg hid] at h'
    exact ⟨txn', h', hot hid⟩

lemma follows_addOperation {op : RegistryOperation} (h : txn.addOperation op = .ok txn') :
    Follows (.addOperation id op, .done) id txn txn' := by
  unfold RegistryTransaction.addOperation at h
  by_cases hac : txn.isActive
  · rw [if_neg (by simp [hac])] at h
    cases h
    refine ⟨⟨by simp [Renews], by simp [Commits]⟩, rfl, .inl rfl, fun key => ?_, fun key => ?_⟩
    · simp [Adds, eq_comm]
    · simp [Records]
  · rw [if_pos (by simp [hac])] at h
    cases h

lemma follows_recordRead (key : UInt32) (version : UInt64) :
    Follows (.recordRead id key version, .done) id txn (txn.recordRead key version) := by
  refine ⟨⟨by simp [Renews], by simp [Commits]⟩, rfl, .inl rfl, fun key' => ?_, fun key' => ?_⟩
  · show key' ∈ txn.writeSet ↔ _
    simp [Adds]
  · show key' ∈ txn.readSet.insert key version ↔ _
    simp [Records, eq_comm]

lemma Follows.abort (h : Follows (c, answer) id txn txn) :
    Follows (c, answer) id txn { txn with state := .aborted } :=
  ⟨h.kept, rfl, .inr rfl, h.writes, h.reads⟩

lemma TransactionManager.begin_cases (m : TransactionManager) (isolation : IsolationLevel)
    (timeoutUs : UInt64) : (∃ e, call (.begin isolation timeoutUs) m = (.failed e, m)) ∨
    call (.begin isolation timeoutUs) m = (.started m.nextId, { m with
      nextId := m.nextId + 1
      transactions := m.transactions.insert m.nextId (.new m.nextId isolation timeoutUs) }) := by
  unfold call begin
  by_cases hfl : m.transactions.keys.length ≥ m.maxTransactions
  · exact .inl ⟨.outOfBounds, by simp only [if_pos hfl]⟩
  · exact .inr (by simp only [if_neg hfl])

open TransactionAnswer

lemma lookup_call (hr : Resting m) (c : TransactionCall)
    (h : (call c m).2.transactions.lookup id = some txn') :
    (∃ isolation timeoutUs, (c, (call c m).1)
        = (.begin isolation timeoutUs, .started id) ∧ txn' = .new id isolation timeoutUs) ∨
    ∃ txn, m.transactions.lookup id = some txn ∧ Follows (c, (call c m).1) id txn txn' := by
  cases c with
  | begin isolation timeoutUs =>
    rcases m.begin_cases isolation timeoutUs with ⟨e, heq⟩ | heq
    · rw [heq] at h ⊢
      exact .inr ⟨txn', h, .of_failed⟩
    rw [heq] at h ⊢
    have h' : (m.transactions.insert m.nextId (.new m.nextId isolation timeoutUs)).lookup id
        = some txn' := h
    by_cases hid : id = m.nextId
    · subst hid
      rw [AList.lookup_insert] at h'
      cases h'
      exact .inl ⟨isolation, timeoutUs, rfl, rfl⟩
    · rw [AList.lookup_insert_ne hid] at h'
      exact .inr ⟨txn', h', .same (by simp [Renews, Ne.symm hid])⟩
  | addOperation other op =>
    refine .inr (follows_through rfl (fun _ _ _ hop => follows_addOperation hop) ?_ h)
    intro hid
    exact .same (by simp [Renews]) (by simp [Commits]) (by simp [Ne.symm hid])
  | recordRead other key version =>
    have hca : call (.recordRead other key version) m
        = m.through other fun txn => .ok (txn.recordRead key version) := rfl
    refine .inr (follows_through hca ?_ ?_ h)
    · rintro txn _ - ⟨⟩
      exact follows_recordRead key version
    · intro hid
      exact .same (by simp [Renews]) (by simp [Commits]) (by simp) (by simp [Ne.symm hid])
  | commit other =>
    refine .inr ?_
    show ∃ txn, _ ∧ Follows (_, .ofResult (m.commit other).1) id txn txn'
    have h' : (m.commit other).2.transactions.lookup id = some txn' := h
    rcases m.commit_cases other with ⟨t, -, -, -, hok, her, -⟩ | ⟨e, he, -, -, hm | ⟨t, ht, hm⟩⟩
    · rw [her] at h'
      obtain ⟨hid, h'⟩ := lookup_of_erase h'
      rw [hok]
      exact ⟨txn', h', .same (by simp [Renews, ofResult]) (by simp [Commits, Ne.symm hid])⟩
    · rw [hm] at h'
      rw [he]
      exact ⟨txn', h', .of_failed⟩
    rw [hm, lookup_put] at h'
    rw [he]
    by_cases hid : id = other
    · subst hid
      rw [if_pos rfl] at h'
      cases h'
      exact ⟨t, ht, Follows.of_failed.abort⟩
    · rw [if_neg hid] at h'
      exact ⟨txn', h', .of_failed⟩
  | rollback other =>
    refine .inr ⟨txn', lookup_of_rollback h, .same ?_⟩
    show ofResult _ ≠ _
    cases (m.rollback other).1 <;> simp [ofResult]
  | commitDirectly other =>
    refine .inr (follows_through rfl ?_ ?_ h)
    · intro t t' ht hcm
      -- the method wants a prepared transaction, and there is none
      unfold RegistryTransaction.commit at hcm
      rw [if_pos] at hcm
      · cases hcm
      · rcases hr other t ht with hs | hs <;> simp [hs]
    · intro hid
      exact .same (by simp [Renews]) (by simp [Commits, Ne.symm hid])
  | rollbackDirectly other =>
    refine .inr (follows_through rfl ?_ ?_ h)
    · intro t t' _ hrl
      unfold RegistryTransaction.rollback at hrl
      split at hrl <;> cases hrl
      exact (Follows.same).abort
    · exact fun _ => .same
  | cleanupTimedout currentTime =>
    exact .inr ⟨txn', (rollbacks_keep _ m).2 id txn' h, .same (by simp [Renews, call])⟩

lemma committedWriteSets_through (id : UInt64)
    (method : RegistryTransaction → Except HiveError RegistryTransaction) :
    (m.through id method).2.committedWriteSets = m.committedWriteSets := by
  rcases m.through_cases id method with ⟨-, hm⟩ | ⟨e, -, hm⟩ | ⟨t, t', -, -, heq⟩
  · rw [hm]
  · rw [hm]
  · rw [heq]
    rfl

lemma commitDirectly_not_done (hr : Resting m) (id : UInt64) :
    (m.through id RegistryTransaction.commit).1 ≠ .done := by
  rcases m.through_cases id RegistryTransaction.commit with
    ⟨ha, -⟩ | ⟨e, ha, -⟩ | ⟨t, t', ht, hcm, -⟩
  · simp [ha]
  · simp [ha]
  unfold RegistryTransaction.commit at hcm
  rw [if_pos] at hcm
  · cases hcm
  · rcases hr id t ht with hs | hs <;> simp [hs]

lemma owner_call (hr : Resting m) (c : TransactionCall) (key : UInt32) (w : UInt64) :
    (call c m).2.committedWriteSets.lookup key = some w ↔ m.committedWriteSets.lookup key = some w ∨
      (Commits w (c, (call c m).1) ∧
        ∃ txn, m.transactions.lookup w = some txn ∧ key ∈ txn.writeSet) := by
  -- every call but a commit leaves the owners alone
  have hs : (call c m).2.committedWriteSets = m.committedWriteSets → ¬ Commits w (c, (call c m).1) →
      ((call c m).2.committedWriteSets.lookup key = some w ↔
      m.committedWriteSets.lookup key = some w ∨
      (Commits w (c, (call c m).1) ∧
        ∃ txn, m.transactions.lookup w = some txn ∧ key ∈ txn.writeSet)) := by
    intro hst hno
    rw [hst]
    simp [hno]
  cases c with
  | begin isolation timeoutUs =>
    refine hs ?_ (by simp [Commits])
    rcases m.begin_cases isolation timeoutUs with ⟨e, heq⟩ | heq <;> rw [heq]
  | addOperation id op | recordRead id key version | rollbackDirectly id =>
    exact hs (committedWriteSets_through _ _) (by simp [Commits])
  | commit id =>
    rcases m.commit_cases id with ⟨t, ht, -, hf, hok, -, hse⟩ | ⟨e, he, hst, -, -⟩
    · show (m.commit id).2.committedWriteSets.lookup key = some w ↔
        _ ∨ (Commits w (_, .ofResult (m.commit id).1) ∧ _)
      rw [hse, hok]
      have hcm : Commits w (.commit id, ofResult (.ok ())) ↔ id = w := by simp [Commits, ofResult]
      rw [hcm]
      by_cases hk : key ∈ t.writeSet
      · rw [if_pos hk]
        constructor
        · rintro ⟨⟩
          exact .inr ⟨rfl, t, ht, hk⟩
        rintro (how | ⟨rfl, -⟩)
        · rw [hf key (.inl hk) w how]
        · rfl
      rw [if_neg hk]
      constructor
      · exact .inl
      rintro (how | ⟨rfl, _, ht', hk'⟩)
      · exact how
      rw [ht] at ht'
      cases ht'
      exact absurd hk' hk
    refine hs hst ?_
    show ¬ Commits w (_, .ofResult (m.commit id).1)
    rw [he]
    simp [Commits, ofResult]
  | rollback id => exact hs (m.committedWriteSets_rollback id) (by simp [Commits])
  | commitDirectly id =>
    refine hs (committedWriteSets_through _ _) ?_
    rintro ⟨-, hdn⟩
    exact commitDirectly_not_done hr id hdn
  | cleanupTimedout currentTime => exact hs (rollbacks_keep _ m).1 (by simp [Commits])

def Written (h : List TransactionEntry) (id : UInt64) (key : UInt32) : Prop :=
  Since (Adds id key) (Renews id) h

def HasRead (h : List TransactionEntry) (id : UInt64) (key : UInt32) : Prop :=
  Since (Records id key) (Renews id) h

def CommittedWrite (h : List TransactionEntry) (id : UInt64) (key : UInt32) : Prop :=
  ∃ (j : Nat) (x : TransactionEntry), h[j]? = some x ∧ Commits id x ∧ Written (h.take j) id key

variable {h : List TransactionEntry} {x : TransactionEntry}

lemma committedWrite_append {key : UInt32} : CommittedWrite (h ++ [x]) id key ↔
      CommittedWrite h id key ∨ (Commits id x ∧ Written h id key) := by
  constructor
  · rintro ⟨j, y, hy, hcm, hwt⟩
    have hj := (List.getElem?_eq_some_iff.mp hy).1
    rw [List.length_append, List.length_singleton] at hj
    rcases Nat.lt_or_ge j h.length with hlt | hge
    · rw [getElem?_append_left hlt] at hy
      rw [take_append_of_le_length (Nat.le_of_lt hlt)] at hwt
      exact .inl ⟨j, y, hy, hcm, hwt⟩
    obtain rfl : j = h.length := by omega
    rw [getElem?_concat_length] at hy
    cases hy
    rw [take_left' rfl] at hwt
    exact .inr ⟨hcm, hwt⟩
  rintro (⟨j, y, hy, hcm, hwt⟩ | ⟨hcm, hwt⟩)
  · have hj := (List.getElem?_eq_some_iff.mp hy).1
    refine ⟨j, y, (List.getElem?_append_left hj).trans hy, hcm, ?_⟩
    rwa [List.take_append_of_le_length (Nat.le_of_lt hj)]
  · refine ⟨h.length, x, getElem?_concat_length, hcm, ?_⟩
    rwa [take_left' rfl]

lemma of_commits (hr : Resting m) (hcm : Commits id (c, (call c m).1)) :
    ∃ txn, m.transactions.lookup id = some txn ∧ txn.state = .active ∧ m.NoConflict id txn := by
  obtain ⟨rfl | rfl, hdn⟩ := hcm
  · rcases m.commit_cases id with ⟨txn, htx, hac, hf, -⟩ | ⟨e, he, -⟩
    · exact ⟨txn, htx, hac, hf⟩
    have hdn' : ofResult (m.commit id).1 = .done := hdn
    rw [he] at hdn'
    cases hdn'
  · exact absurd hdn (commitDirectly_not_done hr id)

/-- What the manager holds, in terms of the calls so far. -/
structure TraceInv (h : List TransactionEntry) (m : TransactionManager) : Prop where
  resting : Resting m
  live : ∀ id txn, m.transactions.lookup id = some txn →
    Since (Starts id txn.isolation) (fun x => Renews id x ∨ Commits id x) h
  writes : ∀ id txn, m.transactions.lookup id = some txn →
    ∀ key, key ∈ txn.writeSet ↔ Written h id key
  reads : ∀ id txn, m.transactions.lookup id = some txn →
    ∀ key, key ∈ txn.readSet ↔ HasRead h id key
  owners : ∀ key w, m.committedWriteSets.lookup key = some w ↔ CommittedWrite h w key

variable (maxTransactions : Nat)

lemma traceInv_new : TraceInv [] (.new maxTransactions) where
  resting := nofun
  live := nofun
  writes := nofun
  reads := nofun
  owners key w := by
    refine iff_of_false nofun ?_
    rintro ⟨_, _, hx, -⟩
    cases hx

lemma not_since_of_renews {p : TransactionEntry → Prop} (hp : ¬ p x) (hx : Renews id x) :
    ¬ Since p (Renews id) (h ++ [x]) := by
  rw [since_append]
  rintro (h | ⟨-, h⟩)
  · exact hp h
  · exact h hx

lemma TraceInv.call (hi : TraceInv h m) (c : TransactionCall) :
    TraceInv (h ++ [(c, (call c m).1)]) (call c m).2 where
  resting id txn' htx' := by
    rcases lookup_call hi.resting c htx' with ⟨_, _, -, rfl⟩ | ⟨txn, htx, hfl⟩
    · exact .inl rfl
    rcases hfl.state with hs | hs
    · rw [hs]
      exact hi.resting id txn htx
    · exact .inr hs
  live id txn' htx' := by
    rw [since_append]
    rcases lookup_call hi.resting c htx' with ⟨iso, timeoutUs, hx, rfl⟩ | ⟨txn, htx, hfl⟩
    · exact .inl ⟨timeoutUs, hx⟩
    · rw [hfl.isolation]
      exact .inr ⟨hi.live id txn htx, fun h => h.elim hfl.kept.1 hfl.kept.2⟩
  writes id txn' htx' key := by
    rcases lookup_call hi.resting c htx' with ⟨iso, timeoutUs, hx, rfl⟩ | ⟨txn, htx, hfl⟩
    · refine iff_of_false (AList.notMem_empty key) (not_since_of_renews ?_ ?_) <;> rw [hx]
      · simp [Adds]
      · rfl
    rw [hfl.writes key, hi.writes id txn htx key]
    unfold Written
    rw [since_append, and_iff_left hfl.kept.1]
  reads id txn' htx' key := by
    rcases lookup_call hi.resting c htx' with ⟨iso, timeoutUs, hx, rfl⟩ | ⟨txn, htx, hfl⟩
    · refine iff_of_false (AList.notMem_empty key) (not_since_of_renews ?_ ?_) <;> rw [hx]
      · simp [Records]
      · rfl
    rw [hfl.reads key, hi.reads id txn htx key]
    unfold HasRead
    rw [since_append, and_iff_left hfl.kept.1]
  owners key w := by
    rw [owner_call hi.resting, hi.owners, committedWrite_append]
    refine or_congr_right (and_congr_right fun hcm => ?_)
    -- the transaction that is committed is in the map
    constructor
    · rintro ⟨txn, htx, hk⟩
      exact (hi.writes w txn htx key).mp hk
    intro hwt
    obtain ⟨txn, htx, -⟩ := of_commits hi.resting hcm
    exact ⟨txn, htx, (hi.writes w txn htx key).mpr hwt⟩

/-! ## Isolation -/

variable (calls : List TransactionCall)

/-- The calls with their answers, from a new manager on. -/
def transactionTrace : List TransactionEntry := trace call (.new maxTransactions) calls

def afterCalls : TransactionManager := final call (.new maxTransactions) calls

lemma traceInv_calls :
    TraceInv (transactionTrace maxTransactions calls) (afterCalls maxTransactions calls) :=
  trace_induction call (traceInv_new maxTransactions) (fun _ _ c hi => hi.call c) calls

/-- The transaction was begun at place `i`. -/
def BegunAt (h : List TransactionEntry) (i : Nat) (id : UInt64) (isolation : IsolationLevel) :
    Prop :=
  ∃ x, h[i]? = some x ∧ Starts id isolation x

/-- Place `k` is an entry with `p` in the life of the transaction begun at place `i`: the id was not
given to another one in between. -/
def HappensAt (p : TransactionEntry → Prop) (h : List TransactionEntry) (i k : Nat)
    (id : UInt64) : Prop :=
  i < k ∧ (∃ x, h[k]? = some x ∧ p x) ∧
    ∀ (n : Nat) (y : TransactionEntry), i < n → n < k → h[n]? = some y → ¬ Renews id y

lemma HappensAt.since {p : TransactionEntry → Prop} {q : TransactionEntry → Prop}
    {i k j : Nat} (hp : HappensAt p h i k id)
    (hj : HappensAt q h i j id) (hkj : k < j) : Since p (Renews id) (h.take j) := by
  obtain ⟨_, ⟨x, hx, hpx⟩, -⟩ := hp
  refine ⟨k, x, ?_, hpx, fun n y hn hy => ?_⟩
  · rw [getElem?_take_of_lt hkj]
    exact hx
  have hnj : n < j := by
    have := (List.getElem?_eq_some_iff.mp hy).1
    rw [List.length_take] at this
    omega
  rw [getElem?_take_of_lt hnj] at hy
  exact hj.2.2 n y (by omega) hnj hy

lemma committed_before {maxTransactions : Nat} {calls : List TransactionCall} {j : Nat}
    {log : List TransactionEntry} (hlg : log = transactionTrace maxTransactions calls)
    (hx : log[j]? = some x) (hcm : Commits id x) : ∃ txn before, TraceInv (log.take j) before ∧
      before.transactions.lookup id = some txn ∧ before.NoConflict id txn := by
  subst hlg
  obtain ⟨before, _, -, -, han, hta⟩ := trace_entry _ hx
  have hi := traceInv_calls maxTransactions before
  have hcm' : Commits id (x.1, (call x.1 (afterCalls maxTransactions before)).1) := by
    have heq : (x.1, (call x.1 (afterCalls maxTransactions before)).1) = x := Prod.ext rfl han.symm
    rwa [heq]
  obtain ⟨txn, htx, -, hf⟩ := of_commits hi.resting hcm'
  refine ⟨txn, afterCalls maxTransactions before, ?_, htx, hf⟩
  have hta' : (transactionTrace maxTransactions calls).take j
      = transactionTrace maxTransactions before := hta
  rwa [hta']

lemma second_does_not_commit {maxTransactions : Nat} {calls : List TransactionCall}
    {i₁ i₂ j₁ j₂ p₁ : Nat} {id₁ id₂ : UInt64} {isolation : IsolationLevel} {key : UInt32}
    {log : List TransactionEntry} (hlg : log = transactionTrace maxTransactions calls)
    (hbg : BegunAt log i₂ id₂ isolation) (hj1 : HappensAt (Commits id₁) log i₁ j₁ id₁)
    (hj2 : HappensAt (Commits id₂) log i₂ j₂ id₂) (hor : j₁ < j₂)
    (hol : i₂ < j₁ ∨ id₁ ≠ id₂) (hwr : HappensAt (Adds id₁ key) log i₁ p₁ id₁)
    (hp1 : p₁ < j₁) (htc : Written (log.take j₂) id₂ key ∨
      (isolation = .serializable ∧ HasRead (log.take j₂) id₂ key)) : False := by
  obtain ⟨_, hx2, hc2⟩ := hj2.2.1
  obtain ⟨txn, _, hi, htx, hf⟩ := committed_before hlg hx2 hc2
  -- the first transaction owns the key by then
  obtain ⟨x1, hx1, hc1⟩ := hj1.2.1
  have how : CommittedWrite (log.take j₂) id₁ key := by
    refine ⟨j₁, x1, ?_, hc1, ?_⟩
    · rw [getElem?_take_of_lt hor]
      exact hx1
    · rw [take_take, Nat.min_eq_left (Nat.le_of_lt hor)]
      exact hwr.since hj1 hp1
  -- the second one is in the map since place `i₂`
  obtain ⟨i, y, hy, ⟨_, hs0⟩, haf⟩ := hi.live id₂ txn htx
  have hij : i < j₂ := by
    have := (List.getElem?_eq_some_iff.mp hy).1
    rw [List.length_take] at this
    omega
  rw [getElem?_take_of_lt hij] at hy
  have hl : i ≤ i₂ := by
    by_contra hlt
    exact hj2.2.2 i y (by omega) hij hy (by rw [hs0]; rfl)
  have hio : txn.isolation = isolation := by
    obtain ⟨z, hz, _, hz'⟩ := hbg
    rcases Nat.lt_or_ge i i₂ with hlt | hge
    · refine absurd (Or.inl ?_) (haf i₂ z hlt ?_)
      · rw [hz']
        rfl
      · rw [getElem?_take_of_lt hj2.1]
        exact hz
    obtain rfl : i = i₂ := by omega
    rw [hy] at hz
    cases hz
    rw [hs0] at hz'
    cases hz'
    rfl
  have hk : key ∈ txn.writeSet ∨ (txn.isolation = .serializable ∧ key ∈ txn.readSet) := by
    rw [hi.writes id₂ txn htx, hi.reads id₂ txn htx, hio]
    exact htc
  have heq : id₁ = id₂ := hf key hk id₁ ((hi.owners key id₁).mpr how)
  rcases hol with hov | hne
  · subst heq
    refine haf j₁ x1 (by omega) ?_ (.inr hc1)
    rw [getElem?_take_of_lt hor]
    exact hx1
  · exact hne heq

/-- Two transactions that were both begun before either of them committed and that have operations
on a common key do not both commit; and a serializable transaction does not commit after another one
committed a write to a key that it had read. -/
theorem overlapping_never_both_commit
    {i₁ i₂ : Nat} {id₁ id₂ : UInt64} {isolation₁ isolation₂ : IsolationLevel}
    (hbegun₁ : BegunAt (transactionTrace maxTransactions calls) i₁ id₁ isolation₁)
    (hbegun₂ : BegunAt (transactionTrace maxTransactions calls) i₂ id₂ isolation₂) (hne : i₁ ≠ i₂) :
    (¬ ∃ j₁ j₂ p₁ p₂ key,
      HappensAt (Commits id₁) (transactionTrace maxTransactions calls) i₁ j₁ id₁ ∧
      HappensAt (Commits id₂) (transactionTrace maxTransactions calls) i₂ j₂ id₂ ∧
      i₁ < j₂ ∧ i₂ < j₁ ∧
      HappensAt (Adds id₁ key) (transactionTrace maxTransactions calls) i₁ p₁ id₁ ∧ p₁ < j₁ ∧
      HappensAt (Adds id₂ key) (transactionTrace maxTransactions calls) i₂ p₂ id₂ ∧ p₂ < j₂) ∧
    (isolation₂ = .serializable → ¬ ∃ j₁ j₂ p r key,
      HappensAt (Commits id₁) (transactionTrace maxTransactions calls) i₁ j₁ id₁ ∧
      HappensAt (Commits id₂) (transactionTrace maxTransactions calls) i₂ j₂ id₂ ∧ j₁ < j₂ ∧
      HappensAt (Adds id₁ key) (transactionTrace maxTransactions calls) i₁ p id₁ ∧ p < j₁ ∧
      HappensAt (Records id₂ key) (transactionTrace maxTransactions calls) i₂ r id₂ ∧ r < j₂ ∧
      (r < j₁ ∨ id₁ ≠ id₂)) := by
  constructor
  · rintro ⟨j₁, j₂, p₁, p₂, key, hj1, hj2, h12, h21, hw1, hp1, hw2, hp2⟩
    rcases Nat.lt_trichotomy j₁ j₂ with hlt | rfl | hgt
    · exact second_does_not_commit rfl hbegun₂ hj1 hj2 hlt (.inl h21) hw1 hp1
        (.inl (hw2.since hj2 hp2))
    · -- one entry commits one id, which was not given away twice before it
      obtain ⟨_, hx, hc1⟩ := hj1.2.1
      obtain ⟨_, hy, hc2⟩ := hj2.2.1
      rw [hx] at hy
      cases hy
      have hid : id₁ = id₂ := by
        rcases hc1 with ⟨h | h, -⟩ <;> rcases hc2 with ⟨h' | h', -⟩ <;> rw [h] at h' <;> cases h' <;>
          rfl
      subst hid
      obtain ⟨_, hy1, _, rfl⟩ := hbegun₁
      obtain ⟨_, hy2, _, rfl⟩ := hbegun₂
      rcases Nat.lt_or_gt_of_ne hne with hlt | hgt
      · exact hj1.2.2 i₂ _ hlt h21 hy2 rfl
      · exact hj2.2.2 i₁ _ hgt h12 hy1 rfl
    · exact second_does_not_commit rfl hbegun₁ hj2 hj1 hgt (.inl h12) hw2 hp2
        (.inl (hw1.since hj1 hp1))
  rintro hsr ⟨j₁, j₂, p, r, key, hj1, hj2, hlt, hw, hp, hr, hrj, hbt⟩
  refine second_does_not_commit rfl hbegun₂ hj1 hj2 hlt ?_ hw hp (.inr ⟨hsr, hr.since hj2 hrj⟩)
  have hir : i₂ < r := hr.1
  exact hbt.imp_left fun h => by omega

/-- Two overlapping writers and a reader: only the first one commits. -/
def threeTransactions : List TransactionCall :=
  [.begin .readCommitted 9, .begin .readCommitted 9, .begin .serializable 9,
    .addOperation 1 (.deleteKey 64 []), .addOperation 2 (.renameKey 64 "a" "b"),
    .recordRead 3 64 0, .commit 1, .commit 2, .commit 3]

theorem overlapping_never_both_commit_three : (transactionTrace 4 threeTransactions).map Prod.snd
      = [.started 1, .started 2, .started 3, .done, .done, .done, .done,
        .failed .invalidPointer, .failed .invalidPointer] ∧ ¬ ∃ j₁ j₂ p₁ p₂ key,
      HappensAt (Commits 1) (transactionTrace 4 threeTransactions) 0 j₁ 1 ∧
      HappensAt (Commits 2) (transactionTrace 4 threeTransactions) 1 j₂ 2 ∧ 0 < j₂ ∧ 1 < j₁ ∧
      HappensAt (Adds 1 key) (transactionTrace 4 threeTransactions) 0 p₁ 1 ∧ p₁ < j₁ ∧
      HappensAt (Adds 2 key) (transactionTrace 4 threeTransactions) 1 p₂ 2 ∧ p₂ < j₂ :=
  ⟨by decide +kernel, (overlapping_never_both_commit 4 threeTransactions
      ⟨(.begin .readCommitted 9, .started 1), by decide +kernel, 9, rfl⟩
      ⟨(.begin .readCommitted 9, .started 2), by decide +kernel, 9, rfl⟩ (by decide)).1⟩

/-- A commit of an active transaction succeeds if and only if none of the keys that it wrote (nor,
if it is serializable, read) was ever committed by a transaction of another id, however long ago. -/
theorem commit_succeeds_iff {id : UInt64} {txn : RegistryTransaction}
    (htxn : (afterCalls maxTransactions calls).transactions.lookup id = some txn)
    (hactive : txn.state = .active) : ((afterCalls maxTransactions calls).commit id).1 = .ok () ↔
      ∀ key, Written (transactionTrace maxTransactions calls) id key ∨
          (txn.isolation = .serializable ∧
            HasRead (transactionTrace maxTransactions calls) id key) →
        ∀ other, CommittedWrite (transactionTrace maxTransactions calls) other key →
          other = id := by
  have hi := traceInv_calls maxTransactions calls
  have hif : (∀ key, Written (transactionTrace maxTransactions calls) id key ∨
        (txn.isolation = .serializable ∧ HasRead (transactionTrace maxTransactions calls) id key) →
      ∀ other, CommittedWrite (transactionTrace maxTransactions calls) other key → other = id) ↔
      (afterCalls maxTransactions calls).NoConflict id txn := by
    unfold TransactionManager.NoConflict
    simp only [hi.writes id txn htxn, hi.reads id txn htxn, hi.owners]
  rw [hif]
  rcases (afterCalls maxTransactions calls).commit_cases id with
    ⟨t, ht, -, hf, hok, -⟩ | ⟨e, he, -, hno, -⟩
  · rw [htxn] at ht
    cases ht
    exact iff_of_true hok hf
  refine iff_of_false ?_ (hno txn htxn hactive)
  rw [he]
  simp

/-- One transaction commits a key and is gone; another one is begun and writes the key. -/
def oneAfterTheOther : List TransactionCall :=
  [.begin .readCommitted 9, .addOperation 1 (.deleteKey 64 []), .commit 1,
    .begin .readCommitted 9, .addOperation 2 (.deleteKey 64 [])]

/-- A third one writes another key. -/
def otherKey : List TransactionCall :=
  oneAfterTheOther ++ [.begin .readCommitted 9, .addOperation 3 (.deleteKey 65 [])]

theorem commit_succeeds_iff_other_key : ((afterCalls 4 otherKey).commit 3).1 = .ok () ∧
    ∀ key, Written (transactionTrace 4 otherKey) 3 key → ∀ other,
      CommittedWrite (transactionTrace 4 otherKey) other key → other = 3 := by
  have hok : ((afterCalls 4 otherKey).commit 3).1 = .ok () := by decide +kernel
  exact ⟨hok, fun key hw => (commit_succeeds_iff 4 otherKey rfl rfl).mp hok key (.inl hw)⟩

/-- The first transaction was committed before the second one began, nothing was rolled back and the
manager has room, but the commit of the second one is refused. -/
theorem serial_commit_refused : transactionTrace 4 (oneAfterTheOther ++ [.commit 2])
      = [(.begin .readCommitted 9, .started 1), (.addOperation 1 (.deleteKey 64 []), .done),
        (.commit 1, .done), (.begin .readCommitted 9, .started 2),
        (.addOperation 2 (.deleteKey 64 []), .done), (.commit 2, .failed .invalidPointer)] := by
  decide +kernel

/-! ## Slots -/

def TransactionManager.activeCount (m : TransactionManager) : Nat := m.transactions.keys.length

def AllActive (m : TransactionManager) : Prop :=
  ∀ id txn, m.transactions.lookup id = some txn → txn.state = .active

lemma AllActive.put (h : AllActive m) (hac : txn.state = .active) : AllActive (m.put id txn) := by
  intro other txn' hlk
  rw [lookup_put] at hlk
  split at hlk
  · cases hlk
    exact hac
  · exact h other txn' hlk

lemma AllActive.through (h : AllActive m)
    {method : RegistryTransaction → Except HiveError RegistryTransaction}
    (hmt : ∀ txn txn', txn.state = .active → method txn = .ok txn' → txn'.state = .active) :
    AllActive (m.through id method).2 := by
  rcases m.through_cases id method with ⟨-, heq⟩ | ⟨e, -, heq⟩ | ⟨txn, txn', htx, hok, heq⟩
  · rwa [heq]
  · rwa [heq]
  · rw [heq]
    exact h.put (hmt txn txn' (h id txn htx) hok)

lemma AllActive.commit (h : AllActive m) (hf : m.hasConflicts id ≠ .ok true) :
    AllActive (m.commit id).2 := by
  rcases m.commit_cases id with ⟨_, -, -, -, -, heq, -⟩ | ⟨e, -, -, hno, heq | ⟨txn, htx, -⟩⟩
  · intro other txn' hlk
    rw [heq] at hlk
    exact h other txn' (lookup_of_erase hlk).2
  · rwa [heq]
  obtain ⟨conflict, hcf, hif⟩ := hasConflicts_of_lookup htx
  cases conflict with
  | true => exact absurd hcf hf
  | false => exact absurd (hif.mp rfl) (hno txn htx (h id txn htx))

lemma AllActive.call (h : AllActive m) (hdr : ∀ id, c ≠ .rollbackDirectly id)
    (hf : ∀ id, c = .commit id → m.hasConflicts id ≠ .ok true) : AllActive (call c m).2 := by
  cases c with
  | begin isolation timeoutUs =>
    rcases m.begin_cases isolation timeoutUs with ⟨_, heq⟩ | heq
    · rwa [heq]
    · rw [heq]
      exact h.put rfl
  | addOperation other op =>
    refine h.through fun txn txn' hac hop => ?_
    simp only [RegistryTransaction.addOperation, RegistryTransaction.isActive, hac] at hop
    cases hop
    rfl
  | recordRead other key version =>
    refine h.through ?_
    rintro txn _ hac ⟨⟩
    exact hac
  | commit other => exact h.commit (hf other rfl)
  | rollback other => exact fun id txn hlk => h id txn (lookup_of_rollback hlk)
  | commitDirectly other =>
    refine h.through fun txn txn' hac hcm => ?_
    simp [RegistryTransaction.commit, hac] at hcm
  | rollbackDirectly other => exact absurd rfl (hdr other)
  | cleanupTimedout currentTime =>
    exact fun id txn hlk => h id txn ((rollbacks_keep _ m).2 id txn hlk)

lemma allActive_afterCalls {maxTransactions : Nat} {calls : List TransactionCall}
    (hdr : ∀ id, .rollbackDirectly id ∉ calls)
    (hf : ∀ before id after, calls = before ++ .commit id :: after →
      (afterCalls maxTransactions before).hasConflicts id ≠ .ok true) :
    AllActive (afterCalls maxTransactions calls) := by
  induction calls using reverseRecOn with
  | nil => exact nofun
  | append_singleton calls c ih =>
    have hbf : AllActive (afterCalls maxTransactions calls) := by
      refine ih (fun id hid => hdr id (mem_append_left _ hid)) fun before id after heq => ?_
      exact hf before id (after ++ [c]) (by rw [heq, append_assoc, cons_append])
    unfold afterCalls
    rw [final_append]
    refine hbf.call ?_ ?_
    · rintro id rfl
      exact hdr id (mem_append_right _ mem_cons_self)
    · rintro id rfl
      exact hf calls id [] rfl

/-- If no commit finds a conflict and no transaction is rolled back behind the manager's back, every
transaction in the map is active, and `begin` fails only if there are `max_transactions` of them. -/
theorem no_slot_leaks {maxTransactions : Nat} {calls : List TransactionCall} {m : TransactionManager}
    (hm : m = afterCalls maxTransactions calls) (hdirect : ∀ id, .rollbackDirectly id ∉ calls)
    (hfree : ∀ before id after, calls = before ++ .commit id :: after →
      (afterCalls maxTransactions before).hasConflicts id ≠ .ok true) :
    (∀ id txn, m.transactions.lookup id = some txn → txn.state = .active) ∧
    m.activeCount = (m.transactions.entries.filter (·.2.isActive)).length ∧
    ∀ isolation timeoutUs e, (m.begin isolation timeoutUs).1 = .error e →
      m.maxTransactions ≤ (m.transactions.entries.filter (·.2.isActive)).length := by
  subst hm
  have hac := allActive_afterCalls hdirect hfree
  have ha : (afterCalls maxTransactions calls).transactions.entries.filter (·.2.isActive)
      = (afterCalls maxTransactions calls).transactions.entries := by
    rw [filter_eq_self]
    exact fun entry hen => decide_eq_true (hac _ _ (AList.mem_lookup_iff.mpr hen))
  rw [ha]
  refine ⟨hac, length_map _, fun isolation timeoutUs e he => ?_⟩
  by_contra hro
  unfold TransactionManager.begin at he
  rw [if_neg (by rw [AList.keys, keys, length_map]; exact hro)] at he
  cases he

/-- One transaction is committed, which makes room for another one. -/
def oneEnded : List TransactionCall := [.begin .readCommitted 9, .commit 1, .begin .readCommitted 9]

theorem no_slot_leaks_full :
    (∀ id txn, (afterCalls 1 oneEnded).transactions.lookup id = some txn → txn.state = .active) ∧
    (afterCalls 1 oneEnded).transactions.keys = [2] ∧
    ((afterCalls 1 oneEnded).begin .readCommitted 9).1 = .error .outOfBounds := by
  refine ⟨(@no_slot_leaks 1 oneEnded _ rfl (by simp [oneEnded]) ?_).1, rfl, rfl⟩
  intro before id after h
  rcases before with _ | ⟨c, _ | ⟨c', _ | ⟨c'', before⟩⟩⟩ <;> simp [oneEnded] at h
  obtain ⟨rfl, rfl, -⟩ := h
  decide +kernel

/-- The second of two writers is refused. It stays in the map, aborted: no transaction is active and
none can be begun. -/
theorem refused_commit_keeps_slot : let m := afterCalls 1 (oneAfterTheOther ++ [.commit 2])
    m.transactions.entries.map (·.2.state) = [.aborted] ∧ m.activeCount = 1 ∧
      (m.begin .readCommitted 9).1 = .error .outOfBounds := by
  decide +kernel

end

end Nt61.Registry
