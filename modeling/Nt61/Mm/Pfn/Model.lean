/-
Model — the page frame database of `mm/pfn.rs`.

Every page frame has an entry with its state, packed into the low bits of a flag word, and the links
of the one list that it may be on; page frame 0 stands for the end of a list. The fields that the
lists do not depend on are left out. A panic (`expect`, an overflow) is `none`.
-/
import Nt61.Lib.Checked

namespace Nt61.Pfn

open Lib.Checked

/-! ## States and entries -/

inductive MMPFNSTATE where
  | active
  | transition
  | standby (priority : Fin 8)
  | modified
  | modifiedNoWrite
  | free
  | zeroed
  | bad
  | rom
  deriving DecidableEq, Repr

namespace MMPFNSTATE

def asU32 : MMPFNSTATE → Nat
  | .active => 0
  | .transition => 1
  | .standby i => 2 + i
  | .modified => 10
  | .modifiedNoWrite => 11
  | .free => 12
  | .zeroed => 13
  | .bad => 14
  | .rom => 15

def fromBits (b : Nat) : MMPFNSTATE :=
  if b = 0 then .active
  else if b = 1 then .transition
  else if h : 2 ≤ b ∧ b ≤ 9 then .standby ⟨b - 2, by omega⟩
  else if b = 10 then .modified
  else if b = 11 then .modifiedNoWrite
  else if b = 12 then .free
  else if b = 13 then .zeroed
  else if b = 14 then .bad
  else if b = 15 then .rom
  else .active

def isStandby : MMPFNSTATE → Bool
  | .standby _ => true
  | _ => false

end MMPFNSTATE

structure MMPFN where
  flink : Nat
  blink : Nat
  /-- `u2.raw`. -/
  raw : Nat
  referenceCount : Nat
  shareCount : Nat
  deriving DecidableEq, Repr

namespace MMPFN

def empty : MMPFN := ⟨0, 0, 0, 0, 0⟩

variable (e : MMPFN)

def state : MMPFNSTATE := .fromBits (e.raw &&& 0xF)

def setState (s : MMPFNSTATE) : MMPFN :=
  { e with raw := (e.raw &&& 0xFFFFFFF0) ||| (s.asU32 &&& 0xF) }

def setStandbyPriority (p : Nat) : MMPFN :=
  { e with raw := (e.raw &&& 0xFFFFFF8F) ||| ((p &&& 0x7) <<< 4) }

end MMPFN

/-! ## The database -/

def PFNL_FREE : Nat := 0
def PFNL_ZEROED : Nat := 1
def PFNL_STANDBY0 : Nat := 2
def PFNL_MODIFIED : Nat := 10
def PFNL_MODIFIED_NW : Nat := 11
def PFNL_BAD : Nat := 12
def PFNL_TRANSITION : Nat := 13

def MMPFN_SIZE : Nat := 96

structure ListHead where
  head : Nat
  count : Nat
  deriving DecidableEq, Repr

/-- The database; `pfnArray` is indexed by page frames. -/
structure PfnDatabase where
  pfnArray : Nat → MMPFN
  pfnCount : Nat
  lowestPfn : Nat
  highestPfn : Nat
  initialized : Bool
  lists : Nat → ListHead
  stateCounts : Nat → Nat
  totalFree : Nat
  totalZeroed : Nat
  totalStandby : Nat
  totalModified : Nat

def listIndexFor : MMPFNSTATE → Nat
  | .free => PFNL_FREE
  | .zeroed => PFNL_ZEROED
  | .bad => PFNL_BAD
  | .modified => PFNL_MODIFIED
  | .modifiedNoWrite => PFNL_MODIFIED_NW
  | .transition => PFNL_TRANSITION
  | .standby i => PFNL_STANDBY0 + i
  | _ => PFNL_FREE

/-- A counter as `i64`, plus one or minus one, saturating and never below zero. -/
def bump (current : Nat) (delta : Int) : Nat :=
  let signed : Int := if current < 2 ^ 63 then current else current - 2 ^ 64
  (max (max (-2 ^ 63) (min (2 ^ 63 - 1) (signed + delta))) 0).toNat

namespace PfnDatabase

/-- `PfnDatabase::new`, over storage with any contents. -/
def new (pfnArray : Nat → MMPFN) : PfnDatabase :=
  ⟨pfnArray, 0, 0, 0, false, fun _ => ⟨0, 0⟩, fun _ => 0, 0, 0, 0, 0⟩

variable (db : PfnDatabase)

/-- `init`: `pfn_count` frames from `base_pfn` on, or as many as the storage holds. -/
def init (storageBytes basePfn pfnCount : Nat) : Option PfnDatabase := do
  let bytesNeeded ← mul 64 pfnCount MMPFN_SIZE
  let usablePfns := if bytesNeeded > storageBytes then storageBytes / MMPFN_SIZE else pfnCount
  some
    { db with
      pfnArray := fun pfn =>
        if basePfn ≤ pfn ∧ pfn < basePfn + usablePfns then MMPFN.empty else db.pfnArray pfn
      pfnCount := usablePfns
      lowestPfn := basePfn
      highestPfn := min (basePfn + usablePfns) (2 ^ 64 - 1)
      initialized := true }

variable (pfn : Nat)

/-- `entry` finds the page frame. -/
def inRange : Prop := db.initialized ∧ db.lowestPfn ≤ pfn ∧ pfn < db.highestPfn

instance (pfn : Nat) : Decidable (db.inRange pfn) := inferInstanceAs (Decidable (_ ∧ _ ∧ _))

def state : MMPFNSTATE := (db.pfnArray pfn).state

def modify (f : MMPFN → MMPFN) : PfnDatabase :=
  { db with pfnArray := Function.update db.pfnArray pfn (f (db.pfnArray pfn)) }

/-- Write a forward link of `entry(pfn).expect(..)`, unless the page frame is 0. -/
def setFlink (pfn next : Nat) : Option PfnDatabase :=
  if pfn = 0 then some db
  else if db.inRange pfn then some (db.modify pfn fun e => { e with flink := next })
  else none

def setBlink (pfn prev : Nat) : Option PfnDatabase :=
  if pfn = 0 then some db
  else if db.inRange pfn then some (db.modify pfn fun e => { e with blink := prev })
  else none

def setList (i : Nat) (l : ListHead) : PfnDatabase := { db with lists := Function.update db.lists i l }

def bumpStateCount (s : MMPFNSTATE) (delta : Int) : PfnDatabase :=
  { db with
    stateCounts := Function.update db.stateCounts s.asU32 (bump (db.stateCounts s.asU32) delta)
    totalFree := if s = .free then bump db.totalFree delta else db.totalFree
    totalZeroed := if s = .zeroed then bump db.totalZeroed delta else db.totalZeroed
    totalStandby := if s.isStandby then bump db.totalStandby delta else db.totalStandby
    totalModified := if s = .modified ∨ s = .modifiedNoWrite then bump db.totalModified delta
      else db.totalModified }

def insertHeadEntry : Option PfnDatabase := do
  let state := db.state pfn
  let listIdx := listIndexFor state
  let head := (db.lists listIdx).head
  let db ← (db.modify pfn fun e => { e with flink := head, blink := 0 }).setBlink head pfn
  let count ← add 64 (db.lists listIdx).count 1
  some ((db.setList listIdx ⟨pfn, count⟩).bumpStateCount state 1)

def unlinkEntry : Option PfnDatabase := do
  let state := db.state pfn
  let listIdx := listIndexFor state
  let flink := (db.pfnArray pfn).flink
  let blink := (db.pfnArray pfn).blink
  let head := if blink = 0 then flink else (db.lists listIdx).head
  let count := (db.lists listIdx).count - 1
  let db ← db.setFlink blink flink
  let db ← db.setBlink flink blink
  let db := db.setList listIdx ⟨head, count⟩
  some ((db.modify pfn fun e => { e with flink := 0, blink := 0 }).bumpStateCount state (-1))

def unlink : Option PfnDatabase := if db.inRange pfn then db.unlinkEntry pfn else some db

/-! ## Moving pages -/

/-- The head of a list becomes active. -/
def popList (i : Nat) : Option (Option Nat × PfnDatabase) :=
  let pfn := (db.lists i).head
  if pfn = 0 then some (none, db)
  else if db.inRange pfn then do
    let db ← db.unlinkEntry pfn
    some (some pfn, db.modify pfn fun e => e.setState .active)
  else none

def popFree : Option (Option Nat × PfnDatabase) := db.popList PFNL_FREE

def popZeroed : Option (Option Nat × PfnDatabase) := db.popList PFNL_ZEROED

def popModified : Option (Option Nat × PfnDatabase) := db.popList PFNL_MODIFIED

def popModifiedNoWrite : Option (Option Nat × PfnDatabase) := db.popList PFNL_MODIFIED_NW

/-- The loop of `pop_standby`: the first list that is not empty. -/
def popFirst : List Nat → Option (Option Nat × PfnDatabase)
  | [] => some (none, db)
  | i :: rest => if (db.lists i).head ≠ 0 then db.popList i else popFirst rest

def popStandby : Option (Option Nat × PfnDatabase) := db.popFirst [9, 8, 7, 6, 5, 4, 3, 2]

/-- A page leaves its list if its state is one of those. -/
def takeOff (unlinks : MMPFNSTATE → Bool) : Option PfnDatabase :=
  if unlinks (db.state pfn) then db.unlinkEntry pfn else some db

/-- A page is taken off its list, changes its state and goes on the list of that state. -/
def moveTo (unlinks : MMPFNSTATE → Bool) (f : MMPFN → MMPFN) : Option PfnDatabase :=
  if db.inRange pfn then do
    let db ← db.takeOff pfn unlinks
    (db.modify pfn f).insertHeadEntry pfn
  else some db

/-- The states that `add_to_free` and `reserve_pfn` take off their lists. -/
def onAllocatorList (s : MMPFNSTATE) : Bool :=
  s = .free ∨ s = .zeroed ∨ s.isStandby ∨ s = .modified ∨ s = .modifiedNoWrite ∨ s = .transition

def addToFree : Option PfnDatabase :=
  db.moveTo pfn onAllocatorList fun e =>
    { (e.setState .free).setStandbyPriority 0 with referenceCount := 0, shareCount := 0 }

def standby (pfn priority : Nat) : Option PfnDatabase :=
  let prio := priority &&& 0x7
  let standbyState : MMPFNSTATE := .standby (Fin.ofNat 8 prio)
  db.moveTo pfn (fun s => !(s = .active ∨ s = .transition)) fun e =>
    (e.setState standbyState).setStandbyPriority prio

def modified : Option PfnDatabase :=
  db.moveTo pfn (fun s => !(s = .active ∨ s = .transition)) fun e =>
    (e.setState .modified).setStandbyPriority 0

def insertZeroed : Option PfnDatabase :=
  db.moveTo pfn (fun s => s ≠ .active) fun e => (e.setState .zeroed).setStandbyPriority 0

def seedOne (base i : Nat) : Option PfnDatabase := do
  let pfn ← add 64 base i
  if db.inRange pfn then
    (db.modify pfn fun e =>
      { (e.setState .free).setStandbyPriority 0 with referenceCount := 0, shareCount := 0 })
        |>.insertHeadEntry pfn
  else none

def seedFree (base count : Nat) : Option PfnDatabase :=
  (List.range count).foldlM (fun db i => db.seedOne base i) db

/-! ## Allocation -/

/-- The method `allocate_pfn`: the page is in use. -/
def markActive : PfnDatabase :=
  if db.inRange pfn then
    db.modify pfn fun e => { e.setState .active with referenceCount := 1, shareCount := 1 }
  else db

def pages : List Nat := List.range' db.lowestPfn (db.highestPfn - db.lowestPfn)

/-- One round of the loop that puts free pages on a new list. -/
def reinsert : Option PfnDatabase :=
  if db.inRange pfn ∧ db.state pfn = .free then
    (db.modify pfn fun e => { e with flink := 0, blink := 0 }).insertHeadEntry pfn
  else some db

/-- The repair of a free list without a head. -/
def selfHeal : Option (Option Nat × PfnDatabase) :=
  let freeCount := db.pages.countP fun pfn => decide (db.inRange pfn ∧ db.state pfn = .free)
  if freeCount > 0 then do
    let db ← db.pages.foldlM (fun db pfn => db.reinsert pfn) (db.setList PFNL_FREE ⟨0, 0⟩)
    match ← db.popFree with
    | (some pfn, db) => some (some pfn, db.markActive pfn)
    | (none, db) => some (none, db)
  else some (none, db)

def allocatePfn : Option (Option Nat × PfnDatabase) := do
  match ← db.popZeroed with
  | (some pfn, db) => some (some pfn, db.markActive pfn)
  | (none, db) =>
    match ← db.popFree with
    | (some pfn, db) => some (some pfn, db.markActive pfn)
    | (none, db) => db.selfHeal

def takeRun (start count : Nat) : Option PfnDatabase :=
  (List.range count).foldlM (fun db i => do
    let allocated ← add 64 start i
    let db ← db.unlink allocated
    some (db.markActive allocated)) db

/-- The scan for adjacent free pages: where a run of `count` of them starts. -/
def findRun (count : Nat) : List Nat → Option Nat → Nat → Option Nat
  | [], _, _ => none
  | pfn :: rest, runStart, runLen =>
    if db.inRange pfn ∧ db.state pfn = .free then
      let runStart := runStart.getD pfn
      if runLen + 1 = count then some runStart else findRun count rest (some runStart) (runLen + 1)
    else findRun count rest none 0

def allocatePfnRange (count : Nat) : Option (Option Nat × PfnDatabase) :=
  if count = 0 then some (none, db)
  else
    match db.findRun count db.pages none 0 with
    | some start => (db.takeRun start count).map fun db => (some start, db)
    | none => do
      match ← db.popFree with
      | (some pfn, db) => some (some pfn, db.markActive pfn)
      | (none, db) => some (none, db)

/-- A page is taken off its list and marked as in use. -/
def reserveOne : Option PfnDatabase := do
  let db ← db.takeOff pfn onAllocatorList
  some (db.modify pfn fun e =>
    { e.setState .active with
      referenceCount := if e.referenceCount = 0 then 1 else e.referenceCount
      shareCount := if e.shareCount = 0 then 1 else e.shareCount })

def reservePfn : Option (Bool × PfnDatabase) :=
  if db.inRange pfn then (db.reserveOne pfn).map fun db => (true, db) else some (false, db)

/-- The loop of `reserve_pfn_range`, over the offsets that are left. -/
def reserveLoop (basePfn : Nat) : List Nat → PfnDatabase → Option (Bool × PfnDatabase)
  | [], db => some (true, db)
  | i :: rest, db =>
    if basePfn + i < 2 ^ 64 ∧ db.inRange (basePfn + i) then do
      let db ← db.reserveOne (basePfn + i)
      reserveLoop basePfn rest db
    else some (false, db)

def reservePfnRange (basePfn count : Nat) : Option (Bool × PfnDatabase) :=
  if count = 0 then some (true, db) else reserveLoop basePfn (List.range count) db

end PfnDatabase

end Nt61.Pfn
