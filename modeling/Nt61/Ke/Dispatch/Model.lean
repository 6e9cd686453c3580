/-
Model — `ke/dispatch.rs` and the waits of `ke/sync.rs`: waiting for dispatcher objects.

A thread that waits has a slot in a table of 192 wait entries and is linked into one wait list for
all objects, a ring through its head; here a pointer to the head is `none`. The blocks under the
wait list lock are one step each. The test of the signal in `wait_single`, and the search for the
result after `schedule` has come back, are outside the lock and are steps of their own.
-/
import Nt61.Ke.Scheduler.Model
import Nt61.Lib.Run

namespace Nt61.Dispatch

open Scheduler Function

/-! ## Objects, wait entries, the dispatcher -/

def WAIT_LIST_MAX : Nat := 128
def WAIT_LIST_EXTRA : Nat := 64
def WAIT_LIST_TOTAL : Nat := WAIT_LIST_MAX + WAIT_LIST_EXTRA
def U32_MAX : Nat := 2 ^ 32 - 1
def U64_MAX : Nat := 2 ^ 64 - 1

/-- The fields of `DispatcherHeader` that waits read. -/
structure DispatcherHeader where
  type_ : UInt8
  signalState : UInt8
  deriving DecidableEq

/-- A wait entry. Its `header` is never used. -/
structure WaitEntry (n : Nat) (O : Type) where
  thread : Option (Fin n)
  object : Option O
  deadlineTicks : Nat
  inUse : Bool
  signalled : Bool
  resultPending : Bool
  deriving DecidableEq

def WaitEntry.empty {n : Nat} {O : Type} : WaitEntry n O := ⟨none, none, 0, false, false, false⟩

/-- A slot of the two pools of wait entries, the primary one first. -/
abbrev Slot := Fin WAIT_LIST_TOTAL

structure Dispatcher (n : Nat) (O : Type) where
  sched : State n
  objects : O → DispatcherHeader
  entries : Slot → WaitEntry n O
  waitHead : DList.Head (Fin n)
  waitLinks : Fin n → DList.Links (Fin n)

inductive WaitResult where
  | success
  | abandoned
  | timeout
  | error
  deriving DecidableEq

variable {n : Nat} {O : Type} [DecidableEq O]

/-! ## Priority boosts -/

def PRIORITY_BOOST_IOTHREAD : Int8 := 1
def PRIORITY_BOOST_SETEVENT : Int8 := 2
def PRIORITY_BOOST_SPECIAL : Int8 := 2
def PRIORITY_BOOST_MUTANT : Int8 := 1
def MAX_BOOSTED_PRIORITY : Int8 := 15

inductive PriorityBoostType where
  | ioCompletion
  | eventSet
  | special
  | mutantRelease
  deriving DecidableEq

def PriorityBoostType.amount : PriorityBoostType → Int8
  | .ioCompletion => PRIORITY_BOOST_IOTHREAD
  | .eventSet => PRIORITY_BOOST_SETEVENT
  | .special => PRIORITY_BOOST_SPECIAL
  | .mutantRelease => PRIORITY_BOOST_MUTANT

/-- It is below 15 when the amount is added, so the addition does not overflow. -/
def boostedPriority (k : Kthread) (boost : PriorityBoostType) : Int8 :=
  let base := if k.priority < k.basePriority then k.basePriority else k.priority
  if base < MAX_BOOSTED_PRIORITY then
    let boosted := min (base + boost.amount) MAX_BOOSTED_PRIORITY
    if boosted > base then boosted else base
  else base

/-- `ki_boost_thread`, which only ever raises the priority. -/
def kiBoostThread (s : State n) (t : Fin n) (boost : PriorityBoostType) : Int8 × State n :=
  let priority := boostedPriority (s.threads t) boost
  (priority, s.modifyThread t fun k =>
    { k with priority := if priority > k.priority then priority else k.priority })

def boostOf (type_ : UInt8) : PriorityBoostType :=
  if type_ = 0 then .eventSet else if type_ = 1 then .mutantRelease else .special

/-! ## The blocks under the wait list lock -/

namespace Dispatcher

variable (d : Dispatcher n O)

/-- The thread of `with_current_thread`: the current one of the scheduler's current CPU. -/
def currentThread : Option (Fin n) := d.sched.current d.sched.currentCpu

def findFreeSlot : Option Slot :=
  (List.finRange WAIT_LIST_TOTAL).find? fun i => !(d.entries i).inUse && !(d.entries i).resultPending

/-- `u32::MAX` waits for ever. -/
def deadline (now timeoutMs : Nat) : Nat := if timeoutMs = U32_MAX then U64_MAX else now + timeoutMs

/-- The first block of `wait_on`. `none`: the wait ends with `Error`. -/
def park (object : O) (timeoutMs now : Nat) : Option (Dispatcher n O) :=
  d.currentThread.bind fun t =>
    d.findFreeSlot.map fun i =>
      let (waitHead, waitLinks) := DList.addTail d.waitHead d.waitLinks t
      { d with
        sched := d.sched.setState t .waiting
        entries := update d.entries i { d.entries i with
          thread := some t, object := some object, deadlineTicks := deadline now timeoutMs,
          inUse := true, signalled := false }
        waitHead := waitHead
        waitLinks := waitLinks }

/-- The slot of the linked thread `t` that the test accepts. -/
def slotOf (test : WaitEntry n O → Bool) (t : Fin n) : Option Slot :=
  (List.finRange WAIT_LIST_TOTAL).find? fun i =>
    (d.entries i).inUse && decide ((d.entries i).thread = some t) && test (d.entries i)

/-- End the wait of thread `t`: free the slot `i` but for its result. `none`: `add_ready` overflows. -/
def unpark (me : Nat) (signalled : Bool) (boost : PriorityBoostType) (i : Slot)
    (t : Fin n) : Option (Dispatcher n O) :=
  let (priority, sched) := kiBoostThread (d.sched.setState t .ready) t boost
  (sched.addReady me (some t) priority.toUInt8).map fun sched =>
    let (waitHead, waitLinks) := DList.unlink d.waitHead d.waitLinks t
    { d with
      sched := sched
      entries := update d.entries i { d.entries i with
        inUse := false, signalled := signalled, resultPending := true }
      waitHead := waitHead
      -- the entry points to itself, not to null
      waitLinks := update waitLinks t ⟨some t, some t⟩ }

/-- End the waits from `cur` on that the test accepts: all of them, or the first one only. The next
thread is read before the list changes. `none`: out of fuel, or `add_ready` overflows. -/
def sweep (me : Nat) (test : WaitEntry n O → Bool) (signalled : Bool) (boost : PriorityBoostType)
    (all : Bool) : Nat → Option (Fin n) → Nat → Dispatcher n O → Option (Nat × Dispatcher n O)
  | _, none, woken, d => some (woken, d)
  | 0, some _, _, _ => none
  | fuel + 1, some t, woken, d =>
    let next := (d.waitLinks t).flink
    match d.slotOf test t with
    | none => sweep me test signalled boost all fuel next woken d
    | some i =>
      (d.unpark me signalled boost i t).bind fun d =>
        if all then sweep me test signalled boost all fuel next (woken + 1) d
        else some (woken + 1, d)

def wake (me : Nat) (object : O) (all : Bool) : Option (Nat × Dispatcher n O) :=
  sweep me (fun entry => decide (entry.object = some object)) true
    (boostOf (d.objects object).type_) all n d.waitHead.head 0 d

def tickWaitList (me now : Nat) : Option (Dispatcher n O) :=
  (sweep me (fun entry => decide (entry.deadlineTicks ≤ now)) false .special true n d.waitHead.head 0
    d).map Prod.snd

/-- One round of the search for the result: `none` if the entry is of another wait. -/
def collect (object : O) (current : Option (Fin n)) (i : Slot) :
    Option (WaitResult × Dispatcher n O) :=
  let entry := d.entries i
  if entry.thread = current ∧ entry.object = some object then
    let entry' := { entry with signalled := false, resultPending := false }
    some (if entry.signalled then .success else .timeout,
      { d with entries := update d.entries i entry' })
  else none

def setSignal (object : O) (signalState : UInt8) : Dispatcher n O :=
  let header := { d.objects object with signalState := signalState }
  { d with objects := update d.objects object header }

end Dispatcher

/-! ## The system: callers that wait and signal -/

inductive Phase (n : Nat) (O : Type) where
  | idle
  /-- In `wait_on`, before the first block. -/
  | entering (object : O) (timeoutMs : Nat)
  /-- In `wait_on`, in the call of `schedule`. -/
  | yielded (object : O)
  /-- In `wait_on`, at the given slot of the search for the result. -/
  | collecting (object : O) (current : Option (Fin n)) (slot : Nat)
  /-- Between the write of `signal_state` and the end of `wake`. -/
  | raised (object : O)
  deriving DecidableEq

/-- The callers `C` and what their last waits have returned. -/
structure System (n : Nat) (O C : Type) where
  dispatcher : Dispatcher n O
  phase : C → Phase n O
  result : C → Option WaitResult

inductive Op (n : Nat) (O C : Type) where
  /-- `wait_single`: the test of the signal. -/
  | waitSingle (c : C) (object : O) (timeoutMs : Nat)
  /-- A call of `wait_on`. -/
  | waitOn (c : C) (object : O) (timeoutMs : Nat)
  /-- The first block of `wait_on`. -/
  | park (c : C) (now : Nat)
  /-- `schedule` returns, on a CPU whose thread is `current`. -/
  | resume (c : C) (current : Option (Fin n))
  /-- One round of the search for the result. -/
  | collect (c : C)
  /-- A signaller writes 1 to `signal_state`. -/
  | raise (c : C) (object : O)
  /-- The signaller calls `wake(object, true)`. -/
  | wake (c : C) (me : Nat)
  /-- `signal_state` is cleared. -/
  | clear (object : O)
  | tick (me now : Nat)
  /-- Other code of the kernel changes the scheduler. -/
  | kernel (sched : State n)

namespace System

variable {C : Type} [DecidableEq C]

variable (s : System n O C)

def goto (c : C) (phase : Phase n O) : System n O C := { s with phase := update s.phase c phase }

def finish (c : C) (result : WaitResult) : System n O C :=
  { s with
    phase := update s.phase c .idle
    result := update s.result c (some result) }

def setDispatcher (d : Dispatcher n O) : System n O C := { s with dispatcher := d }

/-- The first block of `wait_on`, for the caller `c`. -/
def parkFor (c : C) (object : O) (timeoutMs now : Nat) : System n O C :=
  match s.dispatcher.park object timeoutMs now with
  | none => s.finish c .error
  | some d => (s.setDispatcher d).goto c (.yielded object)

/-- One round of the search, or its end without a result. -/
def collectFor (c : C) (object : O) (current : Option (Fin n)) (slot : Nat) : System n O C :=
  if h : slot < WAIT_LIST_TOTAL then
    match s.dispatcher.collect object current ⟨slot, h⟩ with
    | none => s.goto c (.collecting object current (slot + 1))
    | some (result, d) => (s.setDispatcher d).finish c result
  else s.finish c .timeout

end System

def step {C : Type} [DecidableEq C] : Op n O C → System n O C → Option (System n O C)
  | .waitSingle c object timeoutMs, s =>
    match s.phase c with
    | .idle =>
      if (s.dispatcher.objects object).signalState ≠ 0 then some (s.finish c .success)
      else if timeoutMs = 0 then some (s.finish c .timeout)
      else some (s.goto c (.entering object timeoutMs))
    | _ => none
  | .waitOn c object timeoutMs, s =>
    match s.phase c with
    | .idle => some (s.goto c (.entering object timeoutMs))
    | _ => none
  | .park c now, s =>
    match s.phase c with
    | .entering object timeoutMs => some (s.parkFor c object timeoutMs now)
    | _ => none
  | .resume c current, s =>
    match s.phase c with
    | .yielded object => some (s.goto c (.collecting object current 0))
    | _ => none
  | .collect c, s =>
    match s.phase c with
    | .collecting object current slot => some (s.collectFor c object current slot)
    | _ => none
  | .raise c object, s =>
    match s.phase c with
    | .idle => some ((s.setDispatcher (s.dispatcher.setSignal object 1)).goto c (.raised object))
    | _ => none
  | .wake c me, s =>
    match s.phase c with
    | .raised object =>
      (s.dispatcher.wake me object true).map fun (_, d) => (s.setDispatcher d).goto c .idle
    | _ => none
  | .clear object, s => some (s.setDispatcher (s.dispatcher.setSignal object 0))
  | .tick me now, s => (s.dispatcher.tickWaitList me now).map s.setDispatcher
  | .kernel sched, s => some (s.setDispatcher { s.dispatcher with sched := sched })

end Nt61.Dispatch
