/-
Model — `ke/scheduler.rs`: ready queues, dispatch and load balancing.

Every PRCB (the control block of one CPU) has 32 ready queues, lists through the
`global_thread_list_entry` of the threads, and a summary word with one bit for each of them. Every
thread records where it was queued, so that `remove_ready` can find it again.

The operations run under the global scheduler lock, so each of them is one step; they free every
lock they take, so a lock is refused only for an index outside its table or a CPU number that cannot
own one. An arithmetic overflow ends the run (`none`), and so does a list without an end.
-/
import Mathlib.Data.BitVec
import Nt61.Lib.DList

namespace Nt61.Scheduler

open Function

/-! ## Threads, PRCBs, the scheduler -/

def MAX_CPUS : Nat := 64
def MAX_PERCPU_LOCKS : Nat := 32
def MAX_PRIORITY : Nat := 32
def BALANCE_THRESHOLD_DEFAULT : Nat := 2
/-- `Irql::DispatchLevel`; the levels are numbered from `Passive = 0` up. -/
def DISPATCH_LEVEL : Nat := 2
def USIZE_MAX : Nat := 2 ^ 64 - 1

inductive KThreadState where
  | initialized
  | ready
  | running
  | standby
  | terminated
  | waiting
  | transition
  deriving DecidableEq, Repr

/-- The fields of `Kthread` the scheduler reads or writes, but for the list entry. -/
structure Kthread where
  state : KThreadState
  priority : Int8
  basePriority : Int8
  affinityMask : BitVec 64
  affinitized : UInt8
  homeCpu : UInt8
  /-- `0xFF`: never queued. -/
  queuedPriority : UInt8
  queuedCpu : UInt16
  deriving DecidableEq

abbrev Level := Fin 32

abbrev ListHead (n : Nat) := DList.Head (Fin n)
abbrev ListEntry (n : Nat) := DList.Links (Fin n)

structure Prcb (n : Nat) where
  currentThread : Option (Fin n)
  readySummary : BitVec 32
  readyQueues : Level → ListHead n

def Prcb.new {n : Nat} (currentThread : Option (Fin n)) : Prcb n :=
  { currentThread := currentThread, readySummary := 0, readyQueues := fun _ => DList.Head.new }

structure State (n : Nat) where
  threads : Fin n → Kthread
  entries : Fin n → ListEntry n
  cpus : Nat → Option (Prcb n)
  currentCpu : Nat
  numCpus : Nat
  smpInitialized : Bool
  pendingReschedule : Nat → Bool
  numCpus_le : numCpus ≤ MAX_CPUS

variable {n : Nat}

namespace State

variable (s : State n)

def prcb (cpu : Nat) : Option (Prcb n) := if cpu < MAX_CPUS then s.cpus cpu else none

def store (cpu : Nat) (prcb : Prcb n) (entries : Fin n → ListEntry n) : State n :=
  { s with cpus := update s.cpus cpu (some prcb), entries := entries }

def modifyThread (t : Fin n) (f : Kthread → Kthread) : State n :=
  { s with threads := update s.threads t (f (s.threads t)) }

def setState (t : Fin n) (state : KThreadState) : State n :=
  s.modifyThread t fun k => { k with state := state }

end State

def allows (affinity : BitVec 64) (cpu : Nat) : Bool := affinity &&& (1#64 <<< cpu) != 0#64

def countOnes (mask : BitVec 64) : Nat := (List.range 64).countP mask.getLsbD

def trailingZeros (mask : BitVec 64) : Nat := (List.range 64).findIdx mask.getLsbD

def levelOf (priority : UInt8) : Level := ⟨min priority.toNat 31, by omega⟩

def clampPriority (priority : Int8) : Level := ⟨min priority.toInt.toNat 31, by omega⟩

/-! ## Locks.

`me` is what `get_current_cpu` returns on the CPU that runs the operation; it is 0 before the per-CPU
areas are installed, which makes the two cases of `current_lock_owner` one. -/

def currentLockOwner (me : Nat) : Option Nat := if me < 255 then some (me + 1) else none

def lockReadyQueue (me cpu priority : Nat) : Bool :=
  decide (cpu < MAX_CPUS) && decide (priority < MAX_PRIORITY) && (currentLockOwner me).isSome

/-- Two queue locks in a row: the second one is refused to the CPU that holds it already. -/
def lockReadyQueues (me cpu cpu' priority : Nat) : Bool :=
  lockReadyQueue me cpu priority && lockReadyQueue me cpu' priority && cpu != cpu'

def lockPrcb (me cpu : Nat) : Bool :=
  decide (cpu < MAX_PERCPU_LOCKS) && (currentLockOwner me).isSome

/-! ## The queue of one CPU and level -/

def levelBit (p : Level) : BitVec 32 := 1#32 <<< p.val

/-- `31 - summary.leading_zeros()`. -/
def highestLevel (summary : BitVec 32) : Level := ⟨31 - summary.clz.toNat, by omega⟩

def Prcb.shrink (prcb : Prcb n) (p : Level) (queue : ListHead n) : Prcb n :=
  { prcb with
    readyQueues := update prcb.readyQueues p queue
    readySummary :=
      if queue.isEmpty then prcb.readySummary &&& ~~~(levelBit p) else prcb.readySummary }

/-- Store a queue that has got a thread, and set its bit. -/
def Prcb.grow (prcb : Prcb n) (p : Level) (queue : ListHead n) : Prcb n :=
  { prcb with
    readyQueues := update prcb.readyQueues p queue
    readySummary := prcb.readySummary ||| levelBit p }

namespace State

variable (s : State n)

/-- `add_tail` and `fetch_or`, if the CPU is registered. -/
def enqueue (cpu : Nat) (p : Level) (t : Fin n) : State n :=
  match s.prcb cpu with
  | none => s
  | some prcb =>
    let (queue, entries) := DList.addTail (prcb.readyQueues p) s.entries t
    s.store cpu (prcb.grow p queue) entries

def dequeue (cpu : Nat) (p : Level) (t : Fin n) : State n :=
  match s.prcb cpu with
  | none => s
  | some prcb =>
    let (queue, entries) := DList.unlink (prcb.readyQueues p) s.entries t
    s.store cpu (prcb.shrink p queue) entries

def takeHead (cpu : Nat) (p : Level) : Option (Fin n) × State n :=
  match s.prcb cpu with
  | none => (none, s)
  | some prcb =>
    match DList.removeHead (prcb.readyQueues p) s.entries with
    | none => (none, s)
    | some (t, queue, entries) => (some t, s.store cpu (prcb.shrink p queue) entries)

def setLocation (t : Fin n) (cpu : Nat) (priority : UInt8) : State n :=
  s.modifyThread t fun k => { k with queuedPriority := priority, queuedCpu := UInt16.ofNat cpu }

def levelByte (p : Level) : UInt8 := UInt8.ofNat p.val

def link (cpu : Nat) (p : Level) (t : Fin n) : State n :=
  (s.enqueue cpu p t).setLocation t cpu (levelByte p)

/-! ## `add_ready`, `remove_ready`, `set_priority` -/

/-- The CPU `add_ready` aims at: the home CPU if the mask allows it, otherwise the scheduler's
current CPU. `none`: `1u64 << home_cpu` overflows. -/
def targetCpu (t : Fin n) : Option Nat :=
  let home := (s.threads t).homeCpu.toNat
  if home < 64 then
    some (if allows (s.threads t).affinityMask home then home else s.currentCpu)
  else none

def addReady (me : Nat) (thread : Option (Fin n)) (priority : UInt8) (s : State n) :
    Option (State n) :=
  match thread with
  | none => some s
  | some t =>
    let p := levelOf priority
    (s.targetCpu t).map fun target =>
      if !lockReadyQueue me target p then s
      else if s.smpInitialized && decide (target < MAX_CPUS) && (s.prcb target).isSome then
        s.link target p t
      -- single-CPU mode, and CPUs that are not registered
      else if (s.prcb 0).isSome then s.link 0 p t
      else s

def removeFrom (me : Nat) (t : Fin n) (cpu : Nat) (p : Level) (s : State n) :
    Option (Bool × State n) :=
  if !lockReadyQueue me cpu p then some (false, s)
  else
    match s.prcb cpu with
    | none => some (false, s)
    | some prcb =>
      (DList.find s.entries (fun entry => entry == t) n (prcb.readyQueues p).head).map fun found =>
        if found.isSome then (true, (s.dequeue cpu p t).setLocation t 0 0xFF) else (false, s)

def removeReady (me : Nat) (thread : Option (Fin n)) (s : State n) : Option (Bool × State n) :=
  match thread with
  | none => some (false, s)
  | some t =>
    if h : (s.threads t).queuedPriority.toNat < 32 then
      removeFrom me t (s.threads t).queuedCpu.toNat ⟨(s.threads t).queuedPriority.toNat, h⟩ s
    else some (false, s)

def setPriority (me : Nat) (t : Fin n) (priority : Int8) (s : State n) : Option (State n) :=
  let s := s.modifyThread t fun k => { k with basePriority := priority, priority := priority }
  if (s.threads t).state = .ready then
    (removeReady me (some t) s).bind fun (removed, s) =>
      if removed then
        addReady me (some t) (levelByte (clampPriority (s.threads t).priority)) s
      else some s
  else some s

/-! ## `schedule` -/

def requestReschedule (cpu : Nat) : State n :=
  if cpu < MAX_CPUS then
    { s with pendingReschedule := update s.pendingReschedule cpu true }
  else s

def current (cpu : Nat) : Option (Fin n) := (s.prcb cpu).bind Prcb.currentThread

def setCurrent (cpu : Nat) (t : Fin n) : State n :=
  match s.prcb cpu with
  | none => s
  | some prcb => s.store cpu { prcb with currentThread := some t } s.entries

/-- Take the first thread off the highest queue of `cpu`. `none`: the queue lock was refused. -/
def takeNext (me cpu : Nat) (s : State n) : Option (Option (Fin n) × State n) :=
  match s.prcb cpu with
  | none => some (none, s)
  | some prcb =>
    if prcb.readySummary = 0 then some (none, s)
    else if !lockReadyQueue me cpu (highestLevel prcb.readySummary) then none
    else some (s.takeHead cpu (highestLevel prcb.readySummary))

/-- A thread that leaves the CPU in state `Running` goes back to the end of its queue. -/
def requeue (cpu : Nat) (cur : Fin n) : State n :=
  let p := clampPriority (s.threads cur).priority
  if (s.threads cur).state = .running && (s.prcb cpu).isSome && lockReadyQueue cpu cpu p then
    (s.link cpu p cur).setState cur .ready
  else s

def switchTo (cpu : Nat) (current : Option (Fin n)) (next : Fin n) : State n :=
  let s := match current with
    | some cur => s.requeue cpu cur
    | none => s
  (s.setCurrent cpu next).setState next .running

def sourceCpu (cpu : Nat) : Nat := if s.smpInitialized && decide (cpu < MAX_CPUS) then cpu else 0

def schedule (cpu irql : Nat) (s : State n) : Bool × State n :=
  if irql > DISPATCH_LEVEL then (false, s.requestReschedule cpu)
  else if !lockPrcb cpu cpu then (false, s)
  else
    match takeNext cpu (s.sourceCpu cpu) s with
    | none => (false, s)
    | some (none, s') => (false, s')
    | some (some next, s') =>
      if some next ≠ s.current cpu then (true, s'.switchTo cpu (s.current cpu) next)
      else (false, s')

/-! ## Load balancing -/

def calculateCpuLoad (prcb : Prcb n) : Option Nat :=
  (List.finRange 32).foldlM (fun count p =>
    (DList.walk s.entries n (prcb.readyQueues p).head).map fun queued => count + queued.length) 0

def calculateBalanceThreshold (avgLoad : Nat) : Nat :=
  if avgLoad < 4 then BALANCE_THRESHOLD_DEFAULT else BALANCE_THRESHOLD_DEFAULT + 1

structure Loads where
  maxLoad : Nat
  minLoad : Nat
  maxCpu : Nat
  minCpu : Nat
  totalLoad : Nat
  deriving DecidableEq

def Loads.new : Loads := ⟨0, USIZE_MAX, 0, 0, 0⟩

def Loads.visit (acc : Loads) (cpu load : Nat) : Loads :=
  { maxLoad := if load > acc.maxLoad then load else acc.maxLoad
    maxCpu := if load > acc.maxLoad then cpu else acc.maxCpu
    minLoad := if load < acc.minLoad then load else acc.minLoad
    minCpu := if load < acc.minLoad then cpu else acc.minCpu
    totalLoad := acc.totalLoad + load }

def cpuLoads : Option Loads :=
  (List.range s.numCpus).foldlM (fun acc cpu =>
    match s.prcb cpu with
    | none => some acc
    | some prcb => (s.calculateCpuLoad prcb).map (acc.visit cpu)) Loads.new

/-- Threads that are not pinned to one CPU. -/
def migratable (t : Fin n) : Bool :=
  (s.threads t).affinitized == 0 || decide (countOnes (s.threads t).affinityMask > 1)

def findMigratableFrom (s : State n) (prcb : Prcb n) : List Level → Option (Option (Fin n × Level))
  | [] => some none
  | p :: levels =>
    (DList.find s.entries s.migratable n (prcb.readyQueues p).head).bind fun
      | some t => some (some (t, p))
      | none => findMigratableFrom s prcb levels

def findMigratableThread (prcb : Prcb n) : Option (Option (Fin n × Level)) :=
  s.findMigratableFrom prcb (List.finRange 32)

structure Migration (n : Nat) where
  thread : Fin n
  priority : Level
  maxCpu : Nat
  minCpu : Nat
  deriving DecidableEq

/-- The thread both balancers would move, if the loads differ enough. -/
def findMigration : Option (Option (Migration n)) :=
  s.cpuLoads.bind fun loads =>
    let threshold := calculateBalanceThreshold (loads.totalLoad / s.numCpus)
    -- `min_load` is still `usize::MAX` if no CPU is registered
    if loads.minLoad + threshold > USIZE_MAX then none
    else if loads.maxLoad > loads.minLoad + threshold && decide (loads.maxLoad > 0) then
      match s.prcb loads.maxCpu with
      | none => some none
      | some prcb => (s.findMigratableThread prcb).map fun found =>
        found.map fun (t, p) => ⟨t, p, loads.maxCpu, loads.minCpu⟩
    else some none

/-- `ki_balance_processor` moves the thread and its home CPU. -/
def kiBalanceProcessor (me targetCpu : Nat) (s : State n) : Option (State n) :=
  if !s.smpInitialized then some s
  else if targetCpu ≥ s.numCpus || decide (s.numCpus ≤ 1) then some s
  else
    s.findMigration.map fun
      | none => s
      | some m =>
        if !lockReadyQueues me m.maxCpu m.minCpu m.priority then s
        else
          ((s.dequeue m.maxCpu m.priority m.thread).modifyThread m.thread
            fun k => { k with homeCpu := UInt8.ofNat m.minCpu }).enqueue m.minCpu m.priority m.thread

/-- A new home CPU. The mask is looked at, but a CPU outside it is refused for the empty mask only. -/
def migrateThreadLocked (t : Fin n) (fromCpu toCpu : Nat) : State n :=
  if fromCpu ≥ MAX_CPUS then s
  else
    let affinity := (s.threads t).affinityMask
    if (decide (toCpu ≥ MAX_CPUS) || !allows affinity toCpu) && decide (trailingZeros affinity ≥ MAX_CPUS)
    then s
    else s.modifyThread t fun k => { k with homeCpu := UInt8.ofNat toCpu }

/-- `balance_load` moves the thread, its home CPU and the recorded location. -/
def balanceLoad (me : Nat) (s : State n) : Option (State n) :=
  if !s.smpInitialized then some s
  else if s.numCpus ≤ 1 then some s
  else
    s.findMigration.map fun
      | none => s
      | some m =>
        if !lockReadyQueues me m.maxCpu m.minCpu m.priority then s
        else
          let s := (s.dequeue m.maxCpu m.priority m.thread).migrateThreadLocked m.thread m.maxCpu m.minCpu
          if (s.prcb m.minCpu).isSome then s.link m.minCpu m.priority m.thread else s

end State

/-! ## Runs -/

/-- One call. `mark` is a write of a thread's state by code outside the scheduler, which parks,
wakes and ends threads. -/
inductive Op (n : Nat) where
  | addReady (me : Nat) (t : Fin n) (priority : UInt8)
  | removeReady (me : Nat) (t : Fin n)
  | schedule (cpu irql : Nat)
  | setPriority (me : Nat) (t : Fin n) (priority : Int8)
  | kiBalanceProcessor (me targetCpu : Nat)
  | balanceLoad (me : Nat)
  | mark (t : Fin n) (state : KThreadState)

def step : Op n → State n → Option (State n)
  | .addReady me t priority, s => s.addReady me (some t) priority
  | .removeReady me t, s => (s.removeReady me (some t)).map Prod.snd
  | .schedule cpu irql, s => some (s.schedule cpu irql).2
  | .setPriority me t priority, s => s.setPriority me t priority
  | .kiBalanceProcessor me targetCpu, s => s.kiBalanceProcessor me targetCpu
  | .balanceLoad me, s => s.balanceLoad me
  | .mark t state, s => some (s.setState t state)

end Nt61.Scheduler
