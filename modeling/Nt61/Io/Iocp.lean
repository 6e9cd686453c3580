/-
Iocp — `io/iocp.rs`: an I/O completion port under any interleaving.

Each atomic operation of `get_completion` is a step: it takes a worker slot, by a compare-exchange
loop if the port has a limit and by a plain increment if it has none, polls the queue, and gives the
slot back. The counter of the slots has 32 bits; without a limit it counts modulo 2^32.

A system keeps a history that no code reads. A taken packet carries its number in the order of
taking, which tells it from other packets with the same contents.
-/
import Nt61.Lib.Checked
import Nt61.Lib.Count
import Nt61.Lib.Run

namespace Nt61.Iocp

open Lib List

/-! ## The code -/

def MAX_COMPLETION_ENTRIES : Nat := 4096
def STATUS_SUCCESS : UInt32 := 0x00000000
def STATUS_INSUFFICIENT_RESOURCES : UInt32 := 0xC000009A
def STATUS_TIMEOUT : UInt32 := 0x00000102

structure IoCompletionPacket where
  bytesTransferred : UInt64
  completionKey : UInt64
  overlapped : UInt64
  status : UInt32
  deriving DecidableEq

structure IoCompletionPort where
  queue : List IoCompletionPacket
  maxConcurrentThreads : UInt32
  activeThreads : UInt32
  packetsPosted : UInt64
  packetsRetrieved : UInt64
  deriving DecidableEq

namespace IoCompletionPort

def new (maxConcurrentThreads : UInt32) : IoCompletionPort :=
  { queue := []
    maxConcurrentThreads := maxConcurrentThreads
    activeThreads := 0
    packetsPosted := 0
    packetsRetrieved := 0 }

def postCompletion (port : IoCompletionPort) (packet : IoCompletionPacket) :
    UInt32 × IoCompletionPort :=
  if port.queue.length ≥ MAX_COMPLETION_ENTRIES then (STATUS_INSUFFICIENT_RESOURCES, port)
  else
    (STATUS_SUCCESS,
      { port with queue := port.queue ++ [packet], packetsPosted := port.packetsPosted + 1 })

end IoCompletionPort

structure Taken where
  number : Nat
  packet : IoCompletionPacket
  deriving DecidableEq

/-- Where a thread is in `get_completion`. -/
inductive Phase where
  | idle
  /-- Before the load of `active_threads`, or before the increment if there is no limit. -/
  | claiming (timeoutMs : UInt32)
  /-- Before the compare-exchange. -/
  | loaded (timeoutMs : UInt32) (active : UInt32)
  /-- The slot is taken; the deadline is not computed yet. -/
  | claimed (timeoutMs : UInt32)
  /-- Before the next look into the queue. -/
  | polling (deadline : Option Nat)
  /-- The queue was empty; before the look at the clock. -/
  | missed (deadline : Nat)
  /-- Before the slot is given back. -/
  | releasing (packet : Option Taken)
  | returning (packet : Option Taken)
  deriving DecidableEq

def Phase.holds : Phase → Bool
  | .claimed _ => true
  | .polling _ => true
  | .missed _ => true
  | .releasing _ => true
  | _ => false

def Phase.carries : Phase → Option Taken
  | .releasing packet => packet
  | .returning packet => packet
  | _ => none

structure System (T : Type) where
  port : IoCompletionPort
  phase : T → Phase
  posted : List IoCompletionPacket
  taken : List IoCompletionPacket
  results : List (Except UInt32 Taken)

inductive Op (T : Type) where
  | post (packet : IoCompletionPacket)
  /-- A call of `get_completion`. -/
  | enter (t : T) (timeoutMs : UInt32)
  | load (t : T)
  /-- The compare-exchange, which may fail for no reason. -/
  | compareExchange (t : T) (spurious : Bool)
  | increment (t : T)
  /-- Compute the deadline. -/
  | arm (t : T) (now : UInt64)
  | poll (t : T)
  | clock (t : T) (now : UInt64)
  | release (t : T)
  /-- The call returns. -/
  | finish (t : T)

variable {T : Type} [DecidableEq T]

def System.goto (s : System T) (t : T) (phase : Phase) : System T :=
  { s with phase := Function.update s.phase t phase }

def resultOf : Option Taken → Except UInt32 Taken
  | some packet => .ok packet
  | none => .error STATUS_TIMEOUT

/-- A step that does not fit the phase of its thread is none, and so is one that panics. -/
def step : Op T → System T → Option (System T)
  | .post packet, s =>
    let (status, port) := s.port.postCompletion packet
    some { s with
      port := port
      posted := if status = STATUS_SUCCESS then s.posted ++ [packet] else s.posted }
  | .enter t timeoutMs, s =>
    match s.phase t with
    | .idle => some (s.goto t (.claiming timeoutMs))
    | _ => none
  | .load t, s =>
    match s.phase t with
    | .claiming timeoutMs =>
      if s.port.maxConcurrentThreads > 0 then
        -- without a free slot the thread yields and tries again
        if s.port.activeThreads < s.port.maxConcurrentThreads then
          some (s.goto t (.loaded timeoutMs s.port.activeThreads))
        else some s
      else none
    | _ => none
  | .compareExchange t spurious, s =>
    match s.phase t with
    | .loaded timeoutMs active =>
      if s.port.activeThreads = active ∧ spurious = false then
        -- below the limit, so the addition does not overflow
        some (({ s with port := { s.port with activeThreads := active + 1 } } : System T).goto t
          (.claimed timeoutMs))
      else some (s.goto t (.claiming timeoutMs))
    | _ => none
  | .increment t, s =>
    match s.phase t with
    | .claiming timeoutMs =>
      if s.port.maxConcurrentThreads > 0 then none
      else
        some (({ s with
          port := { s.port with activeThreads := s.port.activeThreads + 1 } } : System T).goto t
          (.claimed timeoutMs))
    | _ => none
  | .arm t now, s =>
    match s.phase t with
    | .claimed timeoutMs =>
      if timeoutMs = 0 then some (s.goto t (.polling none))
      else
        (Checked.add 64 now.toNat timeoutMs.toNat).map fun deadline =>
          s.goto t (.polling (some deadline))
    | _ => none
  | .poll t, s =>
    match s.phase t with
    | .polling deadline =>
      match s.port.queue with
      | packet :: queue =>
        some (({ s with
          port := { s.port with queue := queue }
          taken := s.taken ++ [packet] } : System T).goto t
          (.releasing (some ⟨s.taken.length, packet⟩)))
      | [] =>
        match deadline with
        | none => some (s.goto t (.releasing none))
        | some deadline => some (s.goto t (.missed deadline))
    | _ => none
  | .clock t now, s =>
    match s.phase t with
    | .missed deadline =>
      if now.toNat ≥ deadline then some (s.goto t (.releasing none))
      else some (s.goto t (.polling (some deadline)))
    | _ => none
  | .release t, s =>
    match s.phase t with
    | .releasing packet =>
      some (({ s with
        port := { s.port with activeThreads := s.port.activeThreads - 1 } } : System T).goto t
        (.returning packet))
    | _ => none
  | .finish t, s =>
    match s.phase t with
    | .returning packet =>
      let retrieved :=
        if packet.isSome then s.port.packetsRetrieved + 1 else s.port.packetsRetrieved
      some (({ s with
        port := { s.port with packetsRetrieved := retrieved }
        results := s.results ++ [resultOf packet] } : System T).goto t .idle)
    | _ => none

def System.new (maxConcurrentThreads : UInt32) : System T :=
  { port := IoCompletionPort.new maxConcurrentThreads
    phase := fun _ => .idle
    posted := []
    taken := []
    results := [] }

/-! ## What a step does -/

/-- The steps, as far as the slots and the packets are concerned. -/
inductive Move (s : System T) : System T → Prop where
  | stay : Move s s
  | post {packet : IoCompletionPacket} (hroom : s.port.queue.length < MAX_COMPLETION_ENTRIES) :
      Move s { s with
        port := { s.port with
          queue := s.port.queue ++ [packet], packetsPosted := s.port.packetsPosted + 1 }
        posted := s.posted ++ [packet] }
  /-- The thread takes no slot and no packet and gives none back. -/
  | proceed {t : T} {phase : Phase} (hholds : phase.holds = (s.phase t).holds)
      (hcarries : phase.carries = none) (hcarries' : (s.phase t).carries = none)
      (hloaded : ∀ timeoutMs active, phase = .loaded timeoutMs active →
        active < s.port.maxConcurrentThreads) :
      Move s (s.goto t phase)
  | claim {t : T} {timeoutMs : UInt32} (hholds : (s.phase t).holds = false)
      (hcarries : (s.phase t).carries = none)
      (hroom : s.port.maxConcurrentThreads > 0 →
        s.port.activeThreads < s.port.maxConcurrentThreads) :
      Move s (({ s with
        port := { s.port with activeThreads := s.port.activeThreads + 1 } } : System T).goto t
        (.claimed timeoutMs))
  | take {t : T} {deadline : Option Nat} {packet : IoCompletionPacket}
      {queue : List IoCompletionPacket} (hphase : s.phase t = .polling deadline)
      (hqueue : s.port.queue = packet :: queue) :
      Move s (({ s with
        port := { s.port with queue := queue }
        taken := s.taken ++ [packet] } : System T).goto t
        (.releasing (some ⟨s.taken.length, packet⟩)))
  | release {t : T} {packet : Option Taken} (hphase : s.phase t = .releasing packet) :
      Move s (({ s with
        port := { s.port with activeThreads := s.port.activeThreads - 1 } } : System T).goto t
        (.returning packet))
  | finish {t : T} {packet : Option Taken} {retrieved : UInt64}
      (hphase : s.phase t = .returning packet) :
      Move s (({ s with
        port := { s.port with packetsRetrieved := retrieved }
        results := s.results ++ [resultOf packet] } : System T).goto t .idle)

variable {s s' : System T} {op : Op T}

open Move

lemma step_move (hloaded : ∀ t timeoutMs active, s.phase t = .loaded timeoutMs active →
      active < s.port.maxConcurrentThreads) (hst : step op s = some s') : Move s s' := by
  cases op with simp only [step] at hst
  | post packet =>
    rw [IoCompletionPort.postCompletion] at hst
    split at hst
    · cases hst
      exact stay
    rename_i hroom
    cases hst
    exact post (Nat.lt_of_not_le hroom)
  | enter t timeoutMs =>
    split at hst
    · rename_i hphase
      cases hst
      exact proceed (by rw [hphase]; rfl) rfl (by rw [hphase]; rfl) nofun
    · cases hst
  | load t =>
    split at hst
    · rename_i hphase
      split at hst
      · split at hst
        · rename_i hroom
          cases hst
          refine proceed (by rw [hphase]; rfl) rfl (by rw [hphase]; rfl) ?_
          intro timeoutMs active heq
          cases heq
          exact hroom
        · cases hst
          exact stay
      · cases hst
    · cases hst
  | compareExchange t spurious =>
    split at hst
    · rename_i timeoutMs active hphase
      split at hst
      · rename_i hs
        cases hst
        have hroom := hloaded t timeoutMs active hphase
        rw [← hs.1] at hroom ⊢
        exact claim (by rw [hphase]; rfl) (by rw [hphase]; rfl) fun _ => hroom
      · cases hst
        exact proceed (by rw [hphase]; rfl) rfl (by rw [hphase]; rfl) nofun
    · cases hst
  | increment t =>
    split at hst
    · rename_i hphase
      split at hst
      · cases hst
      rename_i hlm
      cases hst
      exact claim (by rw [hphase]; rfl) (by rw [hphase]; rfl) fun hp => absurd hp hlm
    · cases hst
  | arm t now =>
    split at hst
    · rename_i hphase
      split at hst
      · cases hst
        exact proceed (by rw [hphase]; rfl) rfl (by rw [hphase]; rfl) nofun
      · obtain ⟨deadline, _, rfl⟩ := Option.map_eq_some_iff.mp hst
        exact proceed (by rw [hphase]; rfl) rfl (by rw [hphase]; rfl) nofun
    · cases hst
  | poll t =>
    split at hst
    · rename_i deadline hphase
      split at hst
      · rename_i packet queue hqueue
        cases hst
        exact take hphase hqueue
      split at hst <;> cases hst
      · exact proceed (by rw [hphase]; rfl) rfl (by rw [hphase]; rfl) nofun
      · exact proceed (by rw [hphase]; rfl) rfl (by rw [hphase]; rfl) nofun
    · cases hst
  | clock t now =>
    split at hst
    · rename_i hphase
      split at hst <;> cases hst
      · exact proceed (by rw [hphase]; rfl) rfl (by rw [hphase]; rfl) nofun
      · exact proceed (by rw [hphase]; rfl) rfl (by rw [hphase]; rfl) nofun
    · cases hst
  | release t =>
    split at hst
    · rename_i packet hphase
      cases hst
      exact release hphase
    · cases hst
  | finish t =>
    split at hst
    · rename_i packet hphase
      cases hst
      exact finish hphase
    · cases hst

/-! ## The invariant -/

def System.returned (s : System T) : List Nat :=
  s.results.filterMap fun result => result.toOption.map Taken.number

variable [Fintype T]

/-- How many threads are between claim and release. -/
def System.holders (s : System T) : Nat := countOf Phase.holds s.phase

structure Inv (limit : UInt32) (s : System T) : Prop where
  sameLimit : s.port.maxConcurrentThreads = limit
  active : s.port.activeThreads = UInt32.ofNat s.holders
  bounded : 0 < limit → s.holders ≤ limit.toNat
  loaded : ∀ t timeoutMs active, s.phase t = .loaded timeoutMs active → active < limit
  room : s.port.queue.length ≤ MAX_COMPLETION_ENTRIES
  order : s.posted = s.taken ++ s.port.queue
  /-- What a thread carries it has taken, and nobody else has it. -/
  carried : ∀ t packet, (s.phase t).carries = some packet →
    s.taken[packet.number]? = some packet.packet ∧ packet.number ∉ s.returned
  apart : ∀ t t' packet packet', (s.phase t).carries = some packet →
    (s.phase t').carries = some packet' → packet.number = packet'.number → t = t'
  results : ∀ packet, .ok packet ∈ s.results → s.taken[packet.number]? = some packet.packet
  once : s.returned.Nodup

omit [DecidableEq T] in
lemma holders_new (limit : UInt32) : (System.new limit : System T).holders = 0 := by
  show (Finset.univ.filter fun _ : T => Phase.holds .idle = true).card = 0
  simp [Phase.holds]

omit [DecidableEq T] in
lemma Inv.new (limit : UInt32) : Inv limit (System.new limit : System T) where
  sameLimit := rfl
  active := by
    rw [holders_new]
    rfl
  bounded := by
    intro _
    rw [holders_new]
    exact Nat.zero_le _
  loaded := nofun
  room := Nat.zero_le _
  order := rfl
  carried := nofun
  apart := nofun
  results := nofun
  once := nodup_nil

variable {limit : UInt32} {t u : T} {phase : Phase}

omit [Fintype T] in
@[simp] lemma goto_self (s : System T) (t : T) (phase : Phase) : (s.goto t phase).phase t = phase :=
  Function.update_self ..

omit [Fintype T] in
lemma goto_of_ne (s : System T) (hu : u ≠ t) : (s.goto t phase).phase u = s.phase u :=
  Function.update_of_ne hu ..

omit [Fintype T] in
lemma carries_goto (s : System T) (t u : T) (phase : Phase) :
    ((s.goto t phase).phase u).carries = if u = t then phase.carries else (s.phase u).carries := by
  by_cases hu : u = t
  · rw [if_pos hu, hu, goto_self]
  · rw [if_neg hu, goto_of_ne s hu]

omit [Fintype T] in
lemma loaded_goto (h : ∀ t timeoutMs active, s.phase t = .loaded timeoutMs active → active < limit)
    (hphase : ∀ timeoutMs active, phase = .loaded timeoutMs active → active < limit) :
    ∀ u timeoutMs active, (s.goto t phase).phase u = .loaded timeoutMs active → active < limit := by
  intro u timeoutMs active heq
  by_cases hu : u = t
  · rw [hu, goto_self] at heq
    exact hphase timeoutMs active heq
  · rw [goto_of_ne s hu] at heq
    exact h u timeoutMs active heq

section

variable (h : Inv limit s)
include h

omit [DecidableEq T] in
lemma Inv.post {packet : IoCompletionPacket} {posted : UInt64}
    (hroom : s.port.queue.length < MAX_COMPLETION_ENTRIES) : Inv limit { s with
      port := { s.port with queue := s.port.queue ++ [packet], packetsPosted := posted }
      posted := s.posted ++ [packet] } := by
  refine ⟨h.sameLimit, h.active, h.bounded, h.loaded, ?_, ?_, h.carried, h.apart, h.results, h.once⟩
  · show (s.port.queue ++ [packet]).length ≤ MAX_COMPLETION_ENTRIES
    rw [length_append]
    exact hroom
  · show s.posted ++ [packet] = s.taken ++ (s.port.queue ++ [packet])
    rw [h.order, append_assoc]

lemma Inv.slots {active : UInt32} (hac : active = UInt32.ofNat (s.goto t phase).holders)
    (hbn : 0 < limit → (s.goto t phase).holders ≤ limit.toNat)
    (hloaded : ∀ timeoutMs active, phase = .loaded timeoutMs active → active < limit)
    (hcarries : phase.carries = none ∨ phase.carries = (s.phase t).carries) : Inv limit
      (({ s with port := { s.port with activeThreads := active } } : System T).goto t phase) := by
  have hca : ∀ u packet, ((s.goto t phase).phase u).carries = some packet →
      (s.phase u).carries = some packet := by
    intro u packet hu
    rw [carries_goto] at hu
    split at hu
    · next heq =>
      rcases hcarries with hn | hs
      · rw [hn] at hu
        cases hu
      · rwa [heq, ← hs]
    · exact hu
  refine ⟨h.sameLimit, hac, hbn, loaded_goto h.loaded hloaded, h.room, h.order, ?_, ?_,
    h.results, h.once⟩
  · intro u packet hu
    exact h.carried u packet (hca u packet hu)
  · intro u u' packet packet' hu hu' heq
    exact h.apart u u' packet packet' (hca u packet hu) (hca u' packet' hu') heq

lemma Inv.proceed (hholds : phase.holds = (s.phase t).holds) (hcarries : phase.carries = none)
    (hloaded : ∀ timeoutMs active, phase = .loaded timeoutMs active → active < limit) :
    Inv limit (s.goto t phase) := by
  have hs : (s.goto t phase).holders = s.holders := countOf_update_same hholds
  refine h.slots ?_ ?_ hloaded (.inl hcarries) <;> rw [hs]
  · exact h.active
  · exact h.bounded

lemma Inv.claim {timeoutMs : UInt32} (hholds : (s.phase t).holds = false)
    (hroom : s.port.maxConcurrentThreads > 0 → s.port.activeThreads < s.port.maxConcurrentThreads) :
    Inv limit (({ s with
      port := { s.port with activeThreads := s.port.activeThreads + 1 } } : System T).goto t
      (.claimed timeoutMs)) := by
  have hmo : (s.goto t (.claimed timeoutMs)).holders = s.holders + 1 :=
    countOf_update_enter hholds rfl
  refine h.slots ?_ ?_ nofun (.inl rfl)
  · rw [hmo, UInt32.ofNat_add, ← h.active]
    rfl
  intro hp
  rw [hmo]
  -- with a limit the counter has not wrapped
  have hbd := h.bounded hp
  have hlt := hroom (by rw [h.sameLimit]; exact hp)
  rw [h.sameLimit, h.active, UInt32.lt_iff_toNat_lt,
    UInt32.toNat_ofNat_of_lt' (Nat.lt_of_le_of_lt hbd limit.toNat_lt)] at hlt
  exact hlt

lemma Inv.release {packet : Option Taken} (hphase : s.phase t = .releasing packet) :
    Inv limit (({ s with
      port := { s.port with activeThreads := s.port.activeThreads - 1 } } : System T).goto t
      (.returning packet)) := by
  have hle : (s.goto t (.returning packet)).holders + 1 = s.holders :=
    countOf_update_leave (by rw [hphase]; rfl) rfl
  refine h.slots ?_ ?_ nofun (.inr (by rw [hphase]; rfl))
  · have hac := h.active
    rw [← hle, UInt32.ofNat_add] at hac
    rw [hac]
    exact UInt32.add_sub_cancel _ _
  intro hp
  have hbd := h.bounded hp
  omega

lemma Inv.take {deadline : Option Nat} {packet : IoCompletionPacket}
    {queue : List IoCompletionPacket} (hphase : s.phase t = .polling deadline)
    (hqueue : s.port.queue = packet :: queue) : Inv limit (({ s with
      port := { s.port with queue := queue }
      taken := s.taken ++ [packet] } : System T).goto t
      (.releasing (some ⟨s.taken.length, packet⟩))) := by
  have hhs : (s.goto t (.releasing (some ⟨s.taken.length, packet⟩))).holders = s.holders :=
    countOf_update_same (by rw [hphase]; rfl)
  -- the numbers in use are below the new one
  have hbl : ∀ {k : Nat} {p : IoCompletionPacket}, s.taken[k]? = some p → k < s.taken.length :=
    fun hk => (List.getElem?_eq_some_iff.mp hk).1
  have hke : ∀ {k : Nat} {p : IoCompletionPacket}, s.taken[k]? = some p →
      (s.taken ++ [packet])[k]? = some p :=
    fun hk => (List.getElem?_append_left (hbl hk)).trans hk
  have hroom := h.room
  have hor := h.order
  rw [hqueue] at hroom hor
  refine ⟨h.sameLimit, h.active.trans (congrArg _ hhs.symm),
    fun hps => hhs.trans_le (h.bounded hps), loaded_goto h.loaded nofun,
    Nat.le_of_succ_le hroom, ?_, ?_, ?_, fun p hp => hke (h.results p hp), h.once⟩
  · show s.posted = (s.taken ++ [packet]) ++ queue
    rw [hor, append_assoc]
    rfl
  · intro u p hu
    rw [carries_goto] at hu
    split at hu
    · cases hu
      refine ⟨getElem?_concat_length, ?_⟩
      intro hm
      obtain ⟨result, hrs, hnm⟩ := mem_filterMap.mp hm
      cases result with
      | error status => cases hnm
      | ok p =>
        have hlt := hbl (h.results p hrs)
        have heq : p.number = s.taken.length := Option.some.inj hnm
        omega
    · obtain ⟨hp, hnt⟩ := h.carried u p hu
      exact ⟨hke hp, hnt⟩
  intro u u' p p' hu hu' heq
  rw [carries_goto] at hu hu'
  split at hu
  · rename_i hut
    split at hu'
    · rename_i hut'
      rw [hut, hut']
    cases hu
    have hlt := hbl (h.carried u' p' hu').1
    have hnm : s.taken.length = p'.number := heq
    omega
  split at hu'
  · cases hu'
    have hlt := hbl (h.carried u p hu).1
    have hnm : p.number = s.taken.length := heq
    omega
  · exact h.apart u u' p p' hu hu' heq

lemma Inv.finish {packet : Option Taken} {retrieved : UInt64}
    (hphase : s.phase t = .returning packet) : Inv limit (({ s with
      port := { s.port with packetsRetrieved := retrieved }
      results := s.results ++ [resultOf packet] } : System T).goto t .idle) := by
  have hca : ∀ u p, ((s.goto t .idle).phase u).carries = some p →
      u ≠ t ∧ (s.phase u).carries = some p := by
    intro u p hu
    rw [carries_goto] at hu
    split at hu
    · cases hu
    · rename_i hne
      exact ⟨hne, hu⟩
  have hse : (s.phase t).carries = packet := by
    rw [hphase]
    rfl
  have hrt : ({ s with results := s.results ++ [resultOf packet] } : System T).returned
      = s.returned ++ (packet.map Taken.number).toList := by
    unfold System.returned
    rw [filterMap_append]
    cases packet <;> rfl
  have hhs : (s.goto t .idle).holders = s.holders := countOf_update_same (by rw [hphase]; rfl)
  refine ⟨h.sameLimit, h.active.trans (congrArg _ hhs.symm),
    fun hps => hhs.trans_le (h.bounded hps), loaded_goto h.loaded nofun, h.room, h.order,
    ?_, ?_, ?_, ?_⟩
  · intro u p hu
    obtain ⟨hne, hu⟩ := hca u p hu
    obtain ⟨hp, hnt⟩ := h.carried u p hu
    refine ⟨hp, ?_⟩
    erw [hrt, mem_append, not_or]
    refine ⟨hnt, ?_⟩
    intro hm
    -- the packet just returned was carried by `t` alone
    rw [Option.mem_toList] at hm
    obtain ⟨p', hp', hnm⟩ := Option.map_eq_some_iff.mp hm
    exact hne (h.apart u t p p' hu (hse.trans hp') hnm.symm)
  · intro u u' p p' hu hu' heq
    exact h.apart u u' p p' (hca u p hu).2 (hca u' p' hu').2 heq
  · intro p hp
    rcases mem_append.mp hp with hp | hp
    · exact h.results p hp
    cases packet with
    | none => cases mem_singleton.mp hp
    | some p' =>
      cases mem_singleton.mp hp
      exact (h.carried t p hse).1
  refine hrt.symm ▸ ?_
  cases packet with
  | none =>
    rw [Option.map_none, Option.toList_none, append_nil]
    exact h.once
  | some p =>
    apply nodup_append.mpr
    refine ⟨h.once, nodup_singleton _, ?_⟩
    intro a ha b hb heq
    rw [mem_singleton.mp hb] at heq
    rw [heq] at ha
    exact (h.carried t p hse).2 ha

lemma step_inv (_ : True) (hs : step op s = some s') : Inv limit s' := by
  have hloaded : ∀ t timeoutMs active, s.phase t = .loaded timeoutMs active →
      active < s.port.maxConcurrentThreads := by
    rw [h.sameLimit]
    exact h.loaded
  cases step_move hloaded hs with
  | stay => exact h
  | post hroom => exact h.post hroom
  | proceed hholds hcarries _ hphase =>
    rw [h.sameLimit] at hphase
    exact h.proceed hholds hcarries hphase
  | claim hholds _ hroom => exact h.claim hholds hroom
  | take hphase hqueue => exact h.take hphase hqueue
  | release hphase => exact h.release hphase
  | finish hphase => exact h.finish hphase

end

/-! ## Every run -/

/-- In every state that any number of threads reach: the counter is the number of threads between
claim and release, as far as 32 bits tell it, so exactly if the port has a limit, which is then
kept; no packet is returned twice; packets leave in the order they came; the queue is bounded. -/
theorem run_completion_port (limit : UInt32) {ops : List (Op T)} {s : System T}
    (hrun : Run step (fun _ _ => True) (System.new limit) ops s) :
    (s.holders < 2 ^ 32 → s.port.activeThreads.toNat = s.holders)
      ∧ (0 < limit → s.port.activeThreads.toNat = s.holders ∧ s.holders ≤ limit.toNat)
      ∧ s.returned.Nodup
      ∧ (∀ packet, .ok packet ∈ s.results → s.posted[packet.number]? = some packet.packet)
      ∧ s.posted = s.taken ++ s.port.queue ∧ s.port.queue.length ≤ MAX_COMPLETION_ENTRIES := by
  have h : Inv limit s := hrun.keeps step_inv (Inv.new limit)
  have hex : s.holders < 2 ^ 32 → s.port.activeThreads.toNat = s.holders := by
    intro hfw
    rw [h.active]
    exact Nat.mod_eq_of_lt hfw
  refine ⟨hex, ?_, h.once, ?_, h.order, h.room⟩
  · intro hp
    have hbd := h.bounded hp
    exact ⟨hex (Nat.lt_of_le_of_lt hbd limit.toNat_lt), hbd⟩
  intro packet hpk
  have htk := h.results packet hpk
  rw [h.order, List.getElem?_append_left (List.getElem?_eq_some_iff.mp htk).1]
  exact htk

/-- One packet through a port with one worker slot, while a second thread waits for the slot. -/
def handOver : List (Op Bool) :=
  [.post ⟨5, 6, 7, 0⟩, .enter true 0, .load true, .compareExchange true false, .enter false 0,
    .load false, .arm true 0, .poll true, .release true, .finish true]

theorem run_completion_port_handOver :
    ∃ s : System Bool, Run step (fun _ _ => True) (System.new 1) handOver s
      ∧ s.results = [.ok ⟨0, ⟨5, 6, 7, 0⟩⟩] ∧ s.returned.Nodup := by
  obtain ⟨s, hs⟩ : ∃ s, execute step handOver (System.new 1 : System Bool) = some s := ⟨_, rfl⟩
  have hr := Run.of_execute hs
  refine ⟨s, hr, ?_, (run_completion_port 1 hr).2.2.1⟩
  cases hs
  rfl

omit [Fintype T] in
lemma run_claims (ts : List T) (s : System T) (hnd : ts.Nodup)
    (hlm : s.port.maxConcurrentThreads = 0) (hid : ∀ t ∈ ts, s.phase t = .idle) :
    ∃ ops s', Run step (fun _ _ => True) s ops s'
      ∧ (∀ t ∈ ts, s'.phase t = .claimed 0) ∧ ∀ t ∉ ts, s'.phase t = s.phase t := by
  induction ts generalizing s with
  | nil => exact ⟨[], s, Run.nil s, nofun, fun _ _ => rfl⟩
  | cons t ts ih =>
    obtain ⟨hnt, hnd⟩ := nodup_cons.mp hnd
    -- the first thread enters and increments
    let s1 := s.goto t (.claiming 0)
    let s2 := ({ s1 with
      port := { s1.port with activeThreads := s1.port.activeThreads + 1 } } : System T).goto t
      (.claimed 0)
    have hen : step (.enter t 0) s = some s1 := by
      simp only [step, hid t mem_cons_self]
      rfl
    have hcl : step (.increment t) s1 = some s2 := by
      have hphase : s1.phase t = .claiming 0 := goto_self s t _
      have h0 : ¬ s1.port.maxConcurrentThreads > 0 := by
        show ¬ s.port.maxConcurrentThreads > 0
        rw [hlm]
        exact fun h => absurd h (by decide)
      simp only [step, hphase, if_neg h0]
      rfl
    have hot : ∀ {u : T}, u ≠ t → s2.phase u = s.phase u :=
      fun hu => (goto_of_ne _ hu).trans (goto_of_ne s hu)
    have hse : s2.phase t = .claimed 0 := goto_self _ t _
    -- the others are still idle
    obtain ⟨ops, s', hr, hcm, hrs⟩ := ih s2 hnd hlm (by
      intro u hu
      rw [hot (fun heq => hnt (heq ▸ hu))]
      exact hid u (mem_cons_of_mem t hu))
    refine ⟨.enter t 0 :: .increment t :: ops, s', Run.cons trivial hen
      (Run.cons trivial hcl hr), ?_, ?_⟩
    · intro u hu
      rcases mem_cons.mp hu with rfl | hu
      · rw [hrs u hnt, hse]
      · exact hcm u hu
    intro u hu
    obtain ⟨hne, hu⟩ := ne_and_not_mem_of_not_mem_cons hu
    rw [hrs u hu, hot hne]

/-- A port without a limit, and 2^32 threads that have all taken a slot: the counter is 0. -/
theorem activeThreads_wraps : ∃ (ops : List (Op (Fin (2 ^ 32)))) (s : System (Fin (2 ^ 32))),
      Run step (fun _ _ => True) (System.new 0) ops s
        ∧ s.holders = 2 ^ 32 ∧ s.port.activeThreads.toNat ≠ s.holders := by
  obtain ⟨ops, s, hr, hcl, _⟩ := run_claims Finset.univ.toList
    (System.new 0 : System (Fin (2 ^ 32))) (Finset.nodup_toList _) rfl (fun _ _ => rfl)
  have hhs : s.holders = 2 ^ 32 := by
    have ha : ∀ t, (s.phase t).holds = true := by
      intro t
      rw [hcl t (Finset.mem_toList.mpr (Finset.mem_univ t))]
      rfl
    unfold System.holders countOf
    rw [Finset.filter_true_of_mem fun t _ => ha t, Finset.card_univ, Fintype.card_fin]
  refine ⟨ops, s, hr, hhs, ?_⟩
  rw [hhs]
  exact Nat.ne_of_lt s.port.activeThreads.toNat_lt

end Nt61.Iocp
