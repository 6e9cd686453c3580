/-
TicketLock — `lock_prcb` and `unlock_prcb`, one atomic operation at a time, in any order.

The owner is stored after the ticket has come up and cleared before the next one is served, so for
two moments of every critical section the lock looks free. The abstract lock is a line of CPUs: a
CPU joins it at the end when it draws a ticket and leaves it from the front when it gives the lock
back (`Inv`). The other modules take a lock as one step (`lockPrcb`).
-/
import Nt61.Ke.Scheduler.Model
import Nt61.Lib.Ticket

namespace Nt61.Scheduler.TicketLock

open Ticket Function List

/-! ## The atomics and the code around them -/

inductive Phase where
  /-- In neither of the two functions. -/
  | outside
  /-- `lock_prcb`: is the owner this CPU already? -/
  | check
  /-- `lock_prcb`: draw a ticket. -/
  | draw
  /-- `lock_prcb`: is the ticket served? -/
  | spin (ticket : BitVec 32)
  /-- `lock_prcb`: store the owner. -/
  | claim
  /-- `unlock_prcb`: clear the owner if it is this CPU. -/
  | release
  /-- `unlock_prcb`: serve the next ticket. -/
  | serve
  deriving DecidableEq

/-- A CPU. It holds the lock from a `lock_prcb` that returns true to the end of its `unlock_prcb`. -/
structure Cpu where
  phase : Phase
  holding : Bool
  deriving DecidableEq

/-- The entries of the three tables, the CPUs, and the order in which the CPUs have drawn tickets
and have got the lock so far. -/
structure Lock where
  next : BitVec 32
  serving : BitVec 32
  state : UInt8
  cpus : Nat → Cpu
  drawn : List Nat
  entered : List Nat

def Lock.free (count : BitVec 32) : Lock :=
  { next := count, serving := count, state := 0, cpus := fun _ => ⟨.outside, false⟩,
    drawn := [], entered := [] }

def ownerByte (cpu : Nat) : UInt8 := UInt8.ofNat (cpu + 1)

namespace Lock

def set (l : Lock) (cpu : Nat) (phase : Phase) (holding : Bool) : Lock :=
  { l with cpus := Function.update l.cpus cpu ⟨phase, holding⟩ }

def call (l : Lock) (cpu : Nat) (phase : Phase) : Lock :=
  if (l.cpus cpu).phase = .outside then l.set cpu phase (l.cpus cpu).holding else l

def advance (l : Lock) (cpu : Nat) : Lock :=
  let holding := (l.cpus cpu).holding
  match (l.cpus cpu).phase with
  | .outside => l
  | .check =>
    -- `lock_prcb` returns false if the CPU owns the lock already
    if l.state = ownerByte cpu then l.set cpu .outside holding else l.set cpu .draw holding
  | .draw => { l.set cpu (.spin l.next) holding with next := l.next + 1, drawn := l.drawn ++ [cpu] }
  | .spin ticket => if l.serving = ticket then l.set cpu .claim holding else l
  | .claim => { l.set cpu .outside true with state := ownerByte cpu, entered := l.entered ++ [cpu] }
  | .release =>
    if l.state = ownerByte cpu then { l.set cpu .serve holding with state := 0 }
    else l.set cpu .outside holding
  | .serve => { l.set cpu .outside false with serving := l.serving + 1 }

end Lock

open Lock

inductive Action where
  | lockPrcb
  | unlockPrcb
  | advance
  deriving DecidableEq

def Lock.act (l : Lock) (cpu : Nat) : Action → Lock
  | .lockPrcb => l.call cpu .check
  | .unlockPrcb => l.call cpu .release
  | .advance => l.advance cpu

structure Op where
  cpu : Nat
  index : Nat
  action : Action

/-- An index outside the tables, and a CPU that cannot own a lock, end both functions at once. -/
def step (locks : Nat → Lock) (op : Op) : Nat → Lock :=
  if op.index < MAX_PERCPU_LOCKS ∧ (currentLockOwner op.cpu).isSome then
    Function.update locks op.index ((locks op.index).act op.cpu op.action)
  else locks

/-! ## The line of CPUs -/

def Away (cpu : Cpu) : Prop :=
  cpu.holding = false
    ∧ (cpu.phase = .outside ∨ cpu.phase = .check ∨ cpu.phase = .draw ∨ cpu.phase = .release)

/-- The first CPU of the line: its ticket is served, it has the lock, or it is giving it back. -/
inductive First (l : Lock) (past : List Nat) (c : Nat) : Prop where
  | waiting (hcpu : l.cpus c = ⟨.spin l.serving, false⟩ ∨ l.cpus c = ⟨.claim, false⟩)
      (hstate : l.state = 0) (hentered : l.entered = past)
  | holding (hcpu : (l.cpus c).holding = true)
      (hphase : (l.cpus c).phase = .outside ∨ (l.cpus c).phase = .check ∨ (l.cpus c).phase = .release)
      (hstate : l.state = ownerByte c) (hentered : l.entered = past ++ [c])
  | leaving (hcpu : l.cpus c = ⟨.serve, true⟩) (hstate : l.state = 0)
      (hentered : l.entered = past ++ [c])

def Spins (l : Lock) (c : Nat) (ticket : BitVec 32) : Prop := l.cpus c = ⟨.spin ticket, false⟩

def Queue (l : Lock) (past : List Nat) : List Nat → Prop
  | [] => l.state = 0 ∧ l.entered = past
  | c :: rest => First l past c ∧ Line (Spins l) (l.serving + 1) rest

/-- The CPUs of `past` have had the lock and given it back, those of `q` are in line. -/
structure Inv (l : Lock) (past q : List Nat) : Prop where
  drawn : l.drawn = past ++ q
  next : l.next = l.serving + BitVec.ofNat 32 q.length
  nodup : q.Nodup
  small : ∀ c ∈ q, c < 255
  away : ∀ c, c ∉ q → Away (l.cpus c)
  queue : Queue l past q

lemma free_inv (count : BitVec 32) : Inv (free count) [] [] where
  drawn := rfl
  next := by simp [free]
  nodup := nodup_nil
  small := by simp
  away := fun _ _ => ⟨rfl, .inl rfl⟩
  queue := ⟨rfl, rfl⟩

variable {l : Lock} {past q rest : List Nat} {cpu : Nat}

lemma Inv.short (h : Inv l past q) : q.length < 256 := by
  have hsb : q ⊆ List.range 255 := fun c hc => mem_range.mpr (h.small c hc)
  have hle := (subperm_of_subset h.nodup hsb).length_le
  rw [length_range] at hle
  omega

lemma ownerByte_ne_zero (h : cpu < 255) : ownerByte cpu ≠ 0 := by
  intro heq
  have hvl := congrArg UInt8.toNat heq
  rw [ownerByte, UInt8.toNat_ofNat', Nat.mod_eq_of_lt (by omega)] at hvl
  simp at hvl

lemma ownerByte_injective {cpu' : Nat} (h : cpu < 255) (h' : cpu' < 255)
    (heq : ownerByte cpu = ownerByte cpu') : cpu = cpu' := by
  have hvl := congrArg UInt8.toNat heq
  rw [ownerByte, ownerByte, UInt8.toNat_ofNat', UInt8.toNat_ofNat'] at hvl
  omega

lemma Inv.state_ne (h : Inv l past q) (hcpu : cpu < 255) (haw : cpu ∉ q) :
    l.state ≠ ownerByte cpu := by
  intro hstate
  cases q with
  | nil => exact ownerByte_ne_zero hcpu (hstate.symm.trans h.queue.1)
  | cons c rest =>
    have h0 : l.state ≠ 0 := fun h0 => ownerByte_ne_zero hcpu (hstate.symm.trans h0)
    cases h.queue.1 with
    | waiting _ hf _ => exact h0 hf
    | leaving _ hf _ => exact h0 hf
    | holding _ _ how _ =>
      have heq := ownerByte_injective hcpu (h.small c mem_cons_self) (hstate.symm.trans how)
      exact haw (heq ▸ mem_cons_self)

variable {c : Nat}

lemma Inv.position (h : Inv l past q) (cpu : Nat) : cpu ∉ q ∨ (∃ rest, q = cpu :: rest)
    ∨ ∃ ticket, l.cpus cpu = ⟨.spin ticket, false⟩ ∧ ticket ≠ l.serving := by
  by_cases hcpu : cpu ∈ q
  · cases q with
    | nil => cases hcpu
    | cons c rest =>
      rcases mem_cons.mp hcpu with rfl | hr
      · exact .inr (.inl ⟨rest, rfl⟩)
      have hsh := h.short
      rw [length_cons] at hsh
      obtain ⟨ticket, hsp, hne⟩ := h.queue.2.ticket_ne (by omega) hr
      exact .inr (.inr ⟨ticket, hsp, hne⟩)
  · exact .inl hcpu

lemma First.holds (h : First l past cpu) (hphase : (l.cpus cpu).phase = .outside
    ∨ (l.cpus cpu).phase = .release) : (l.cpus cpu).holding = true ∧ l.state = ownerByte cpu
      ∧ l.entered = past ++ [cpu] := by
  cases h with
  | waiting hcpu _ _ => rcases hcpu with hcpu | hcpu <;> simp [hcpu] at hphase
  | leaving hcpu _ _ => simp [hcpu] at hphase
  | holding hcpu _ hstate hentered => exact ⟨hcpu, hstate, hentered⟩

/-! ### Changes of one CPU -/

lemma set_self (phase : Phase) (holding : Bool) : (l.set cpu phase holding).cpus cpu = ⟨phase, holding⟩ :=
  update_self _ _ _

lemma set_of_ne (h : c ≠ cpu) (phase : Phase) (holding : Bool) :
    (l.set cpu phase holding).cpus c = l.cpus c :=
  update_of_ne h _ _

lemma First.congr {l' : Lock} (h : First l past c) (hcpu : l'.cpus c = l.cpus c)
    (hsr : l'.serving = l.serving) (hstate : l'.state = l.state)
    (hentered : l'.entered = l.entered) : First l' past c := by
  cases h with
  | waiting h1 h2 h3 =>
    exact .waiting (by rw [hcpu, hsr]; exact h1) (by rw [hstate, h2]) (by rw [hentered, h3])
  | holding h0 h1 h2 h3 =>
    exact .holding (by rw [hcpu, h0]) (by rw [hcpu]; exact h1) (by rw [hstate, h2])
      (by rw [hentered, h3])
  | leaving h1 h2 h3 => exact .leaving (by rw [hcpu, h1]) (by rw [hstate, h2]) (by rw [hentered, h3])

variable {phase : Phase}

lemma Inv.stray (h : Inv l past q) (hcpu : cpu ∉ q)
    (haw : Away ⟨phase, false⟩) : Inv (l.set cpu phase false) past q := by
  have hs : ∀ c ∈ q, (l.set cpu phase false).cpus c = l.cpus c :=
    fun c hc => set_of_ne (ne_of_mem_of_not_mem hc hcpu) _ _
  refine ⟨h.drawn, h.next, h.nodup, h.small, ?_, ?_⟩
  · intro c hc
    by_cases heq : c = cpu
    · rw [heq, set_self]
      exact haw
    · rw [set_of_ne heq]
      exact h.away c hc
  cases q with
  | nil => exact h.queue
  | cons c rest =>
    refine ⟨h.queue.1.congr (hs c mem_cons_self) rfl rfl rfl, h.queue.2.congr ?_⟩
    intro d hd t hsp
    exact (hs d (mem_cons_of_mem c hd)).trans hsp

lemma Inv.join (h : Inv l past q) (hsm : cpu < 255) (hcpu : cpu ∉ q) :
    Inv { l.set cpu (.spin l.next) false with next := l.next + 1, drawn := l.drawn ++ [cpu] }
      past (q ++ [cpu]) := by
  have hs : ∀ c, c ≠ cpu → (l.set cpu (.spin l.next) false).cpus c = l.cpus c :=
    fun c hc => set_of_ne hc _ _
  refine ⟨?_, ?_, ?_, ?_, ?_, ?_⟩
  · rw [h.drawn, append_assoc]
  · rw [h.next, length_append, BitVec.ofNat_add, BitVec.add_assoc]
    rfl
  · rw [nodup_append]
    refine ⟨h.nodup, nodup_singleton cpu, ?_⟩
    intro a ha b hb hab
    rw [mem_singleton.mp hb] at hab
    exact hcpu (hab ▸ ha)
  · intro c hc
    rcases mem_append.mp hc with hold | hw
    · exact h.small c hold
    · rw [mem_singleton.mp hw]
      exact hsm
  · intro c hc
    rw [mem_append, mem_singleton, not_or] at hc
    rw [hs c hc.2]
    exact h.away c hc.1
  cases q with
  | nil =>
    -- an empty line: the ticket is served already
    have hnx : l.next = l.serving := by simpa using h.next
    refine ⟨.waiting (.inl ?_) h.queue.1 h.queue.2, trivial⟩
    show (l.set cpu (.spin l.next) false).cpus cpu = ⟨.spin l.serving, false⟩
    rw [set_self, hnx]
  | cons c rest =>
    have hne : ∀ d ∈ c :: rest, d ≠ cpu := fun d hd heq => hcpu (heq ▸ hd)
    refine ⟨h.queue.1.congr (hs c (hne c mem_cons_self)) rfl rfl rfl, ?_⟩
    have hln : Line (Spins (l.set cpu (.spin l.next) false)) (l.serving + 1) rest :=
      h.queue.2.congr fun d hd t hsp => (hs d (hne d (mem_cons_of_mem c hd))).trans hsp
    apply hln.snoc
    show (l.set cpu (.spin l.next) false).cpus cpu = _
    rw [set_self, h.next, length_cons, Nat.add_comm, BitVec.ofNat_add, ← BitVec.add_assoc]
    rfl

lemma Inv.lead (h : Inv l past (cpu :: rest)) {holding : Bool} {state : UInt8} {entered : List Nat}
    (hfs : First { l.set cpu phase holding with state := state, entered := entered } past cpu) :
    Inv { l.set cpu phase holding with state := state, entered := entered } past (cpu :: rest) := by
  have hcpu := (nodup_cons.mp h.nodup).1
  refine ⟨h.drawn, h.next, h.nodup, h.small, ?_, hfs, h.queue.2.congr ?_⟩
  · intro c hc
    have hne : c ≠ cpu := fun heq => hc (heq ▸ mem_cons_self)
    rw [set_of_ne hne]
    exact h.away c hc
  · intro d hd t hsp
    exact (set_of_ne (ne_of_mem_of_not_mem hd hcpu) _ _).trans hsp

lemma Inv.leave (h : Inv l past (cpu :: rest)) (hstate : l.state = 0)
    (hentered : l.entered = past ++ [cpu]) :
    Inv { l.set cpu .outside false with serving := l.serving + 1 } (past ++ [cpu]) rest := by
  obtain ⟨hcpu, hnd⟩ := nodup_cons.mp h.nodup
  have hs : ∀ c ∈ rest, (l.set cpu .outside false).cpus c = l.cpus c :=
    fun c hc => set_of_ne (ne_of_mem_of_not_mem hc hcpu) _ _
  refine ⟨?_, ?_, hnd, fun c hc => h.small c (mem_cons_of_mem cpu hc), ?_, ?_⟩
  · show l.drawn = past ++ [cpu] ++ rest
    rw [h.drawn, append_assoc, singleton_append]
  · show l.next = l.serving + 1 + BitVec.ofNat 32 rest.length
    rw [h.next, length_cons, Nat.add_comm, BitVec.ofNat_add, ← BitVec.add_assoc]
    rfl
  · intro c hc
    by_cases heq : c = cpu
    · rw [heq, set_self]
      exact ⟨rfl, .inl rfl⟩
    · rw [set_of_ne heq]
      exact h.away c fun hm => hc ((mem_cons.mp hm).resolve_left heq)
  cases rest with
  | nil => exact ⟨hstate, hentered⟩
  | cons d rest =>
    obtain ⟨hd, hln⟩ := h.queue.2
    refine ⟨.waiting (.inl ?_) hstate hentered, hln.congr ?_⟩
    · exact (hs d mem_cons_self).trans hd
    · intro e he t hsp
      exact (hs e (mem_cons_of_mem d he)).trans hsp

/-! ## One operation -/

lemma Inv.advance_away (h : Inv l past q) (hsm : cpu < 255) (hcpu : cpu ∉ q) :
    ∃ q', Inv (l.advance cpu) past q' := by
  obtain ⟨hhl, hphase⟩ := h.away cpu hcpu
  unfold advance
  rw [hhl]
  rcases hphase with hphase | hphase | hphase | hphase <;> rw [hphase]
  · exact ⟨q, h⟩
  · dsimp only
    rw [if_neg (h.state_ne hsm hcpu)]
    exact ⟨q, h.stray hcpu ⟨rfl, .inr (.inr (.inl rfl))⟩⟩
  · exact ⟨q ++ [cpu], h.join hsm hcpu⟩
  dsimp only
  rw [if_neg (h.state_ne hsm hcpu)]
  exact ⟨q, h.stray hcpu ⟨rfl, .inl rfl⟩⟩

lemma Inv.advance_first (h : Inv l past (cpu :: rest)) :
    ∃ past' q', Inv (l.advance cpu) past' q' := by
  unfold advance
  cases h.queue.1 with
  | waiting hcpu hstate hentered =>
    rcases hcpu with hsp | hcl
    · rw [hsp]
      dsimp only
      rw [if_pos rfl]
      exact ⟨past, _, h.lead (.waiting (.inr (set_self _ _)) hstate hentered)⟩
    rw [hcl]
    exact ⟨past, _, h.lead (.holding (congrArg Cpu.holding (set_self _ _))
      (.inl (congrArg Cpu.phase (set_self _ _))) rfl (by rw [hentered]))⟩
  | holding hcpu hphase hstate hentered =>
    rw [hcpu]
    have hst : ∃ past' q', Inv (l.set cpu .outside true) past' q' :=
      ⟨past, _, h.lead (.holding (congrArg Cpu.holding (set_self _ _))
        (.inl (congrArg Cpu.phase (set_self _ _))) hstate hentered)⟩
    rcases hphase with hphase | hphase | hphase
    · rw [hphase]
      exact ⟨past, _, h⟩
    · rw [hphase]
      dsimp only
      rw [if_pos hstate]
      exact hst
    rw [hphase]
    dsimp only
    rw [if_pos hstate]
    exact ⟨past, _, h.lead (.leaving (set_self _ _) rfl hentered)⟩
  | leaving hcpu hstate hentered =>
    rw [hcpu]
    exact ⟨past ++ [cpu], rest, h.leave hstate hentered⟩

lemma Inv.advance (h : Inv l past q) (hsm : cpu < 255) :
    ∃ past' q', Inv (l.advance cpu) past' q' := by
  rcases h.position cpu with hcpu | ⟨rest, rfl⟩ | ⟨ticket, hsp, hne⟩
  · obtain ⟨q', hi⟩ := h.advance_away hsm hcpu
    exact ⟨past, q', hi⟩
  · exact h.advance_first
  -- a CPU behind the first one keeps spinning
  unfold Lock.advance
  rw [hsp]
  dsimp only
  rw [if_neg hne.symm]
  exact ⟨past, q, h⟩

lemma Inv.call (h : Inv l past q) (hphase : phase = .check ∨ phase = .release) :
    Inv (l.call cpu phase) past q := by
  unfold Lock.call
  by_cases ho : (l.cpus cpu).phase = .outside
  · rw [if_pos ho]
    rcases h.position cpu with hcpu | ⟨rest, rfl⟩ | ⟨ticket, hsp, _⟩
    · rw [(h.away cpu hcpu).1]
      apply h.stray hcpu
      rcases hphase with rfl | rfl
      · exact ⟨rfl, .inr (.inl rfl)⟩
      · exact ⟨rfl, .inr (.inr (.inr rfl))⟩
    · obtain ⟨hhl, hstate, hentered⟩ := h.queue.1.holds (.inl ho)
      rw [hhl]
      apply h.lead (.holding (congrArg Cpu.holding (set_self _ _)) ?_ hstate hentered)
      right
      rcases hphase with rfl | rfl
      · exact .inl (congrArg Cpu.phase (set_self _ _))
      · exact .inr (congrArg Cpu.phase (set_self _ _))
    · rw [hsp] at ho
      cases ho
  · rw [if_neg ho]
    exact h

lemma Inv.act (h : Inv l past q) (hsm : cpu < 255) (action : Action) :
    ∃ past' q', Inv (l.act cpu action) past' q' := by
  cases action with
  | lockPrcb => exact ⟨past, q, h.call (.inl rfl)⟩
  | unlockPrcb => exact ⟨past, q, h.call (.inr rfl)⟩
  | advance => exact h.advance hsm

lemma lt_of_currentLockOwner (h : (currentLockOwner cpu).isSome = true) : cpu < 255 := by
  unfold currentLockOwner at h
  by_contra hge
  rw [if_neg hge] at h
  cases h

lemma step_inv {locks : Nat → Lock} (h : ∀ c, ∃ past q, Inv (locks c) past q) (op : Op) (c : Nat) :
    ∃ past q, Inv (step locks op c) past q := by
  unfold step
  by_cases hop : op.index < MAX_PERCPU_LOCKS ∧ (currentLockOwner op.cpu).isSome
  · rw [if_pos hop]
    by_cases hc : c = op.index
    · rw [hc, update_self]
      obtain ⟨past, q, hi⟩ := h op.index
      exact hi.act (lt_of_currentLockOwner hop.2) op.action
    · rw [update_of_ne hc]
      exact h c
  · rw [if_neg hop]
    exact h c

/-! ## Runs -/

lemma run_inv (ops : List Op) {locks : Nat → Lock} (h : ∀ c, ∃ past q, Inv (locks c) past q) :
    ∀ c, ∃ past q, Inv (ops.foldl step locks c) past q := by
  induction ops generalizing locks with
  | nil => exact h
  | cons op ops ih => exact ih (step_inv h op)

lemma Inv.holding_first (h : Inv l past q) (hcpu : (l.cpus cpu).holding = true) :
    ∃ rest, q = cpu :: rest := by
  rcases h.position cpu with hm | hfs | ⟨ticket, hsp, _⟩
  · rw [(h.away cpu hm).1] at hcpu
    cases hcpu
  · exact hfs
  · rw [hsp] at hcpu
    cases hcpu

lemma Inv.entered_prefix (h : Inv l past q) : l.entered <+: l.drawn := by
  rw [h.drawn]
  cases q with
  | nil =>
    rw [h.queue.2]
    exact prefix_append past []
  | cons c rest =>
    have hon : past ++ [c] <+: past ++ c :: rest := ⟨rest, by simp⟩
    cases h.queue.1 with
    | waiting _ _ hentered =>
      rw [hentered]
      exact prefix_append past _
    | holding _ _ _ hentered => exact hentered ▸ hon
    | leaving _ _ hentered => exact hentered ▸ hon

lemma Inv.release_away (h : Inv l past q) (hsm : cpu < 255)
    (hphase : (l.cpus cpu).phase = .release) (hcpu : (l.cpus cpu).holding = false) :
    l.advance cpu = l.set cpu .outside false := by
  have haw : cpu ∉ q := by
    rcases h.position cpu with hm | ⟨rest, rfl⟩ | ⟨ticket, hsp, _⟩
    · exact hm
    · have hhl := (h.queue.1.holds (.inr hphase)).1
      rw [hcpu] at hhl
      cases hhl
    · rw [hsp] at hphase
      cases hphase
  unfold Lock.advance
  rw [hphase, hcpu]
  dsimp only
  rw [if_neg (h.state_ne hsm haw)]

/-- **Dispatcher locks.** In any interleaving of the atomic operations at most one CPU holds a lock,
the CPUs have got it in the order in which they drew their tickets, and an `unlock_prcb` of a CPU
that does not hold it changes nothing. -/
theorem ticketLock_fifo (count : Nat → BitVec 32) (ops : List Op) (c : Nat) :
    let l := ops.foldl step (fun c => free (count c)) c
    (∀ a b, (l.cpus a).holding = true → (l.cpus b).holding = true → a = b) ∧ l.entered <+: l.drawn
      ∧ ∀ cpu, cpu < 255 → (l.cpus cpu).phase = .release → (l.cpus cpu).holding = false →
          l.advance cpu = l.set cpu .outside false := by
  intro l
  obtain ⟨_, _, hi⟩ := run_inv ops (fun c => ⟨[], [], free_inv (count c)⟩) c
  refine ⟨?_, hi.entered_prefix, fun cpu hsm => hi.release_away hsm⟩
  intro a b ha hb
  obtain ⟨_, hr⟩ := hi.holding_first ha
  obtain ⟨_, hr'⟩ := hi.holding_first hb
  rw [hr] at hr'
  exact (List.cons.inj hr').1

end Nt61.Scheduler.TicketLock
