/-
Pipe — `io/pipe.rs`: anonymous pipes.

A pipe has two ids, `base_id` for its read end and `base_id + 1` for its write end, which are never
given back, and a slot of the table, which is used again when both ends have been closed. A `System`
is the table together with a history that no code reads: every live pipe has its slot for itself,
and its buffer is what was accepted for that pipe and not yet read (`Inv`).
-/
import Nt61.Lib.Bytes
import Nt61.Lib.Checked
import Nt61.Lib.Run

namespace Nt61.Pipe

open Lib Function List Option

/-! ## The code -/

def PIPE_BUFFER_SIZE : Nat := 64 * 1024

def encodePipeEvent (signaled manualReset : Bool) : UInt64 :=
  let lo : UInt64 := if signaled then 1 else 0
  let kind : UInt64 := (1 : UInt64) <<< 1 ||| (if manualReset then (1 : UInt64) <<< 8 else 0)
  let hi : UInt64 := kind <<< 32
  hi ||| lo

structure PipeState where
  baseId : Nat
  buffer : Bytes
  writeOpen : Bool
  readOpen : Bool
  readEventTarget : UInt64
  writeEventTarget : UInt64
  deriving DecidableEq

def PipeState.new (baseId : Nat) : PipeState :=
  { baseId := baseId
    buffer := []
    writeOpen := true
    readOpen := true
    readEventTarget := encodePipeEvent true false
    writeEventTarget := encodePipeEvent false false }

structure Pipes where
  slots : List (Option PipeState)
  nextPipeId : Nat
  deriving DecidableEq

def allocSlot (slots : List (Option PipeState)) (state : PipeState) :
    Nat × List (Option PipeState) :=
  match slots.findIdx? isNone with
  | some idx => (idx, slots.set idx (some state))
  | none => (slots.length, slots ++ [some state])

/-- `none`: the addition overflows. -/
def pipeMatchesId (slot : Option PipeState) (pipeId : Nat) : Option Bool :=
  match slot with
  | none => some false
  | some state =>
    if pipeId ≥ state.baseId then
      (Checked.add 64 state.baseId 2).map fun stop => decide (pipeId < stop)
    else some false

def position (pipeId : Nat) : Nat → List (Option PipeState) → Option (Option Nat)
  | _, [] => some none
  | idx, slot :: slots =>
    (pipeMatchesId slot pipeId).bind fun found =>
      if found then some (some idx) else position pipeId (idx + 1) slots

namespace Pipes

def createAnonymous (p : Pipes) : (Nat × Nat × Nat) × Pipes :=
  let id := p.nextPipeId
  let (idx, slots) := allocSlot p.slots (PipeState.new id)
  ((idx, id, (id + 1) % 2 ^ 64), { slots := slots, nextPipeId := (id + 2) % 2 ^ 64 })

def slotForId (p : Pipes) (pipeId : Nat) : Option (Option (Nat × Bool)) :=
  if pipeId = 0 then some none
  else
    (position pipeId 0 p.slots).map fun found =>
      found.map fun idx =>
        (idx, (((p.slots[idx]?).bind id).map fun state => decide (pipeId ≠ state.baseId)).getD false)

def read (p : Pipes) (idx len : Nat) : Bytes × Pipes :=
  match p.slots[idx]? with
  | some (some state) =>
    if !state.readOpen then ([], p)
    else
      let take := min len state.buffer.length
      let buffer := state.buffer.drop take
      let writeEventTarget :=
        if buffer.length < PIPE_BUFFER_SIZE then encodePipeEvent true false
        else state.writeEventTarget
      let state' := { state with buffer := buffer, writeEventTarget := writeEventTarget }
      (state.buffer.take take, { p with slots := p.slots.set idx (some state') })
  | _ => ([], p)

def write (p : Pipes) (idx : Nat) (data : Bytes) : Nat × Pipes :=
  match p.slots[idx]? with
  | some (some state) =>
    if !state.writeOpen then (0, p)
    else
      let free := PIPE_BUFFER_SIZE - state.buffer.length
      let take := min data.length free
      let buffer := state.buffer ++ data.take take
      let readEventTarget :=
        if !buffer.isEmpty then encodePipeEvent true false else state.readEventTarget
      let state' := { state with buffer := buffer, readEventTarget := readEventTarget }
      (take, { p with slots := p.slots.set idx (some state') })
  | _ => (0, p)

def closeEnd (p : Pipes) (idx : Nat) (isRead : Bool) : Pipes :=
  match p.slots[idx]? with
  | some (some state) =>
    let state' :=
      if isRead then { state with readOpen := false }
      else { state with writeOpen := false, readEventTarget := encodePipeEvent true false }
    let slot := if !state'.readOpen && !state'.writeOpen then none else some state'
    { p with slots := p.slots.set idx slot }
  | _ => p

end Pipes

/-! ## Callers -/

/-- An answer of `slot_for_id`, with the id that was asked for. -/
structure Handle where
  id : Nat
  slot : Nat
  isWrite : Bool
  deriving DecidableEq

def Handle.pipe (h : Handle) : Nat := if h.isWrite then h.id - 1 else h.id

structure System where
  pipes : Pipes
  /-- The pipes in the order of their creation, and their slots. -/
  created : List (Nat × Nat)
  accepted : Nat → Bytes
  delivered : Nat → Bytes
  /-- Whether the read end (`true`) or the write end (`false`) of a pipe has been closed. -/
  closed : Nat → Bool → Bool
  obtained : List Handle

def System.initial : System :=
  { pipes := ⟨[], 1⟩
    created := []
    accepted := fun _ => []
    delivered := fun _ => []
    closed := fun _ _ => false
    obtained := [] }

inductive Op where
  | create
  | lookup (id : Nat)
  | read (h : Handle) (len : Nat)
  | write (h : Handle) (data : Bytes)
  | close (h : Handle) (isRead : Bool)

/-- Fewer than 2^62 pipes are created; a slot is used under an id whose end is still open. -/
def Allowed (s : System) : Op → Prop
  | .create => s.created.length + 1 < 2 ^ 62
  | .lookup _ => True
  | .read h _ => h ∈ s.obtained ∧ s.closed h.pipe (!h.isWrite) = false
  | .write h _ => h ∈ s.obtained ∧ s.closed h.pipe (!h.isWrite) = false
  | .close h _ => h ∈ s.obtained ∧ s.closed h.pipe (!h.isWrite) = false

instance (s : System) (op : Op) : Decidable (Allowed s op) :=
  match op with
  | .create => inferInstanceAs (Decidable (s.created.length + 1 < 2 ^ 62))
  | .lookup _ => inferInstanceAs (Decidable True)
  | .read h _ => inferInstanceAs (Decidable (h ∈ s.obtained ∧ s.closed h.pipe (!h.isWrite) = false))
  | .write h _ => inferInstanceAs (Decidable (h ∈ s.obtained ∧ s.closed h.pipe (!h.isWrite) = false))
  | .close h _ => inferInstanceAs (Decidable (h ∈ s.obtained ∧ s.closed h.pipe (!h.isWrite) = false))

def step : Op → System → Option System
  | .create, s =>
    let ((idx, readId, _), pipes) := s.pipes.createAnonymous
    some { s with pipes := pipes, created := s.created ++ [(readId, idx)] }
  | .lookup id, s =>
    (s.pipes.slotForId id).map fun answer =>
      match answer with
      | none => s
      | some (idx, isWrite) => { s with obtained := ⟨id, idx, isWrite⟩ :: s.obtained }
  | .read h len, s =>
    let (bytes, pipes) := s.pipes.read h.slot len
    some { s with
      pipes := pipes
      delivered := update s.delivered h.pipe (s.delivered h.pipe ++ bytes) }
  | .write h data, s =>
    let (n, pipes) := s.pipes.write h.slot data
    some { s with
      pipes := pipes
      accepted := update s.accepted h.pipe (s.accepted h.pipe ++ data.take n) }
  | .close h isRead, s =>
    some { s with
      pipes := s.pipes.closeEnd h.slot isRead
      closed := update s.closed h.pipe
        (update (s.closed h.pipe) isRead true) }

/-! ## The table -/

lemma allocSlot_spec (slots : List (Option PipeState)) (state : PipeState) :
    (∀ old, slots[(allocSlot slots state).1]? ≠ some (some old))
      ∧ (allocSlot slots state).2[(allocSlot slots state).1]? = some (some state)
      ∧ ∀ j, j ≠ (allocSlot slots state).1 → (allocSlot slots state).2[j]? = slots[j]? := by
  unfold allocSlot
  cases hfi : slots.findIdx? isNone with
  | some idx =>
    obtain ⟨hlt, hn, _⟩ := findIdx?_eq_some_iff_getElem.mp hfi
    refine ⟨?_, ?_, ?_⟩
    · intro old hold
      rw [getElem?_eq_getElem hlt] at hold
      rw [some.inj hold] at hn
      cases hn
    · exact getElem?_set_self hlt
    · intro j hj
      exact getElem?_set_ne (Ne.symm hj)
  | none =>
    refine ⟨?_, ?_, ?_⟩
    · intro old hold
      rw [getElem?_eq_none (Nat.le_refl _)] at hold
      cases hold
    · exact getElem?_concat_length
    intro j hj
    by_cases hlt : j < slots.length
    · exact getElem?_append_left hlt
    have hj' : slots.length < j := by
      have : j ≠ slots.length := hj
      omega
    rw [getElem?_eq_none (by rw [length_append]; exact hj'), getElem?_eq_none (by omega)]

def owns (pipeId : Nat) : Option PipeState → Bool
  | none => false
  | some state => decide (state.baseId ≤ pipeId ∧ pipeId < state.baseId + 2)

lemma pipeMatchesId_eq {slot : Option PipeState} {pipeId : Nat}
    (hro : ∀ state, slot = some state → state.baseId + 2 < 2 ^ 64) :
    pipeMatchesId slot pipeId = some (owns pipeId slot) := by
  cases slot with
  | none => rfl
  | some state =>
    have had := Checked.add_eq (hro state rfl)
    unfold pipeMatchesId owns
    by_cases hle : state.baseId ≤ pipeId
    · simp [hle, had]
    · simp [hle]

lemma position_eq {pipeId : Nat} (slots : List (Option PipeState)) (idx : Nat)
    (hro : ∀ state, some state ∈ slots → state.baseId + 2 < 2 ^ 64) :
    position pipeId idx slots = some ((slots.findIdx? (owns pipeId)).map (idx + ·)) := by
  induction slots generalizing idx with
  | nil => rfl
  | cons slot slots ih =>
    have hsl : ∀ state, slot = some state → state.baseId + 2 < 2 ^ 64 :=
      fun state heq => hro state (heq ▸ mem_cons_self)
    rw [position, pipeMatchesId_eq hsl, bind_some, findIdx?_cons]
    cases hon : owns pipeId slot with
    | true => rfl
    | false =>
      rw [if_neg Bool.false_ne_true, if_neg Bool.false_ne_true,
        ih (idx + 1) fun state hmem => hro state (mem_cons_of_mem _ hmem), Option.map_map]
      congr 2
      funext j
      show idx + 1 + j = idx + (j + 1)
      omega

/-! ## The invariant -/

/-- Both ends have been closed. -/
def Dead (s : System) (p : Nat) : Prop := s.closed p true = true ∧ s.closed p false = true

/-- The state of a slot is that of the pipe `p`. -/
structure Holds (s : System) (p : Nat) (state : PipeState) : Prop where
  id : state.baseId = p
  readOpen : state.readOpen = !s.closed p true
  writeOpen : state.writeOpen = !s.closed p false
  buffered : s.accepted p = s.delivered p ++ state.buffer
  room : state.buffer.length ≤ PIPE_BUFFER_SIZE

structure Inv (s : System) : Prop where
  few : s.created.length < 2 ^ 62
  next : s.pipes.nextPipeId = 1 + 2 * s.created.length
  ids : ∀ k p i, s.created[k]? = some (p, i) → p = 1 + 2 * k
  live : ∀ p i, (p, i) ∈ s.created → ¬ Dead s p →
    ∃ state, s.pipes.slots[i]? = some (some state) ∧ Holds s p state
  slot : ∀ i state, s.pipes.slots[i]? = some (some state) →
    (state.baseId, i) ∈ s.created ∧ ¬ Dead s state.baseId
  inOrder : ∀ p, s.delivered p <+: s.accepted p
  fresh : ∀ p, s.pipes.nextPipeId ≤ p → s.accepted p = [] ∧ s.delivered p = []
    ∧ s.closed p = fun _ => false
  handles : ∀ h ∈ s.obtained, (h.pipe, h.slot) ∈ s.created

variable {s s' : System} {p q i j : Nat}

lemma Inv.initial : Inv System.initial where
  few := by decide
  next := rfl
  ids := nofun
  live := nofun
  slot := nofun
  inOrder := fun p => prefix_rfl
  fresh := fun p _ => ⟨rfl, rfl, rfl⟩
  handles := nofun

lemma Holds.congr {state : PipeState} (h : Holds s p state) (ha : s'.accepted p = s.accepted p)
    (hd : s'.delivered p = s.delivered p) (hc : s'.closed p = s.closed p) : Holds s' p state where
  id := h.id
  readOpen := hc ▸ h.readOpen
  writeOpen := hc ▸ h.writeOpen
  buffered := ha.trans (hd ▸ h.buffered)
  room := h.room

section

variable (h : Inv s)
include h

lemma Inv.id_spec (hp : (p, i) ∈ s.created) : p % 2 = 1 ∧ p < 1 + 2 * s.created.length := by
  obtain ⟨k, hk, heq⟩ := mem_iff_getElem.mp hp
  have hid := h.ids k p i (by rw [getElem?_eq_getElem hk, heq])
  omega

lemma Inv.slot_unique (hi : (p, i) ∈ s.created) (hj : (p, j) ∈ s.created) : i = j := by
  obtain ⟨k, hk, hki⟩ := mem_iff_getElem.mp hi
  obtain ⟨k', hk', hkj⟩ := mem_iff_getElem.mp hj
  have hid := h.ids k p i (by rw [getElem?_eq_getElem hk, hki])
  have hid' := h.ids k' p j (by rw [getElem?_eq_getElem hk', hkj])
  obtain rfl : k = k' := by omega
  exact congrArg Prod.snd (hki.symm.trans hkj)

lemma Inv.pipe_unique (hp : (p, i) ∈ s.created) (hq : (q, i) ∈ s.created)
    (hlv : ¬ Dead s p) (hlv' : ¬ Dead s q) : p = q := by
  obtain ⟨_, hst, hho⟩ := h.live p i hp hlv
  obtain ⟨_, hst', hho'⟩ := h.live q i hq hlv'
  rw [hst] at hst'
  rw [← hho.id, ← hho'.id, some.inj (some.inj hst')]

lemma Inv.replace (hp : (p, i) ∈ s.created) (hlv : ¬ Dead s p) {slot : Option PipeState}
    (hss : s'.pipes.slots = s.pipes.slots.set i slot)
    (hs : s'.pipes.nextPipeId = s.pipes.nextPipeId ∧ s'.created = s.created
      ∧ s'.obtained = s.obtained)
    (hfr : ∀ q, q ≠ p → s'.accepted q = s.accepted q ∧ s'.delivered q = s.delivered q
      ∧ s'.closed q = s.closed q)
    (hsl : (slot = none ∧ Dead s' p ∧ s'.delivered p <+: s'.accepted p)
      ∨ ∃ state, slot = some state ∧ Holds s' p state ∧ ¬ Dead s' p) : Inv s' := by
  obtain ⟨hnx, hcr, hob⟩ := hs
  obtain ⟨_, hold, _⟩ := h.live p i hp hlv
  have hlt : i < s.pipes.slots.length := (List.getElem?_eq_some_iff.mp hold).1
  have hse : s'.pipes.slots[i]? = some slot := by
    rw [hss]
    exact List.getElem?_set_self hlt
  have hot : ∀ j, j ≠ i → s'.pipes.slots[j]? = s.pipes.slots[j]? := by
    intro j hj
    rw [hss]
    exact getElem?_set_ne (Ne.symm hj)
  have hde : ∀ q, q ≠ p → (Dead s' q ↔ Dead s q) := by
    intro q hq
    unfold Dead
    rw [(hfr q hq).2.2]
  refine ⟨?_, ?_, ?_, ?_, ?_, ?_, ?_, ?_⟩
  · rw [hcr]
    exact h.few
  · rw [hnx, hcr]
    exact h.next
  · rw [hcr]
    exact h.ids
  · intro q j hq hlv'
    rw [hcr] at hq
    by_cases hqp : q = p
    · -- the pipe itself: its slot is not free, or it would be dead
      subst hqp
      obtain rfl := h.slot_unique hq hp
      rcases hsl with ⟨_, hde', _⟩ | ⟨state, hst, hho', _⟩
      · exact absurd hde' hlv'
      · exact ⟨state, by rw [hse, hst], hho'⟩
    have hlive'' : ¬ Dead s q := mt (hde q hqp).mpr hlv'
    have hj : j ≠ i := by
      intro heq
      subst heq
      exact hqp (h.pipe_unique hq hp hlive'' hlv)
    obtain ⟨state, hst, hq'⟩ := h.live q j hq hlive''
    obtain ⟨ha, hd, hc⟩ := hfr q hqp
    exact ⟨state, by rw [hot j hj, hst], hq'.congr ha hd hc⟩
  · intro j state hst
    rw [hcr]
    by_cases hj : j = i
    · subst hj
      rw [hse] at hst
      rcases hsl with ⟨hn, _⟩ | ⟨state', hst', hho', hlv'⟩
      · rw [hn] at hst
        cases hst
      rw [hst'] at hst
      rw [← some.inj (some.inj hst), hho'.id]
      exact ⟨hp, hlv'⟩
    rw [hot j hj] at hst
    obtain ⟨hmem, hlv'⟩ := h.slot j state hst
    have hne : state.baseId ≠ p := by
      intro heq
      rw [heq] at hmem
      exact hj (h.slot_unique hmem hp)
    exact ⟨hmem, mt (hde _ hne).mp hlv'⟩
  · intro q
    by_cases hqp : q = p
    · rw [hqp]
      rcases hsl with ⟨_, _, hor⟩ | ⟨_, _, hho', _⟩
      · exact hor
      · exact ⟨_, hho'.buffered.symm⟩
    · rw [(hfr q hqp).1, (hfr q hqp).2.1]
      exact h.inOrder q
  · intro q hq
    rw [hnx] at hq
    have hbl := h.id_spec hp
    have hqp : q ≠ p := by
      have := h.next
      omega
    obtain ⟨ha, hd, hc⟩ := hfr q hqp
    rw [ha, hd, hc]
    exact h.fresh q hq
  · rw [hob, hcr]
    exact h.handles

/-! ## The calls -/

lemma Inv.create (hfw : s.created.length + 1 < 2 ^ 62) (hs : step .create s = some s') :
    Inv s' := by
  obtain ⟨hun, hse, hot⟩ := allocSlot_spec s.pipes.slots (PipeState.new s.pipes.nextPipeId)
  have hca : step .create s = some { s with
      pipes := ⟨(allocSlot s.pipes.slots (PipeState.new s.pipes.nextPipeId)).2,
        (s.pipes.nextPipeId + 2) % 2 ^ 64⟩
      created := s.created ++ [(s.pipes.nextPipeId,
        (allocSlot s.pipes.slots (PipeState.new s.pipes.nextPipeId)).1)] } := rfl
  generalize (allocSlot s.pipes.slots (PipeState.new s.pipes.nextPipeId)).1 = idx at *
  rw [hca] at hs
  cases hs
  have hnx := h.next
  have hfr := h.fresh s.pipes.nextPipeId (Nat.le_refl _)
  have hopen : ¬ Dead s s.pipes.nextPipeId := by
    intro hde
    unfold Dead at hde
    rw [hfr.2.2] at hde
    exact Bool.false_ne_true hde.1
  -- the counter does not wrap
  refine ⟨?_, ?_, ?_, ?_, ?_, h.inOrder, ?_, ?_⟩
  · rw [length_append]
    exact hfw
  · show (s.pipes.nextPipeId + 2) % 2 ^ 64 = 1 + 2 * (s.created ++ [_]).length
    rw [length_append, length_singleton]
    omega
  · intro k p i hk
    rw [getElem?_append] at hk
    split at hk
    · exact h.ids k p i hk
    have hla : k - s.created.length = 0 := by
      by_contra hne
      rw [getElem?_eq_none (by simp; omega)] at hk
      cases hk
    rw [hla] at hk
    cases hk
    omega
  · intro p i hp hlv
    rcases mem_append.mp hp with hp | hp
    · obtain ⟨state, hst, hho⟩ := h.live p i hp hlv
      have hne : i ≠ idx := fun heq => hun state (heq ▸ hst)
      exact ⟨state, (hot i hne).trans hst, hho.congr rfl rfl rfl⟩
    cases mem_singleton.mp hp
    refine ⟨_, hse, rfl, ?_, ?_, ?_, Nat.zero_le _⟩
    · rw [hfr.2.2]
      rfl
    · rw [hfr.2.2]
      rfl
    · rw [hfr.1, hfr.2.1]
      rfl
  · intro j state hst
    by_cases hj : j = idx
    · subst hj
      cases hse.symm.trans hst
      exact ⟨mem_append_right _ (mem_singleton_self _), hopen⟩
    · obtain ⟨hmem, hlv⟩ := h.slot j state ((hot j hj).symm.trans hst)
      exact ⟨mem_append_left _ hmem, hlv⟩
  · intro p hp
    apply h.fresh
    have hp' : (s.pipes.nextPipeId + 2) % 2 ^ 64 ≤ p := hp
    omega
  · intro handle hmem
    exact mem_append_left _ (h.handles handle hmem)

lemma Inv.room {state : PipeState} (hmem : some state ∈ s.pipes.slots) :
    state.baseId + 2 < 2 ^ 64 := by
  obtain ⟨i, hi, heq⟩ := mem_iff_getElem.mp hmem
  obtain ⟨hcr, _⟩ := h.slot i state (by rw [getElem?_eq_getElem hi, heq])
  have hid := h.id_spec hcr
  have hfw := h.few
  omega

lemma Inv.lookup {id : Nat} (hs : step (.lookup id) s = some s') : Inv s' := by
  obtain ⟨answer, han, rfl⟩ := map_eq_some_iff.mp hs
  cases answer with
  | none => exact h
  | some answer =>
    obtain ⟨idx, isWrite⟩ := answer
    have hpp : ((⟨id, idx, isWrite⟩ : Handle).pipe, idx) ∈ s.created := by
      unfold Pipes.slotForId at han
      split at han
      · cases han
      rw [position_eq _ 0 fun state => h.room] at han
      cases hfi : s.pipes.slots.findIdx? (owns id) with
      | none =>
        rw [hfi] at han
        cases han
      | some k =>
        obtain ⟨hk, hon, _⟩ := findIdx?_eq_some_iff_getElem.mp hfi
        rw [hfi] at han
        simp only [map_some, Nat.zero_add, some_inj, Prod.mk.injEq] at han
        obtain ⟨rfl, hwr⟩ := han
        cases hsl : s.pipes.slots[k] with rw [hsl] at hon
        | none => cases hon
        | some state =>
          rw [getElem?_eq_getElem hk, hsl] at hwr
          obtain ⟨hcr, _⟩ := h.slot k state (by rw [getElem?_eq_getElem hk, hsl])
          have hi := of_decide_eq_true hon
          -- an id that is not the base id is the one behind it
          have hb : (⟨id, k, isWrite⟩ : Handle).pipe = state.baseId := by
            unfold Handle.pipe
            rw [← hwr]
            by_cases hid : id = state.baseId
            · simp [hid]
            · simp [hid]
              omega
          rw [hb]
          exact hcr
    refine ⟨h.few, h.next, h.ids, ?_, h.slot, h.inOrder, h.fresh,
      forall_mem_cons.mpr ⟨hpp, h.handles⟩⟩
    intro p i hp hlv
    obtain ⟨state, hst, hho⟩ := h.live p i hp hlv
    exact ⟨state, hst, hho.congr rfl rfl rfl⟩

lemma Inv.handle {handle : Handle} (hmem : handle ∈ s.obtained)
    (hopen : s.closed handle.pipe (!handle.isWrite) = false) :
    (handle.pipe, handle.slot) ∈ s.created ∧ ¬ Dead s handle.pipe
      ∧ ∃ state, s.pipes.slots[handle.slot]? = some (some state) ∧ Holds s handle.pipe state := by
  have hcr := h.handles handle hmem
  have hlv : ¬ Dead s handle.pipe := by
    intro hde
    cases hwr : handle.isWrite with
    | true =>
      rw [hwr, Bool.not_true, hde.2] at hopen
      cases hopen
    | false =>
      rw [hwr, Bool.not_false, hde.1] at hopen
      cases hopen
  exact ⟨hcr, hlv, h.live _ _ hcr hlv⟩

end

lemma step_read (handle : Handle) (len : Nat) (s : System) :
    step (.read handle len) s = some { s with
      pipes := (s.pipes.read handle.slot len).2
      delivered := update s.delivered handle.pipe
        (s.delivered handle.pipe ++ (s.pipes.read handle.slot len).1) } := rfl

lemma step_write (handle : Handle) (data : Bytes) (s : System) :
    step (.write handle data) s = some { s with
      pipes := (s.pipes.write handle.slot data).2
      accepted := update s.accepted handle.pipe
        (s.accepted handle.pipe ++ data.take (s.pipes.write handle.slot data).1) } := rfl

section

variable {handle : Handle} (h : Inv s) (hmem : handle ∈ s.obtained)
  (hopen : s.closed handle.pipe (!handle.isWrite) = false)
include h hmem hopen

lemma Inv.read {len : Nat} (hs : step (.read handle len) s = some s') : Inv s' := by
  obtain ⟨hcr, hlv, state, hst, hho⟩ := h.handle hmem hopen
  rw [step_read] at hs
  cases hs
  unfold Pipes.read
  rw [hst]
  dsimp only
  by_cases hrd : (!state.readOpen) = true
  · -- the read end is closed: nothing is read
    rw [if_pos hrd]
    rw [append_nil, update_eq_self]
    exact h
  rw [if_neg hrd]
  have hsp : state.buffer.take (min len state.buffer.length)
      ++ state.buffer.drop (min len state.buffer.length) = state.buffer :=
    take_append_drop _ _
  have hbf : s.accepted handle.pipe = s.delivered handle.pipe
      ++ state.buffer.take (min len state.buffer.length)
      ++ state.buffer.drop (min len state.buffer.length) := by
    rw [hho.buffered, append_assoc, hsp]
  refine h.replace hcr hlv rfl ⟨rfl, rfl, rfl⟩ ?_ (.inr ⟨_, rfl, ?_, hlv⟩)
  · intro q hq
    exact ⟨rfl, update_of_ne hq _ _, rfl⟩
  refine ⟨hho.id, hho.readOpen, hho.writeOpen, ?_, ?_⟩
  · show s.accepted handle.pipe = update s.delivered handle.pipe _ handle.pipe ++ _
    rw [update_self]
    exact hbf
  rw [length_drop]
  have hro := hho.room
  omega

lemma Inv.write {data : Bytes} (hs : step (.write handle data) s = some s') : Inv s' := by
  obtain ⟨hcr, hlv, state, hst, hho⟩ := h.handle hmem hopen
  rw [step_write] at hs
  cases hs
  unfold Pipes.write
  rw [hst]
  dsimp only
  by_cases hwr : (!state.writeOpen) = true
  · -- the write end is closed: nothing is accepted
    rw [if_pos hwr]
    rw [take_zero, append_nil, update_eq_self]
    exact h
  rw [if_neg hwr]
  generalize hta : min data.length (PIPE_BUFFER_SIZE - state.buffer.length) = take
  have hbf : s.accepted handle.pipe ++ data.take take
      = s.delivered handle.pipe ++ (state.buffer ++ data.take take) := by
    rw [hho.buffered, append_assoc]
  refine h.replace hcr hlv rfl ⟨rfl, rfl, rfl⟩ ?_ (.inr ⟨_, rfl, ?_, hlv⟩)
  · intro q hq
    exact ⟨update_of_ne hq _ _, rfl, rfl⟩
  refine ⟨hho.id, hho.readOpen, hho.writeOpen, ?_, ?_⟩
  · show update s.accepted handle.pipe _ handle.pipe = _
    rw [update_self]
    exact hbf
  rw [length_append, length_take]
  have hro := hho.room
  omega

lemma Inv.close {isRead : Bool} (hs : step (.close handle isRead) s = some s') : Inv s' := by
  obtain ⟨hcr, hlv, state, hst, hho⟩ := h.handle hmem hopen
  cases hs
  unfold Pipes.closeEnd
  rw [hst]
  dsimp only
  generalize haf : (if isRead then { state with readOpen := false }
    else { state with writeOpen := false, readEventTarget := encodePipeEvent true false })
    = state'
  -- the flags of the slot are those of the history, before and after
  have hfl : state'.baseId = handle.pipe ∧ state'.buffer = state.buffer
      ∧ state'.readOpen = !update (s.closed handle.pipe) isRead true true
      ∧ state'.writeOpen = !update (s.closed handle.pipe) isRead true false := by
    rw [← haf]
    cases isRead with
    | true => exact ⟨hho.id, rfl, rfl, hho.writeOpen⟩
    | false => exact ⟨hho.id, rfl, hho.readOpen, rfl⟩
  obtain ⟨hid, hbf, hrd, hwr⟩ := hfl
  refine h.replace hcr hlv rfl ⟨rfl, rfl, rfl⟩ ?_ ?_
  · intro q hq
    exact ⟨rfl, rfl, update_of_ne hq _ _⟩
  by_cases hbt : (!state'.readOpen && !state'.writeOpen) = true
  · left
    rw [if_pos hbt]
    refine ⟨rfl, ?_, h.inOrder handle.pipe⟩
    dsimp only [Dead]
    simpa [hrd, hwr] using hbt
  right
  rw [if_neg hbt]
  refine ⟨state', rfl, ⟨hid, ?_, ?_, ?_, ?_⟩, ?_⟩
  · dsimp only
    rw [update_self]
    exact hrd
  · dsimp only
    rw [update_self]
    exact hwr
  · rw [hbf]
    exact hho.buffered
  · rw [hbf]
    exact hho.room
  · dsimp only [Dead]
    simpa [hrd, hwr] using hbt

end

lemma step_inv {op : Op} (h : Inv s) (hal : Allowed s op) (hs : step op s = some s') : Inv s' := by
  cases op with
  | create => exact h.create hal hs
  | lookup id => exact h.lookup hs
  | read handle len => exact h.read hal.1 hal.2 hs
  | write handle data => exact h.write hal.1 hal.2 hs
  | close handle isRead => exact h.close hal.1 hal.2 hs

/-! ## Runs -/

/-- The pipe `p` was created in slot `i` and has an open end. -/
def Live (s : System) (p i : Nat) : Prop := (p, i) ∈ s.created ∧ ¬ Dead s p

lemma Inv.slotForId (h : Inv s) (hp : Live s p i) (isWrite : Bool) :
    s.pipes.slotForId (p + isWrite.toNat) = some (some (i, isWrite)) := by
  obtain ⟨state, hst, hho⟩ := h.live p i hp.1 hp.2
  obtain ⟨hlt, hgt⟩ := List.getElem?_eq_some_iff.mp hst
  have hod := (h.id_spec hp.1).1
  have hbt : isWrite.toNat ≤ 1 := Bool.toNat_le isWrite
  -- no other slot owns the id, as base ids are odd
  have hfi : s.pipes.slots.findIdx? (owns (p + isWrite.toNat)) = some i := by
    rw [findIdx?_eq_some_iff_getElem]
    refine ⟨hlt, ?_, ?_⟩
    · rw [hgt]
      apply decide_eq_true
      rw [hho.id]
      omega
    intro j hj
    cases hot : s.pipes.slots[j] with
    | none => exact Bool.false_ne_true
    | some state' =>
      have hj' : s.pipes.slots[j]? = some (some state') := by
        rw [getElem?_eq_getElem (by omega), hot]
      obtain ⟨hcr, _⟩ := h.slot j state' hj'
      have hod' := (h.id_spec hcr).1
      have hne : state'.baseId ≠ p := by
        intro heq
        rw [heq] at hcr
        exact absurd (h.slot_unique hcr hp.1) (by omega)
      intro hon
      have hid := of_decide_eq_true hon
      omega
  have hdr : decide (p + isWrite.toNat ≠ state.baseId) = isWrite := by
    rw [hho.id]
    cases isWrite <;> simp
  unfold Pipes.slotForId
  rw [if_neg (by omega), position_eq _ 0 fun state => h.room, hfi]
  simp only [map_some, Nat.zero_add, hst, bind_some, id, hdr, getD_some]

lemma Inv.step_returns (h : Inv s) (op : Op) : (step op s).isSome = true := by
  cases op with
  | lookup id =>
    show ((s.pipes.slotForId id).map _).isSome = true
    unfold Pipes.slotForId
    split
    · rfl
    · rw [position_eq _ 0 fun state => h.room]
      rfl
  | create => rfl
  | read handle len => rfl
  | write handle data => rfl
  | close handle isRead => rfl

lemma Inv.ids_nodup (h : Inv s) : (s.created.map Prod.fst).Nodup := by
  rw [List.Nodup, pairwise_iff_getElem]
  intro a b ha hb hab heq
  rw [length_map] at ha hb
  rw [getElem_map, getElem_map] at heq
  have hid : s.created[a].1 = 1 + 2 * a := h.ids a _ _ (getElem?_eq_getElem ha)
  have hib : s.created[b].1 = 1 + 2 * b := h.ids b _ _ (getElem?_eq_getElem hb)
  omega

/-- **Anonymous pipes.**  In every run:
* what has been read from a pipe is a beginning of what its writes have accepted;
* no two pipes get the same ids, and two live pipes have neither an id nor a slot in common;
  either id of a live pipe leads to its slot;
* no buffer holds more than `PIPE_BUFFER_SIZE` bytes;
* the slot of a pipe holds the pipe until both of its ends have been closed, and no longer;
* the next call returns. -/
theorem run_pipes {ops : List Op} (hrun : Run step Allowed System.initial ops s) :
    (∀ p, s.delivered p <+: s.accepted p) ∧ (s.created.map Prod.fst).Nodup
      ∧ (∀ p i q j, Live s p i → Live s q j → p ≠ q → i ≠ j ∧ p ≠ q + 1 ∧ q ≠ p + 1)
      ∧ (∀ p i, Live s p i → ∀ isWrite : Bool,
          s.pipes.slotForId (p + isWrite.toNat) = some (some (i, isWrite)))
      ∧ (∀ (i : Nat) (state : PipeState), s.pipes.slots[i]? = some (some state) →
          state.buffer.length ≤ PIPE_BUFFER_SIZE) ∧ (∀ p i, (p, i) ∈ s.created →
          ((∃ state, s.pipes.slots[i]? = some (some state) ∧ state.baseId = p)
            ↔ ¬ (s.closed p true = true ∧ s.closed p false = true)))
      ∧ ∀ op, Allowed s op → (step op s).isSome = true := by
  have h : Inv s := hrun.keeps step_inv Inv.initial
  refine ⟨h.inOrder, h.ids_nodup, ?_, fun p i hp => h.slotForId hp, ?_, ?_,
    fun op _ => h.step_returns op⟩
  · intro p i q j hp hq hne
    have hod := (h.id_spec hp.1).1
    have hod' := (h.id_spec hq.1).1
    refine ⟨?_, by omega, by omega⟩
    intro hij
    subst hij
    exact hne (h.pipe_unique hp.1 hq.1 hp.2 hq.2)
  · intro i state hst
    obtain ⟨hcr, hlv⟩ := h.slot i state hst
    obtain ⟨_, hst', hho⟩ := h.live _ i hcr hlv
    rw [hst] at hst'
    rw [some.inj (some.inj hst')]
    exact hho.room
  intro p i hcr
  constructor
  · rintro ⟨state, hst, rfl⟩
    exact (h.slot i state hst).2
  intro hlv
  obtain ⟨state, hst, hho⟩ := h.live p i hcr hlv
  exact ⟨state, hst, hho.id⟩

/-- A pipe is written to and closed, and its slot goes to a second pipe, from which a byte is read. -/
def recycled : List Op :=
  [.create, .lookup 1, .lookup 2, .write ⟨2, 0, true⟩ [1, 2], .close ⟨1, 0, false⟩ true,
    .close ⟨2, 0, true⟩ false, .create, .lookup 3, .lookup 4, .write ⟨4, 0, true⟩ [7, 8],
    .read ⟨3, 0, false⟩ 1]

theorem run_pipes_recycled :
    ∃ s, Run step Allowed System.initial recycled s ∧ s.created = [(1, 0), (3, 0)]
      ∧ s.delivered 3 = [7] ∧ s.delivered 3 <+: s.accepted 3 := by
  have hes : (executeAllowed step Allowed recycled System.initial).map
      (fun s => (s.created, s.delivered 3)) = some ([(1, 0), (3, 0)], [7]) := by decide +kernel
  obtain ⟨s, hr, hs⟩ := map_eq_some_iff.mp hes
  have hr := Run.of_executeAllowed hr
  exact ⟨s, hr, congrArg Prod.fst hs, congrArg Prod.snd hs, (run_pipes hr).1 3⟩

end Nt61.Pipe
