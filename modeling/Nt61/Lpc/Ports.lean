/-
Ports — `lpc/mod.rs`: the port registry.

A port owns a ring of 64 messages with two 32-bit counters that are never reset while it is in use.
`send` on a port stores into the ring of its peer, whichever port that is at the moment; `receive`
takes from its own ring.
-/
import Nt61.Lib.Ring
import Nt61.Lib.Run
import Mathlib.Data.Vector.Defs

namespace Nt61.Lpc

open Lib Function Nat
open List hiding Vector

/-! ## Messages, ports, the registry -/

def MAX_PORTS : Nat := 32
def MAX_PORT_MESSAGES : Nat := 64
def MAX_PORT_NAME : Nat := 128
def MESSAGE_DATA : Nat := 256

instance : NeZero MAX_PORT_MESSAGES := ⟨by decide⟩

abbrev Port := Fin MAX_PORTS

inductive LpcPortType where
  | Unknown
  | Connection
  | ServerCommunication
  | ClientCommunication
  deriving DecidableEq

inductive PortState where
  | Initializing
  | Active
  deriving DecidableEq

structure LpcMessageHeader where
  dataLength : UInt32
  totalLength : UInt32
  messageType : UInt32
  senderPid : UInt64
  senderTid : UInt64
  clientPid : UInt64
  clientTid : UInt64
  deriving DecidableEq

structure LpcMessage where
  header : LpcMessageHeader
  data : Vector UInt8 MESSAGE_DATA
  dataLen : UInt32
  deriving DecidableEq

def LpcMessage.empty : LpcMessage :=
  { header := ⟨0, 0, 0, 0, 0, 0, 0⟩, data := Vector.replicate MESSAGE_DATA 0, dataLen := 0 }

def LpcMessage.content (m : LpcMessage) : LpcMessageHeader × UInt32 × List UInt8 :=
  (m.header, m.dataLen, m.data.toList.take m.dataLen.toNat)

/-- Copy a message into a message record, as `send` and `receive` do: the bytes of `dst` behind the
copied ones stay. -/
def LpcMessage.copyInto (src dst : LpcMessage) : LpcMessage :=
  let copyLen := min src.dataLen.toNat MESSAGE_DATA
  { header := src.header
    data := Vector.ofFn fun i => if i.val < copyLen then src.data.get i else dst.data.get i
    dataLen := UInt32.ofNat copyLen }

structure LpcPort where
  name : Vector UInt16 MAX_PORT_NAME
  nameLen : Nat
  portType : LpcPortType
  ownerPid : UInt64
  peerPid : UInt64
  peerIndex : UInt32
  portId : UInt32
  pending : UInt32
  head : UInt32
  tail : UInt32
  connected : Bool
  state : PortState
  /-- `attributes.max_message_length` -/
  maxMessageLength : UInt32

variable (p : LpcPort)

def LpcPort.asConnection (name : List UInt16) (ownerPid : UInt64) : LpcPort :=
  { p with
    nameLen := name.length
    name := Vector.ofFn fun j => (name[j.val]?).getD (p.name.get j)
    portType := .Connection
    ownerPid := ownerPid
    peerPid := 0
    peerIndex := 0
    connected := false
    state := .Initializing }

/-- The client's side of a connection; it gets its peer later. -/
def LpcPort.asClient (ownerPid serverOwnerPid : UInt64) : LpcPort :=
  { p with
    nameLen := 0
    portType := .ClientCommunication
    ownerPid := ownerPid
    peerPid := serverOwnerPid
    peerIndex := 0
    connected := true
    state := .Active }

def LpcPort.asServer (serverOwnerPid : UInt64) (client : Port) : LpcPort :=
  { p with
    nameLen := 0
    portType := .ServerCommunication
    ownerPid := serverOwnerPid
    peerIndex := UInt32.ofNat client.val
    connected := true
    state := .Active }

def LpcPort.setPeer (peer : Port) : LpcPort := { p with peerIndex := UInt32.ofNat peer.val }

def LpcPort.activate (peer : Port) : LpcPort :=
  { p with peerIndex := UInt32.ofNat peer.val, connected := true, state := .Active }

/-- One message less, at the tail. -/
def LpcPort.consume : LpcPort := { p with tail := p.tail + 1, pending := p.pending - 1 }

structure LpcRegistry where
  ports : Port → LpcPort
  messages : Port → Fin MAX_PORT_MESSAGES → LpcMessage
  count : Nat
  nextPortId : UInt32
  count_le : count ≤ MAX_PORTS

open LpcMessage

/-- The kernel's comes zeroed from the pool, message limit included; `LpcRegistry::new` has the
default limit of 256. -/
def LpcRegistry.new (zeroed : Bool) : LpcRegistry where
  ports := fun _ =>
    { name := Vector.replicate MAX_PORT_NAME 0, nameLen := 0, portType := .Unknown, ownerPid := 0,
      peerPid := 0, peerIndex := 0, portId := 0, pending := 0, head := 0, tail := 0,
      connected := false, state := .Initializing, maxMessageLength := if zeroed then 0 else 256 }
  messages := fun _ _ => empty
  count := 0
  nextPortId := 1
  count_le := zero_le _

/-! ## The operations -/

namespace LpcRegistry

/-- `none`: the name is longer than a stored one can be, and the code panics. -/
def compareName (stored : Vector UInt16 MAX_PORT_NAME) : Nat → List UInt16 → Option Bool
  | _, [] => some true
  | j, c :: cs =>
    match stored[j]? with
    | none => none
    | some s => if s ≠ c then some false else compareName stored (j + 1) cs

def findFrom (reg : LpcRegistry) (name : List UInt16) : List Port → Option (Option Port)
  | [] => some none
  | i :: is =>
    if (reg.ports i).nameLen = name.length then
      match compareName (reg.ports i).name 0 name with
      | none => none
      | some true => some (some i)
      | some false => findFrom reg name is
    else findFrom reg name is

variable (reg : LpcRegistry)

def findPortByNameIn (name : List UInt16) : Option (Option Port) :=
  findFrom reg name ((finRange MAX_PORTS).take reg.count)

def modifyPort (i : Port) (f : LpcPort → LpcPort) : LpcRegistry :=
  { reg with ports := update reg.ports i (f (reg.ports i)) }

/-- `setup` does what differs between the kinds of ports. -/
def allocate (h : reg.count < MAX_PORTS) (setup : LpcPort → LpcPort) : LpcRegistry :=
  { ports := update reg.ports ⟨reg.count, h⟩
      { setup (reg.ports ⟨reg.count, h⟩) with
        portId := reg.nextPortId, pending := 0, head := 0, tail := 0 }
    messages := reg.messages
    count := reg.count + 1
    nextPortId := reg.nextPortId + 1
    count_le := h }

/-- `none`: the comparison of names panics. -/
def createConnectionPort (name : List UInt16) (ownerPid : UInt64) :
    Option (Option Port × LpcRegistry) :=
  if h : reg.count < MAX_PORTS then
    match reg.findPortByNameIn name with
    | none => none
    | some (some _) => some (none, reg)
    | some none => some (some ⟨reg.count, h⟩, reg.allocate h (·.asConnection name ownerPid))
  else some (none, reg)

def connectPort (serverIndex : UInt32) (ownerPid : UInt64) : Option (Port × Port) × LpcRegistry :=
  if h : reg.count + 2 ≤ MAX_PORTS then
    if hs : serverIndex.toNat < reg.count then
      let server : Port := ⟨serverIndex.toNat, by omega⟩
      let serverOwnerPid := (reg.ports server).ownerPid
      let client : Port := ⟨reg.count, by omega⟩
      let serverComm : Port := ⟨reg.count + 1, by omega⟩
      let reg₁ := reg.allocate (by omega) (·.asClient ownerPid serverOwnerPid)
      let reg₂ := reg₁.allocate (show reg.count + 1 < MAX_PORTS by omega)
        (·.asServer serverOwnerPid client)
      let reg₃ := reg₂.modifyPort client (·.setPeer serverComm)
      let reg₄ := reg₃.modifyPort server (·.activate serverComm)
      (some (client, serverComm), reg₄)
    else (none, reg)
  else (none, reg)

def store (peer : Port) (msg : LpcMessage) : LpcRegistry :=
  let head := (reg.ports peer).head
  let slot := Fin.ofNat MAX_PORT_MESSAGES head.toNat
  { reg with
    messages := update reg.messages peer (update (reg.messages peer) slot
      (msg.copyInto (reg.messages peer slot)))
    ports := update reg.ports peer
      { reg.ports peer with head := head + 1, pending := (reg.ports peer).pending + 1 } }

/-- The number of bytes accepted. The event that a first message raises is not modelled. -/
def send (portIndex : UInt32) (msg : LpcMessage) : Option Nat × LpcRegistry :=
  if h : portIndex.toNat < reg.count then
    let p := reg.ports ⟨portIndex.toNat, lt_of_lt_of_le h reg.count_le⟩
    if !p.connected then (none, reg)
    else if msg.dataLen > p.maxMessageLength then (none, reg)
    else if hp : p.peerIndex.toNat < reg.count then
      let peer : Port := ⟨p.peerIndex.toNat, lt_of_lt_of_le hp reg.count_le⟩
      if (reg.ports peer).pending.toNat ≥ MAX_PORT_MESSAGES then (none, reg)
      else (some (min msg.dataLen.toNat MESSAGE_DATA), reg.store peer msg)
    else (none, reg)
  else (none, reg)

def receive (portIndex : UInt32) : Option LpcMessage × LpcRegistry :=
  if h : portIndex.toNat < reg.count then
    let i : Port := ⟨portIndex.toNat, lt_of_lt_of_le h reg.count_le⟩
    let p := reg.ports i
    if p.pending = 0 then (none, reg)
    else
      let slot := Fin.ofNat MAX_PORT_MESSAGES p.tail.toNat
      (some ((reg.messages i slot).copyInto empty), reg.modifyPort i LpcPort.consume)
  else (none, reg)

/-- The port that a message sent on `portIndex` goes to. -/
def target (portIndex : UInt32) : Option Nat :=
  if h : portIndex.toNat < reg.count then
    some (reg.ports ⟨portIndex.toNat, lt_of_lt_of_le h reg.count_le⟩).peerIndex.toNat
  else none

end LpcRegistry

open LpcRegistry

/-! ## Runs, with their history -/

inductive Op where
  | createConnectionPort (name : List UInt16) (ownerPid : UInt64)
  | connectPort (serverIndex : UInt32) (ownerPid : UInt64)
  | send (portIndex : UInt32) (msg : LpcMessage)
  | receive (portIndex : UInt32)

/-- The registry, and for each port index the messages accepted for it and the messages returned. -/
structure System where
  reg : LpcRegistry
  sent : Nat → List LpcMessage
  received : Nat → List LpcMessage

def System.new (zeroed : Bool) : System := ⟨LpcRegistry.new zeroed, fun _ => [], fun _ => []⟩

def step : Op → System → Option System
  | .createConnectionPort name ownerPid, s =>
    (s.reg.createConnectionPort name ownerPid).map fun r => { s with reg := r.2 }
  | .connectPort serverIndex ownerPid, s =>
    some { s with reg := (s.reg.connectPort serverIndex ownerPid).2 }
  | .send portIndex msg, s =>
    match s.reg.send portIndex msg, s.reg.target portIndex with
    | (some _, reg), some q =>
      some { s with reg := reg, sent := update s.sent q (s.sent q ++ [msg]) }
    | (_, reg), _ => some { s with reg := reg }
  | .receive portIndex, s =>
    match s.reg.receive portIndex with
    | (some msg, reg) =>
      some { s with
        reg := reg
        received := update s.received portIndex.toNat
          (s.received portIndex.toNat ++ [msg]) }
    | (none, reg) => some { s with reg := reg }

/-! ## The invariant -/

structure Queued (s : System) (i : Port) (queue : List LpcMessage) : Prop where
  ring : Holds (s.reg.messages i) (s.reg.ports i).head.toNat (s.reg.ports i).tail.toNat queue
  pending : (s.reg.ports i).pending.toNat = queue.length
  fits : ∀ m ∈ queue, m.dataLen.toNat ≤ MESSAGE_DATA
  history : (s.sent i).map content
    = (s.received i).map content ++ queue.map content

structure Inv (s : System) : Prop where
  /-- No port lets a message through that is longer than a slot. -/
  limit : ∀ i, (s.reg.ports i).maxMessageLength.toNat ≤ MESSAGE_DATA
  queued : ∀ i, ∃ queue, Queued s i queue
  /-- Nothing has happened yet on a port that is not in use. -/
  unused : ∀ q, s.reg.count ≤ q → s.sent q = [] ∧ s.received q = []

lemma new_inv (zeroed : Bool) : Inv (System.new zeroed) where
  limit := by
    intro i
    show (if zeroed then (0 : UInt32) else 256).toNat ≤ 256
    cases zeroed
    · decide
    · decide
  queued := fun i => ⟨[], Holds.nil rfl, rfl, nofun, rfl⟩
  unused := fun q _ => ⟨rfl, rfl⟩

lemma content_copyInto {src : LpcMessage} (dst : LpcMessage)
    (hfi : src.dataLen.toNat ≤ MESSAGE_DATA) : (src.copyInto dst).content = src.content := by
  have hmn : min src.dataLen.toNat MESSAGE_DATA = src.dataLen.toNat := min_eq_left hfi
  have hl : (src.copyInto dst).dataLen = src.dataLen := by
    unfold copyInto
    simp only [hmn]
    exact UInt32.ofNat_toNat
  have hd : (src.copyInto dst).data.toList.take src.dataLen.toNat
      = src.data.toList.take src.dataLen.toNat := by
    apply ext_getElem
    · simp
    intro k hk hk'
    have hcp : k < src.dataLen.toNat := by
      rw [length_take] at hk
      omega
    rw [getElem_take, getElem_take]
    simp only [copyInto, hmn, Vector.getElem_toList, Vector.getElem_ofFn]
    rw [if_pos hcp]
    rfl
  have hhd : (src.copyInto dst).header = src.header := by simp only [copyInto]
  unfold content
  rw [hhd, hl, hd]

lemma dataLen_copyInto_le (src dst : LpcMessage) :
    (src.copyInto dst).dataLen.toNat ≤ MESSAGE_DATA := by
  exact le_trans (mod_le _ _) (min_le_right _ _)

lemma counter_succ (c : UInt32) :
    (c + 1).toNat % MAX_PORT_MESSAGES = (c.toNat + 1) % MAX_PORT_MESSAGES := by
  show (c.toNat + 1) % 2 ^ 32 % 64 = (c.toNat + 1) % 64
  omega

variable {s : System} {s' : System}

lemma Queued.congr {i : Port} {queue : List LpcMessage} (h : Queued s i queue)
    (hms : s'.reg.messages i = s.reg.messages i)
    (hhd : (s'.reg.ports i).head = (s.reg.ports i).head)
    (htl : (s'.reg.ports i).tail = (s.reg.ports i).tail)
    (hpn : (s'.reg.ports i).pending = (s.reg.ports i).pending)
    (hse : s'.sent i = s.sent i) (hrc : s'.received i = s.received i) :
    Queued s' i queue where
  ring := by
    rw [hms, hhd, htl]
    exact h.ring
  pending := by
    rw [hpn]
    exact h.pending
  fits := h.fits
  history := by
    rw [hse, hrc]
    exact h.history

lemma Inv.change (h : Inv s) (p : Port) (hpr : ∀ i, i ≠ p → s'.reg.ports i = s.reg.ports i)
    (hms : ∀ i, i ≠ p → s'.reg.messages i = s.reg.messages i)
    (hhs : ∀ q, q ≠ p.val → s'.sent q = s.sent q ∧ s'.received q = s.received q)
    (hlm : (s'.reg.ports p).maxMessageLength = (s.reg.ports p).maxMessageLength)
    (hcn : s.reg.count ≤ s'.reg.count) (hus : p.val < s'.reg.count)
    (hqu : ∃ queue, Queued s' p queue) : Inv s' := by
  constructor
  · intro i
    by_cases hi : i = p
    · rw [hi, hlm]
      exact h.limit p
    · rw [hpr i hi]
      exact h.limit i
  · intro i
    by_cases hi : i = p
    · rw [hi]
      exact hqu
    obtain ⟨queue, hold⟩ := h.queued i
    obtain ⟨hse, hrc⟩ := hhs i fun heq => hi (Fin.ext heq)
    refine ⟨queue, hold.congr (hms i hi) ?_ ?_ ?_ hse hrc⟩
    · rw [hpr i hi]
    · rw [hpr i hi]
    · rw [hpr i hi]
  intro q hq
  obtain ⟨hse, hrc⟩ := hhs q (by omega)
  rw [hse, hrc]
  exact h.unused q (by omega)

/-! ### The pool of ports -/

lemma Inv.allocate (h : Inv s) (hro : s.reg.count < MAX_PORTS) (setup : LpcPort → LpcPort)
    (hst : ∀ p, (setup p).maxMessageLength = p.maxMessageLength) :
    Inv { s with reg := s.reg.allocate hro setup } := by
  obtain ⟨hse, hrc⟩ := h.unused s.reg.count (le_refl _)
  have hpo : (s.reg.allocate hro setup).ports ⟨s.reg.count, hro⟩ = _ := update_self ..
  refine h.change ⟨s.reg.count, hro⟩ (fun i hi => update_of_ne hi _ _) (fun _ _ => rfl)
    (fun _ _ => ⟨rfl, rfl⟩) ?_ (le_succ _) (lt_succ_self _) ?_
  · rw [hpo]
    exact hst _
  -- an empty ring and no history
  refine ⟨[], ?_, ?_, nofun, ?_⟩
  · rw [hpo]
    exact Holds.nil rfl
  · rw [hpo]
    rfl
  · rw [hse, hrc]
    rfl

def KeepsQueue (f : LpcPort → LpcPort) : Prop :=
  ∀ p, (f p).head = p.head ∧ (f p).tail = p.tail ∧ (f p).pending = p.pending
    ∧ (f p).maxMessageLength = p.maxMessageLength

lemma Inv.modifyPort (h : Inv s) (j : Port) {f : LpcPort → LpcPort} (hf : KeepsQueue f) :
    Inv { s with reg := s.reg.modifyPort j f } := by
  have hs : ∀ i, ((s.reg.modifyPort j f).ports i).head = (s.reg.ports i).head
      ∧ ((s.reg.modifyPort j f).ports i).tail = (s.reg.ports i).tail
      ∧ ((s.reg.modifyPort j f).ports i).pending = (s.reg.ports i).pending
      ∧ ((s.reg.modifyPort j f).ports i).maxMessageLength = (s.reg.ports i).maxMessageLength := by
    intro i
    unfold LpcRegistry.modifyPort
    by_cases hi : i = j
    · rw [hi]
      dsimp only
      rw [update_self]
      exact hf _
    dsimp only
    rw [update_of_ne hi]
    simp
  constructor
  · intro i
    rw [(hs i).2.2.2]
    exact h.limit i
  · intro i
    obtain ⟨queue, hq⟩ := h.queued i
    obtain ⟨hhd, htl, hpn, _⟩ := hs i
    exact ⟨queue, hq.congr rfl hhd htl hpn rfl rfl⟩
  · exact h.unused

lemma Inv.createConnectionPort (h : Inv s) {name : List UInt16} {ownerPid : UInt64}
    {r : Option Port × LpcRegistry} (hr : s.reg.createConnectionPort name ownerPid = some r) :
    Inv { s with reg := r.2 } := by
  unfold LpcRegistry.createConnectionPort at hr
  split at hr
  · split at hr <;> cases hr
    · exact h
    rename_i hro _ _
    apply h.allocate hro (·.asConnection name ownerPid)
    intro p
    simp only [LpcPort.asConnection]
  · cases hr
    exact h

lemma Inv.connectPort (h : Inv s) (serverIndex : UInt32) (ownerPid : UInt64) :
    Inv { s with reg := (s.reg.connectPort serverIndex ownerPid).2 } := by
  unfold LpcRegistry.connectPort
  split
  · split
    · -- two new ports, then two links
      have hcl := h.allocate (show s.reg.count < MAX_PORTS by omega)
        (·.asClient ownerPid (s.reg.ports ⟨serverIndex.toNat, by omega⟩).ownerPid) fun _ => rfl
      have hcm := hcl.allocate (show s.reg.count + 1 < MAX_PORTS by omega)
        (·.asServer (s.reg.ports ⟨serverIndex.toNat, by omega⟩).ownerPid ⟨s.reg.count, by omega⟩)
        fun _ => rfl
      have hst : ∀ peer : Port, KeepsQueue (·.setPeer peer) := fun _ _ => ⟨rfl, rfl, rfl, rfl⟩
      have hac : ∀ peer : Port, KeepsQueue (·.activate peer) := fun _ _ => ⟨rfl, rfl, rfl, rfl⟩
      exact (hcm.modifyPort _ (hst _)).modifyPort _ (hac _)
    · exact h
  · exact h

/-! ### The queues -/

lemma Inv.store (h : Inv s) {peer : Port} {msg : LpcMessage} (hus : peer.val < s.reg.count)
    (hfi : msg.dataLen.toNat ≤ MESSAGE_DATA)
    (hro : (s.reg.ports peer).pending.toNat < MAX_PORT_MESSAGES) : Inv { s with
      reg := s.reg.store peer msg
      sent := update s.sent peer.val (s.sent peer.val ++ [msg]) } := by
  obtain ⟨queue, hqu⟩ := h.queued peer
  let stored := msg.copyInto
    (s.reg.messages peer (Fin.ofNat MAX_PORT_MESSAGES (s.reg.ports peer).head.toNat))
  have hpo : (s.reg.store peer msg).ports peer
      = { s.reg.ports peer with
          head := (s.reg.ports peer).head + 1, pending := (s.reg.ports peer).pending + 1 } :=
    update_self ..
  have hms : (s.reg.store peer msg).messages peer = update (s.reg.messages peer)
      (Fin.ofNat MAX_PORT_MESSAGES (s.reg.ports peer).head.toNat) stored :=
    update_self ..
  refine h.change peer (fun i hi => update_of_ne hi _ _) (fun i hi => update_of_ne hi _ _)
    (fun q hq => ⟨update_of_ne hq _ _, rfl⟩) (by rw [hpo]) (le_refl _) hus
    ⟨queue ++ [stored], ?_, ?_, ?_, ?_⟩
  · rw [hpo, hms]
    exact hqu.ring.push (hqu.pending ▸ hro) stored (counter_succ _)
  · rw [hpo, length_append, ← hqu.pending]
    show ((s.reg.ports peer).pending + 1).toNat = (s.reg.ports peer).pending.toNat + 1
    have hsm : (s.reg.ports peer).pending.toNat < 64 := hro
    show ((s.reg.ports peer).pending.toNat + 1) % 2 ^ 32 = _
    omega
  · intro m hm
    rcases mem_append.mp hm with hm | hm
    · exact hqu.fits m hm
    · rw [mem_singleton.mp hm]
      exact dataLen_copyInto_le _ _
  show (update s.sent peer.val _ peer.val).map content = _
  rw [update_self, map_append, hqu.history]
  simp [stored, content_copyInto _ hfi]

variable (reg : LpcRegistry)

lemma send_cases (portIndex : UInt32) (msg : LpcMessage) : reg.send portIndex msg = (none, reg)
      ∨ ∃ (sender peer : Port) (len : Nat), reg.target portIndex = some peer.val
        ∧ peer.val < reg.count ∧ msg.dataLen.toNat ≤ (reg.ports sender).maxMessageLength.toNat
        ∧ (reg.ports peer).pending.toNat < MAX_PORT_MESSAGES
        ∧ reg.send portIndex msg = (some len, reg.store peer msg) := by
  unfold send
  by_cases hpo : portIndex.toNat < reg.count
  · rw [dif_pos hpo]
    dsimp only
    split
    · exact .inl rfl
    split
    · exact .inl rfl
    rename_i hlm
    split
    · rename_i hpr
      split
      · exact .inl rfl
      rename_i hpn
      right
      refine ⟨_, _, _, ?_, hpr, Nat.le_of_not_lt hlm, Nat.lt_of_not_le hpn, rfl⟩
      rw [target, dif_pos hpo]
    · exact .inl rfl
  · rw [dif_neg hpo]
    exact .inl rfl

lemma receive_cases (portIndex : UInt32) : (reg.receive portIndex = (none, reg)
        ∧ ∀ i : Port, i.val = portIndex.toNat → i.val < reg.count → (reg.ports i).pending = 0)
      ∨ ∃ i : Port, i.val = portIndex.toNat ∧ i.val < reg.count ∧ (reg.ports i).pending ≠ 0
        ∧ reg.receive portIndex
          = (some ((reg.messages i (Fin.ofNat MAX_PORT_MESSAGES (reg.ports i).tail.toNat)).copyInto
              empty), reg.modifyPort i LpcPort.consume) := by
  unfold receive
  by_cases hpo : portIndex.toNat < reg.count
  · rw [dif_pos hpo]
    dsimp only
    split
    · rename_i hem
      refine .inl ⟨rfl, ?_⟩
      intro i hi _
      have heq : i = ⟨portIndex.toNat, lt_of_lt_of_le hpo reg.count_le⟩ := Fin.ext hi
      rw [heq]
      exact hem
    · rename_i hpn
      exact .inr ⟨_, rfl, hpo, hpn, rfl⟩
  rw [dif_neg hpo]
  refine .inl ⟨rfl, ?_⟩
  intro i hi hlt
  omega

lemma Inv.send (h : Inv s) {portIndex : UInt32} {msg : LpcMessage}
    (hs : step (.send portIndex msg) s = some s') : Inv s' := by
  rcases send_cases s.reg portIndex msg with
    hn | ⟨sender, peer, len, htg, hus, hfi, hro, hso⟩
  · simp only [step, hn] at hs
    cases hs
    exact h
  simp only [step, hso, htg] at hs
  cases hs
  exact h.store hus (le_trans hfi (h.limit sender)) hro

lemma Inv.receive (h : Inv s) {portIndex : UInt32}
    (hs : step (.receive portIndex) s = some s') : Inv s' := by
  rcases receive_cases s.reg portIndex with ⟨hn, _⟩ | ⟨i, hi, hus, hpn, hso⟩
  · simp only [step, hn] at hs
    cases hs
    exact h
  simp only [step, hso, ← hi] at hs
  cases hs
  obtain ⟨queue, hqu⟩ := h.queued i
  have hpo : (s.reg.modifyPort i LpcPort.consume).ports i = (s.reg.ports i).consume :=
    update_self ..
  refine h.change i (fun j hj => update_of_ne hj _ _) (fun _ _ => rfl)
    (fun q hq => ⟨rfl, update_of_ne hq _ _⟩) (by rw [hpo]; rfl) (le_refl _) hus ?_
  have hnz : (s.reg.ports i).pending.toNat ≠ 0 := by
    intro h0
    exact hpn (UInt32.toNat_inj.mp h0)
  cases queue with
  | nil => exact absurd hqu.pending hnz
  | cons m queue =>
    have hol := hqu.ring.oldest
    refine ⟨queue, ?_, ?_, fun m' hm' => hqu.fits m' (mem_cons_of_mem m hm'), ?_⟩
    · rw [hpo]
      exact hqu.ring.pop (counter_succ _)
    · rw [hpo]
      show ((s.reg.ports i).pending - 1).toNat = queue.length
      have hl : (s.reg.ports i).pending.toNat = queue.length + 1 := hqu.pending
      rw [UInt32.toNat_sub_of_le _ _ (UInt32.le_iff_toNat_le.mpr (by
        show 1 ≤ _
        omega))]
      show (s.reg.ports i).pending.toNat - 1 = queue.length
      omega
    show (s.sent i).map content = (update s.received i.val _ i.val).map content ++ _
    rw [update_self, hqu.history, hol, map_append, append_assoc, map_singleton,
      content_copyInto _ (hqu.fits m mem_cons_self)]
    rfl

lemma step_inv {op : Op} (h : Inv s) (hst : step op s = some s') : Inv s' := by
  cases op with
  | createConnectionPort name ownerPid =>
    obtain ⟨_, hr, hs'⟩ := Option.map_eq_some_iff.mp hst
    rw [← hs']
    exact h.createConnectionPort hr
  | connectPort serverIndex ownerPid =>
    cases hst
    exact h.connectPort serverIndex ownerPid
  | send portIndex msg => exact h.send hst
  | receive portIndex => exact h.receive hst

/-! ## FIFO -/

def LpcRegistry.pendingOn (reg : LpcRegistry) (q : Nat) : Nat :=
  if h : q < reg.count then
    (reg.ports ⟨q, lt_of_lt_of_le h reg.count_le⟩).pending.toNat
  else 0

lemma receive_eq_none_iff (q : UInt32) : (reg.receive q).1 = none ↔ reg.pendingOn q.toNat = 0 := by
  unfold pendingOn
  rcases receive_cases reg q with ⟨hn, hem⟩ | ⟨i, hi, hus, hpn, hso⟩
  · rw [hn]
    by_cases hq : q.toNat < reg.count
    · rw [dif_pos hq, hem ⟨q.toNat, lt_of_lt_of_le hq reg.count_le⟩ rfl hq]
      simp
    · rw [dif_neg hq]
      simp
  rw [hso, ← hi, dif_pos hus]
  have hnz : (reg.ports i).pending.toNat ≠ 0 := fun h0 => hpn (UInt32.toNat_inj.mp h0)
  simp only [reduceCtorEq, false_iff]
  exact hnz

/-- **Ports are FIFO channels.** What `receive` has returned on a port is, in order, the beginning
of what `send` has accepted for it; the rest is pending, at most 64 messages; and `receive` returns
nothing exactly if nothing is pending. -/
theorem run_fifo {zeroed : Bool} {ops : List Op} {s : System}
    (hrun : Run step (fun _ _ => True) (System.new zeroed) ops s) (q : UInt32) :
    (s.received q.toNat).map content <+: (s.sent q.toNat).map content
      ∧ (s.sent q.toNat).length = (s.received q.toNat).length + s.reg.pendingOn q.toNat
      ∧ s.reg.pendingOn q.toNat ≤ MAX_PORT_MESSAGES
      ∧ ((s.reg.receive q).1 = none ↔ s.reg.pendingOn q.toNat = 0) := by
  have hi : Inv s := hrun.keeps (fun h _ hs => step_inv h hs) (new_inv zeroed)
  suffices hch : ∃ rest : List LpcMessage, (s.sent q.toNat).map content
        = (s.received q.toNat).map content ++ rest.map content
      ∧ s.reg.pendingOn q.toNat = rest.length ∧ rest.length ≤ MAX_PORT_MESSAGES by
    obtain ⟨rest, hhs, hpn, hln⟩ := hch
    refine ⟨⟨_, hhs.symm⟩, ?_, hpn ▸ hln, receive_eq_none_iff s.reg q⟩
    have hl := congrArg length hhs
    simpa [hpn] using hl
  unfold pendingOn
  by_cases hq : q.toNat < s.reg.count
  · obtain ⟨queue, hqu⟩ := hi.queued ⟨q.toNat, lt_of_lt_of_le hq s.reg.count_le⟩
    rw [dif_pos hq]
    exact ⟨queue, hqu.history, hqu.pending, hqu.ring.length_le⟩
  obtain ⟨hse, hrc⟩ := hi.unused q.toNat (Nat.le_of_not_lt hq)
  rw [dif_neg hq, hse, hrc]
  exact ⟨[], rfl, rfl, Nat.zero_le _⟩

/-- A client connects to the port named "A", sends two messages, and the server takes one. -/
def oneOfTwo : List Op :=
  [.createConnectionPort [65] 4, .connectPort 0 8,
    .send 1 { empty with dataLen := 3 }, .send 1 empty, .receive 2]

theorem run_fifo_one_of_two : ∃ s : System, execute step oneOfTwo (System.new false) = some s
    ∧ (s.sent 2).length = 2 ∧ (s.received 2).length = 1
    ∧ (s.received 2).map content <+: (s.sent 2).map content
    ∧ s.reg.pendingOn 2 ≤ MAX_PORT_MESSAGES ∧ (s.reg.receive 2).1 ≠ none := by
  have hln : (execute step oneOfTwo (System.new false)).map
      (fun s => ((s.sent 2).length, (s.received 2).length)) = some (2, 1) := by
    decide +kernel
  obtain ⟨s, hs, hl⟩ := Option.map_eq_some_iff.mp hln
  obtain ⟨hse, hrc⟩ := Prod.mk.inj hl
  obtain ⟨hff, hcn, hbd, hn⟩ := run_fifo (Run.of_execute hs) 2
  refine ⟨s, hs, hse, hrc, hff, hbd, ?_⟩
  intro hem
  rw [hn.mp hem] at hcn
  have hsm : (s.sent 2).length = (s.received 2).length := hcn
  omega

end Nt61.Lpc
