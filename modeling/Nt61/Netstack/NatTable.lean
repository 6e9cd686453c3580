/-
NatTable — the two tables of the address translation stay inverse.

The search for a port goes round the dynamic range once, so it ends, and fails only if the whole
range is in use.
-/
import Mathlib.Data.List.AList
import Nt61.Lib.Run

namespace Nt61.NatTable

open Option

/-! ## The code. Ports are `u16`; the cursor is never advanced beyond the range. -/

structure OutboundKey where
  srcIp : UInt32
  srcPort : Nat
  dstIp : UInt32
  dstPort : Nat
  protocol : UInt8
  deriving DecidableEq, Repr

structure InboundKey where
  natSrcPort : Nat
  protocol : UInt8
  deriving DecidableEq, Repr

structure NatConnection where
  origSrcIp : UInt32
  origSrcPort : Nat
  natSrcIp : UInt32
  natSrcPort : Nat
  protocol : UInt8
  lastActivity : Nat

structure PortForwardRule where
  externalPort : Nat
  internalIp : UInt32
  internalPort : Nat
  protocol : UInt8

structure NatState where
  outbound : AList fun _ : OutboundKey => NatConnection
  inbound : AList fun _ : InboundKey => OutboundKey
  portForwards : List PortForwardRule
  nextPort : Nat

def NatState.new (portForwards : List PortForwardRule) : NatState := ⟨∅, ∅, portForwards, 49152⟩

def NatConnection.inboundKey (conn : NatConnection) : InboundKey := ⟨conn.natSrcPort, conn.protocol⟩

def timeoutMs : UInt8 → Nat
  | 6 => 7200000
  | 17 => 300000
  | _ => 60000

def NatConnection.isExpired (conn : NatConnection) (now : Nat) : Bool :=
  now - conn.lastActivity > timeoutMs conn.protocol

def advance (port : Nat) : Nat := if port = 65535 then 49152 else port + 1

/-- The loop of `allocate_port`: the port found and the next cursor. `none`: more than `fuel`
rounds. -/
def allocateLoop (used : Nat → Bool) (start : Nat) : Nat → Nat → Option (Option Nat × Nat)
  | 0, _ => none
  | fuel + 1, port =>
    if !used port then some (some port, advance port)
    else if advance port = start then some (none, advance port)
    else allocateLoop used start fuel (advance port)

namespace NatState

variable (s : NatState) (now : Nat)

def used (protocol : UInt8) (port : Nat) : Bool := (s.inbound.lookup ⟨port, protocol⟩).isSome

def allocatePort (protocol : UInt8) : Option (Option Nat × NatState) :=
  (allocateLoop (s.used protocol) s.nextPort 16384 s.nextPort).map fun (port, next) =>
    (port, { s with nextPort := next })

def touch (key : OutboundKey) (conn : NatConnection) : NatState :=
  { s with outbound := s.outbound.insert key { conn with lastActivity := now } }

def translateOutbound (key : OutboundKey) (natIp : UInt32) :
    Option (Option (UInt32 × Nat) × NatState) :=
  match s.outbound.lookup key with
  | some conn => some (some (conn.natSrcIp, conn.natSrcPort), s.touch now key conn)
  | none => (s.allocatePort key.protocol).map fun
      | (none, s) => (none, s)
      | (some port, s) => (some (natIp, port), { s with
          outbound := s.outbound.insert key ⟨key.srcIp, key.srcPort, natIp, port, key.protocol, now⟩
          inbound := s.inbound.insert ⟨port, key.protocol⟩ key })

def translateInbound (dstPort : Nat) (protocol : UInt8) : Option (UInt32 × Nat) × NatState :=
  let flow := (s.inbound.lookup ⟨dstPort, protocol⟩).bind fun key =>
    (s.outbound.lookup key).map (key, ·)
  match flow with
  | some (key, conn) => (some (conn.origSrcIp, conn.origSrcPort), s.touch now key conn)
  | none => ((s.portForwards.find? fun rule =>
      rule.externalPort == dstPort && rule.protocol == protocol).map fun rule =>
        (rule.internalIp, rule.internalPort), s)

def removeFlow (key : OutboundKey) : NatState :=
  match s.outbound.lookup key with
  | some conn => { s with
      outbound := s.outbound.erase key
      inbound := s.inbound.erase conn.inboundKey }
  | none => s

def cleanupExpired : NatState :=
  let expiredKeys := (s.outbound.entries.filter fun entry => entry.2.isExpired now).map Sigma.fst
  expiredKeys.foldl removeFlow s

end NatState

open NatState

inductive Op where
  | translateOutbound (key : OutboundKey) (natIp : UInt32)
  | translateInbound (dstPort : Nat) (protocol : UInt8)
  | cleanupExpired

def step (s : NatState) : Op × Nat → Option NatState
  | (.translateOutbound key natIp, now) => (s.translateOutbound now key natIp).map Prod.snd
  | (.translateInbound dstPort protocol, now) => some (s.translateInbound now dstPort protocol).2
  | (.cleanupExpired, now) => some (s.cleanupExpired now)

/-! ## The search for a port -/

def Dynamic (port : Nat) : Prop := 49152 ≤ port ∧ port ≤ 65535

lemma advance_dynamic {port : Nat} (h : Dynamic port) : Dynamic (advance port) := by
  unfold Dynamic advance at *
  split <;> omega

lemma allocateLoop_spec {used : Nat → Bool} {start : Nat} (hs0 : Dynamic start)
    {fuel port k : Nat} (hfu : k + fuel = 16384) (hk : k < 16384)
    (hpo : port = 49152 + (start - 49152 + k) % 16384)
    (hus : ∀ j < k, used (49152 + (start - 49152 + j) % 16384)) :
    ∃ found next, allocateLoop used start fuel port = some (found, next) ∧ Dynamic next
      ∧ (∀ p ∈ found, Dynamic p ∧ used p = false)
      ∧ (found = none → ∀ p, Dynamic p → used p = true) := by
  induction fuel generalizing port k with
  | zero => omega
  | succ fuel ih =>
    have hdy : Dynamic port := by unfold Dynamic; omega
    have hnx : advance port = 49152 + (start - 49152 + (k + 1)) % 16384 := by
      unfold advance
      split <;> omega
    unfold allocateLoop
    cases hf : used port with
    | false => exact ⟨some port, _, rfl, advance_dynamic hdy, by simp [hdy, hf], nofun⟩
    | true =>
      have hus' : ∀ j < k + 1, used (49152 + (start - 49152 + j) % 16384) := by
        intro j hj
        rcases Nat.lt_succ_iff_lt_or_eq.mp hj with hj | rfl
        · exact hus j hj
        · rwa [← hpo]
      by_cases hro : advance port = start
      · refine ⟨none, _, by simp [hro], advance_dynamic hdy, nofun, fun _ p hp => ?_⟩
        -- once round: every port of the range was looked at
        have ha := hus' ((p + 16384 - start) % 16384)
        unfold Dynamic at hp hs0
        rw [show 49152 + (start - 49152 + (p + 16384 - start) % 16384) % 16384 = p by omega] at ha
        exact ha (by omega)
      have hk' : k + 1 < 16384 := by unfold Dynamic at hs0; omega
      simp only [Bool.not_true, Bool.false_eq_true, if_false, hro]
      exact ih (by omega) hk' hnx hus'

/-! ## The tables -/

section

variable {α β : Type} [DecidableEq α] (m : AList fun _ : α => β) (a a' : α)

lemma lookup_insert_eq (b : β) :
    (m.insert a b).lookup a' = if a' = a then some b else m.lookup a' := by
  split
  · next h => rw [h, AList.lookup_insert]
  · next h => exact AList.lookup_insert_ne h

lemma lookup_erase_eq : (m.erase a).lookup a' = if a' = a then none else m.lookup a' := by
  split
  · next h => rw [h, AList.lookup_erase]
  · next h => exact AList.lookup_erase_ne h

end

/-- What the flow's entry says. -/
structure Serves (conn : NatConnection) (key : OutboundKey) : Prop where
  protocol : conn.protocol = key.protocol
  port : Dynamic conn.natSrcPort
  source : conn.origSrcIp = key.srcIp ∧ conn.origSrcPort = key.srcPort

def Answers (s : NatState) (key : OutboundKey) (s' : NatState) : Option (UInt32 × Nat) → Prop
  | some (_, port) => ∃ conn, s'.outbound.lookup key = some conn ∧ conn.natSrcPort = port
  | none => ∀ port, Dynamic port → s.used key.protocol port = true

structure Inv (s : NatState) : Prop where
  next : Dynamic s.nextPort
  serves : ∀ key, ∀ conn ∈ s.outbound.lookup key, Serves conn key
  inverse : ∀ key ik,
    (s.outbound.lookup key).map (·.inboundKey) = some ik ↔ s.inbound.lookup ik = some key

namespace Inv

variable {s : NatState} {key : OutboundKey} {conn : NatConnection}

variable (h : Inv s)
include h

lemma touch (hcn : s.outbound.lookup key = some conn) (now : Nat) : Inv (s.touch now key conn) := by
  have hold := h.serves key conn hcn
  refine ⟨h.next, ?_, ?_⟩ <;> simp only [NatState.touch, lookup_insert_eq]
  · intro key' conn' hm
    split at hm
    · next heq =>
      cases hm
      exact heq ▸ ⟨hold.protocol, hold.port, hold.source⟩
    · exact h.serves key' conn' hm
  intro key' ik
  rw [← h.inverse]
  split
  · next heq =>
    rw [heq, hcn]
    rfl
  · rfl

lemma add (hw : s.outbound.lookup key = none)
    (hf : s.inbound.lookup conn.inboundKey = none) (hsr : Serves conn key) : Inv { s with
      outbound := s.outbound.insert key conn
      inbound := s.inbound.insert conn.inboundKey key } := by
  refine ⟨h.next, ?_, ?_⟩ <;> simp only [lookup_insert_eq]
  · grind [h.serves]
  intro key' ik
  have hold := h.inverse key' ik
  by_cases hk : key' = key <;> by_cases hik : ik = conn.inboundKey
  · simp [hk, hik]
  · rw [hk, hw] at hold
    simpa [hk, hik, Ne.symm hik] using hold
  · rw [hik, hf] at hold
    simpa [hk, hik, Ne.symm hk] using hold
  · simpa [hk, hik] using hold

lemma removeFlow (key : OutboundKey) : Inv (s.removeFlow key) := by
  unfold NatState.removeFlow
  cases hcn : s.outbound.lookup key with
  | none => exact h
  | some conn =>
    refine ⟨h.next, ?_, ?_⟩ <;> simp only [lookup_erase_eq]
    · grind [h.serves]
    intro key' ik
    have hold := h.inverse key' ik
    have hba := (h.inverse key _).mp (congrArg (Option.map (·.inboundKey)) hcn)
    by_cases hk : key' = key <;> by_cases hik : ik = conn.inboundKey
    · simp [hk, hik]
    · rw [hk, hcn] at hold
      simpa [hk, hik, Ne.symm hik] using hold
    · rw [hik, hba] at hold
      simpa [hk, hik, Ne.symm hk] using hold
    · simpa [hk, hik] using hold

lemma lookup_back (hcn : s.outbound.lookup key = some conn) :
    s.inbound.lookup ⟨conn.natSrcPort, key.protocol⟩ = some key := by
  rw [← (h.serves key conn hcn).protocol]
  exact (h.inverse key _).mp (by rw [hcn]; rfl)

lemma translateOutbound (now : Nat) (key : OutboundKey) (natIp : UInt32) :
    ∃ result s', s.translateOutbound now key natIp = some (result, s') ∧ Inv s'
      ∧ Answers s key s' result := by
  unfold NatState.translateOutbound
  cases hcn : s.outbound.lookup key with
  | some conn => exact ⟨_, _, rfl, h.touch hcn now, _, AList.lookup_insert _, rfl⟩
  | none =>
    obtain ⟨found, next, hlp, hnx, hfn, hn⟩ := @allocateLoop_spec
      (s.used key.protocol) s.nextPort h.next 16384 s.nextPort 0 rfl (by decide)
      (by have := h.next; unfold Dynamic at this; omega) nofun
    have hmv : Inv { s with nextPort := next } := ⟨hnx, h.serves, h.inverse⟩
    simp only [allocatePort, hlp, map_some]
    cases found with
    | none => exact ⟨_, _, rfl, hmv, hn rfl⟩
    | some port =>
      obtain ⟨hpo, hf⟩ := hfn port rfl
      have hn := isNone_iff_eq_none.mp (isSome_eq_false_iff.mp hf)
      exact ⟨_, _, rfl, hmv.add hcn hn ⟨rfl, hpo, rfl, rfl⟩, _, AList.lookup_insert _, rfl⟩

lemma step (call : Op × Nat) : ∃ s', step s call = some s' ∧ Inv s' := by
  obtain ⟨op, now⟩ := call
  cases op with
  | translateOutbound key natIp =>
    obtain ⟨_, s', hr, hs', -⟩ := h.translateOutbound now key natIp
    exact ⟨s', by simp [NatTable.step, hr], hs'⟩
  | translateInbound dstPort protocol =>
    refine ⟨_, rfl, ?_⟩
    unfold translateInbound
    dsimp only
    split
    · next hfl =>
      obtain ⟨_, -, hmp⟩ := bind_eq_some_iff.mp hfl
      obtain ⟨_, hcn, heq⟩ := map_eq_some_iff.mp hmp
      cases heq
      exact h.touch hcn now
    · exact h
  | cleanupExpired => exact ⟨_, rfl, List.foldlRecOn _ _ h fun _ hs key _ => hs.removeFlow key⟩

end Inv

/-- What the tables promise. -/
structure Sound (s : NatState) : Prop where
  out : ∀ key, ∀ conn ∈ s.outbound.lookup key,
    s.inbound.lookup ⟨conn.natSrcPort, key.protocol⟩ = some key ∧ Dynamic conn.natSrcPort
  back : ∀ ik, ∀ key ∈ s.inbound.lookup ik, ∃ conn, s.outbound.lookup key = some conn
    ∧ ik = ⟨conn.natSrcPort, key.protocol⟩
  distinct : ∀ key, ∀ conn ∈ s.outbound.lookup key, ∀ key', ∀ conn' ∈ s.outbound.lookup key',
    key.protocol = key'.protocol → conn.natSrcPort = conn'.natSrcPort → key = key'
  /-- The port of a live flow leads back to it. -/
  inbound : ∀ key, ∀ conn ∈ s.outbound.lookup key, ∀ now,
    (s.translateInbound now conn.natSrcPort key.protocol).1 = some (key.srcIp, key.srcPort)
  outbound : ∀ now key natIp, ∃ result s', s.translateOutbound now key natIp = some (result, s')
    ∧ Answers s key s' result

lemma Inv.sound {s : NatState} (h : Inv s) : Sound s := by
  refine ⟨fun key conn hcn => ⟨h.lookup_back hcn, (h.serves key conn hcn).port⟩, ?_, ?_, ?_, ?_⟩
  · intro ik key hk
    obtain ⟨conn, hcn, rfl⟩ := map_eq_some_iff.mp ((h.inverse key ik).mpr hk)
    exact ⟨conn, hcn, by rw [← (h.serves key conn hcn).protocol]; rfl⟩
  · intro key conn hcn key' conn' hcn' hpr hpo
    have hlk := h.lookup_back hcn
    rw [hpr, hpo, h.lookup_back hcn'] at hlk
    exact (some.inj hlk).symm
  · intro key conn hcn now
    have hsr := (h.serves key conn hcn).source
    rw [mem_def] at hcn
    simp [translateInbound, h.lookup_back hcn, hcn, hsr]
  intro now key natIp
  obtain ⟨result, s', hr, -, han⟩ := h.translateOutbound now key natIp
  exact ⟨result, s', hr, han⟩

/-- After any calls the tables are inverse, and the next call finds the flow's port. -/
theorem run_tables_inverse (rules : List PortForwardRule) (calls : List (Op × Nat)) :
    ∃ s, calls.foldlM step (new rules) = some s ∧ Sound s := by
  suffices h : ∀ s, Inv s → ∃ s', calls.foldlM step s = some s' ∧ Sound s' from
    h _ (by constructor <;> simp [new, Dynamic])
  induction calls with
  | nil => exact fun s hs => ⟨s, rfl, hs.sound⟩
  | cons call calls ih =>
    intro s hs
    obtain ⟨s1, hst, hs1⟩ := hs.step call
    obtain ⟨s', hr, hs'⟩ := ih s1 hs1
    exact ⟨s', by rw [List.foldlM_cons, hst]; exact hr, hs'⟩

/-! ## Port forwarding -/

def PortForwardRule.same (rule r : PortForwardRule) : Bool :=
  r.externalPort == rule.externalPort && r.protocol == rule.protocol

def NatState.addPortForward (s : NatState) (rule : PortForwardRule) : Bool × NatState :=
  if s.portForwards.any rule.same then (false, s)
  else (true, { s with portForwards := s.portForwards ++ [rule] })

def forwardStep (s : NatState) : Op × Nat ⊕ PortForwardRule → Option NatState
  | .inl call => step s call
  | .inr rule => some (s.addPortForward rule).2

lemma step_portForwards {s s' : NatState} {call : Op × Nat} (h : step s call = some s') :
    s'.portForwards = s.portForwards := by
  obtain ⟨op, _⟩ := call
  cases op with
  | translateOutbound key natIp =>
    obtain ⟨⟨_, _⟩, hr, rfl⟩ := map_eq_some_iff.mp h
    unfold NatState.translateOutbound at hr
    split at hr
    · cases hr
      rfl
    obtain ⟨_, ha, hrs⟩ := map_eq_some_iff.mp hr
    obtain ⟨⟨found, _⟩, -, hmv⟩ := map_eq_some_iff.mp ha
    cases hmv
    cases found <;> cases hrs <;> rfl
  | translateInbound dstPort protocol =>
    cases h
    unfold NatState.translateInbound
    dsimp only
    split <;> rfl
  | cleanupExpired =>
    cases h
    refine List.foldlRecOn (motive := fun s1 : NatState => s1.portForwards = s.portForwards) _ _ rfl
      fun s1 hs1 key _ => ?_
    unfold NatState.removeFlow
    split <;> exact hs1

def Leads (rules : List PortForwardRule) : Prop := ∀ rule ∈ rules, rules.find? rule.same = some rule

lemma Leads.add {rules : List PortForwardRule} (h : Leads rules) {rule : PortForwardRule}
    (hw : rules.any rule.same = false) : Leads (rules ++ [rule]) := by
  intro r hr
  rw [List.find?_append]
  rcases List.mem_append.mp hr with hr | hr
  · rw [h r hr]
    rfl
  · rw [List.mem_singleton.mp hr, List.find?_eq_none.mpr (by simpa using hw)]
    simp [PortForwardRule.same]

/-- A rule for a port below the dynamic range is followed after any calls. -/
theorem forwarded_below_dynamic (calls : List (Op × Nat ⊕ PortForwardRule)) :
    ∃ s, calls.foldlM forwardStep (new []) = some s ∧ ∀ rule ∈ s.portForwards,
      rule.externalPort < 49152 → ∀ now, (s.translateInbound now rule.externalPort
        rule.protocol).1 = some (rule.internalIp, rule.internalPort) := by
  have hro {s : NatState} (h : Inv s ∧ Leads s.portForwards) (call : Op × Nat ⊕ PortForwardRule) :
      ∃ s', forwardStep s call = some s' ∧ Inv s' ∧ Leads s'.portForwards := by
    cases call with
    | inl call =>
      obtain ⟨s1, hst, hs1⟩ := h.1.step call
      exact ⟨s1, hst, hs1, step_portForwards hst ▸ h.2⟩
    | inr rule =>
      refine ⟨_, rfl, ?_⟩
      unfold addPortForward
      split
      · exact h
      · next hw => exact ⟨⟨h.1.next, h.1.serves, h.1.inverse⟩, h.2.add (by simpa using hw)⟩
  obtain ⟨s, hr, hs, hld⟩ := Lib.foldlM_simulates (g := fun t _ => t) (t := ())
    (R := fun s _ => Inv s ∧ Leads s.portForwards) hro
    (s := new []) ⟨by constructor <;> simp [new, Dynamic], nofun⟩ calls
  refine ⟨s, hr, fun rule hrl hlw now => ?_⟩
  cases hlk : s.inbound.lookup ⟨rule.externalPort, rule.protocol⟩ with
  | some key =>
    obtain ⟨conn, hcn, hpo⟩ := hs.sound.back _ key hlk
    have hdy := (hs.serves key conn hcn).port.1
    injection hpo
    omega
  | none =>
    have hfi := hld rule hrl
    unfold PortForwardRule.same at hfi
    simp [translateInbound, hlk, hfi]

theorem forwarded_web : ∃ s, [.inl (.translateOutbound ⟨2, 80, 3, 443, 6⟩ 9, 0),
      .inr ⟨80, 1, 8080, 6⟩].foldlM forwardStep (new []) = some s
    ∧ (s.translateInbound 0 80 6).1 = some (1, 8080) := by
  obtain ⟨s, hr, hfr⟩ := forwarded_below_dynamic
    [.inl (.translateOutbound ⟨2, 80, 3, 443, 6⟩ 9, 0), .inr ⟨80, 1, 8080, 6⟩]
  refine ⟨s, hr, ?_⟩
  cases hr
  exact hfr _ (.head _) (by decide) 0

/-- A flow is given a forwarded port, and takes what comes in for it. -/
theorem forwarded_hijacked : ∃ s,
    [.inr ⟨49152, 1, 80, 6⟩, .inl (.translateOutbound ⟨2, 1000, 3, 443, 6⟩ 9, 0)].foldlM
        forwardStep (new []) = some s ∧ (s.translateInbound 0 49152 6).1 = some (2, 1000) :=
  ⟨_, rfl, rfl⟩

end Nt61.NatTable
