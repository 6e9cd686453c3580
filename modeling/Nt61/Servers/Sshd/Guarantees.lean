/-
Guarantees — what the daemon promises about logins and commands, over every client byte stream.

Logins are EARNED in every run. Commands are justified in every run in which each "exec" or
"subsystem" request finds its channel open; without that the daemon runs commands for clients that
never logged in (`preauth_exec_unjustified`).
-/
import Nt61.Servers.Sshd.Refinement

namespace Nt61.Sshd

open Lib Nt61.Crypto World

/-! ## Deciding the guard -/

def Event.guarded : Event → Bool
  | .packet payload seen =>
    match commandChannel payload with
    | none => true
    | some id => seen.channels.any fun c => c.localId == id && c.isOpen
  | _ => true

lemma packet_guarded_iff (payload : Bytes) (seen : Snapshot) :
    (Event.packet payload seen).guarded = true ↔ CommandOnOpenChannel payload seen.channels := by
  unfold Event.guarded CommandOnOpenChannel
  cases h : commandChannel payload with
  | none => simp [h]
  | some id => simp [h, List.any_eq_true]

lemma packetsGuarded_iff (log : List Event) :
    log.all Event.guarded = true ↔ PacketsGuarded log := by
  rw [List.all_eq_true]
  constructor
  · intro h payload seen hm
    exact (packet_guarded_iff payload seen).mp (h _ hm)
  intro h e hm
  cases e with
  | packet payload seen => exact (packet_guarded_iff payload seen).mpr (h payload seen hm)
  | _ => rfl

instance decidablePacketsGuarded (log : List Event) : Decidable (PacketsGuarded log) :=
  decidable_of_iff _ (packetsGuarded_iff log)

/-! ## A machine and two clients -/

/-- Primitives that do nothing: a constant hash, an identity cipher. -/
def idleCrypto : Crypto :=
  { sha256 := fun _ => Vector.replicate 32 1
    sha1 := fun _ => Vector.replicate 20 1
    hmacSha256 := fun _ _ => Vector.replicate 32 7
    encryptBlock := fun _ _ => Vector.replicate 16 0
    x25519 := fun _ _ => Vector.replicate 32 5
    signPkcs1v15 := fun _ _ => some [1]
    verifyPkcs1v15 := fun _ _ _ => false
    random := fun _ => 0 }

/-- A machine with one account and a command executor. -/
def idleHost : Host :=
  { crypto := idleCrypto
    config := ⟨.prohibitPassword, true, true, 2⟩
    accounts := [⟨ascii "svc", some (Vector.replicate 32 1)⟩]
    authorizedKeys := []
    hostKey := ⟨⟨[35]⟩, ⟨[5]⟩, ⟨[5]⟩, ⟨[5]⟩, ⟨[7]⟩, ⟨[1]⟩, ⟨[5]⟩, ⟨[3]⟩⟩
    commandExecutor := some fun _ => ⟨0, []⟩ }

/-- A packet as a client without keys sends it. -/
def plainPacket (payload : Bytes) : Except TransportError Bytes := .ok (Link.frameOf 8 payload [])

/-- A packet as a client of `idleHost` with keys sends it. -/
def sealedPacket (payload : Bytes) : Except TransportError Bytes :=
  .ok (Link.frameOf 16 payload [] ++ List.replicate 32 7)

def clientBanner : Except TransportError Bytes := .ok (ascii "SSH-2.0-client\r\n")

def execRequest : Bytes :=
  let w := (WireWriter.new.putU8 Msg.CHANNEL_REQUEST).putU32 0
  ((w.putStringStr "exec").putStringStr "dir").intoVec

/-- A client that sends its banner and a command, and nothing else. -/
def rudeClient : List StepCall := [⟨idleHost, [clientBanner, plainPacket execRequest], []⟩]

def loginRequest : Bytes :=
  let w := ((WireWriter.new.putU8 Msg.USERAUTH_REQUEST).putStringStr "svc").putStringStr
    SERVICE_CONNECTION
  (((w.putStringStr "password").putBool false).putStringStr "pw").intoVec

def serviceRequest (service : String) : Bytes :=
  ((WireWriter.new.putU8 Msg.SERVICE_REQUEST).putStringStr service).intoVec

/-- A client that exchanges keys, logs in, opens a channel and runs a command on it. -/
def politeClient : List StepCall :=
  let kexinit := serverKexinit (List.replicate 16 0)
  let ecdhInit := ((WireWriter.new.putU8 Msg.KEX_ECDH_INIT).putString (List.replicate 32 9)).intoVec
  let channelOpen := ((WireWriter.new.putU8 Msg.CHANNEL_OPEN).putStringStr "session").putU32 4
  [⟨idleHost, [clientBanner, plainPacket kexinit, plainPacket ecdhInit, plainPacket [Msg.NEWKEYS]], []⟩,
   ⟨idleHost, [sealedPacket (serviceRequest SERVICE_USERAUTH), sealedPacket loginRequest], []⟩,
   ⟨idleHost, [sealedPacket (serviceRequest SERVICE_CONNECTION), sealedPacket channelOpen.intoVec,
      sealedPacket execRequest], []⟩]

/-! ## Commands -/

/-- **Commands are justified** in every run whose command requests find their channel open: child
hooks are only called for a logged-in user, on behalf of a packet naming an open channel. -/
theorem run_calls_justified (children : List ChildRecord) (calls : List StepCall)
    (hguard : PacketsGuarded (run (init children) calls).log) :
    CallsJustified (run (init children) calls).log :=
  (run_inv children calls).justified hguard

theorem run_calls_justified_polite : (run (init []) politeClient).children = [childRecord .exec]
      ∧ CallsJustified (run (init []) politeClient).log :=
  ⟨by decide +kernel, run_calls_justified [] politeClient (by decide +kernel)⟩

/-- The rude client's command runs although nobody is logged in and no channel exists. -/
theorem preauth_exec_unjustified : ¬ CallsJustified (run (init []) rudeClient).log := by
  intro h
  have hlg : (run (init []) rudeClient).log
      = [.called (.registerChild (childRecord .exec)) execRequest none]
        ++ .called (.executeLine (ascii "dir")) execRequest none
        :: [.packet execRequest ⟨.kexInit, false, none, []⟩] := by
    decide +kernel
  obtain ⟨hu, _⟩ := h _ _ _ _ _ hlg
  exact absurd hu (by decide)

/-! ## Logins -/

/-- **Logins are earned**, in every run under one configuration: whenever the session is past the
login or has a channel, the link is encrypted and an earlier request naming the user made a verifier
say yes over it; and verifiers run at most as often as the configuration allows. -/
theorem run_login_earned (children : List ChildRecord) (config : SshdConfig)
    (calls : List StepCall) (hconfig : ∀ c ∈ calls, c.host.config = config) :
    Earned (run (init children) calls).log (run (init children) calls).snapshot
      ∧ AllEarned (run (init children) calls).log ∧ (0 < config.maxAuthTries.toNat →
          verifications (run (init children) calls).log ≤ config.maxAuthTries.toNat) := by
  refine ⟨(run_inv children calls).earned_now, (run_inv children calls).history, ?_⟩
  intro hp
  have hlt : Inv (run (init children) calls).view
      ∧ Limited config.maxAuthTries.toNat (run (init children) calls).view := by
    refine run_closed (I := fun v => Inv v ∧ Limited config.maxAuthTries.toNat v)
      (fun _ h => h.1) ?_ _ ⟨init_inv children, Or.inr (Nat.zero_le _)⟩
    intro c hc v w hs hv
    have hlm := hv.2
    rw [← hconfig c hc] at hlm ⊢
    exact ⟨inv_step hs hv.1, limited_step hs hlm⟩
  exact hlt.2.resolve_left (Nat.ne_of_gt hp)

theorem run_login_earned_polite : (run (init []) politeClient).session.state = .childSpawned
      ∧ Earned (run (init []) politeClient).log (run (init []) politeClient).snapshot
      ∧ verifications (run (init []) politeClient).log ≤ 2 := by
  have hcn : ∀ c ∈ politeClient, c.host.config = idleHost.config := by
    intro c hc
    simp only [politeClient, List.mem_cons, List.not_mem_nil, or_false] at hc
    rcases hc with rfl | rfl | rfl <;> rfl
  obtain ⟨hen, _, hlm⟩ := run_login_earned [] idleHost.config politeClient hcn
  exact ⟨by decide +kernel, hen, hlm (by decide)⟩

end Nt61.Sshd
