/-
Refinement — the session driver REFINES the abstract lifecycle.

Every handler moves the view along `Step` transitions only (`Refines`), however it ends: each proof
follows the handler's text with the rules of `Nt61.Lib.Prog`. So `Inv` holds of every world a run
can reach (`run_inv`).
-/
import Nt61.Servers.Sshd.Lifecycle

namespace Nt61.Sshd

open Lib Prog Moves Silent World List

/-! ## Programs that leave the view alone -/

def KeepsKeys {α : Type} (m : Prog Link TransportError α) : Prop :=
  Silent (fun l : Link => l.transport.isEncrypted) m

lemma setTransport_keeps {f : Transport → Transport}
    (h : ∀ t, (f t).isEncrypted = t.isEncrypted) : KeepsKeys (Link.setTransport f) :=
  update fun l => h l.transport

variable (crypto : Crypto)

lemma fill_keeps (n : Nat) : KeepsKeys (Link.fill crypto n) := fun _ => rfl

lemma pull_keeps (cap : Nat) : KeepsKeys (Link.pull cap) := fun _ => rfl

lemma push_keeps (data : Bytes) : KeepsKeys (Link.push data) := fun _ => rfl

variable (fuel : Nat)

lemma drain_keeps : KeepsKeys (Link.drain fuel) := by
  induction fuel with
  | zero => exact pure ()
  | succ fuel ih =>
    intro l
    have hpl := pull_keeps 4096 l
    unfold Link.drain
    cases h : Link.pull 4096 l with
    | mk r l' =>
      rw [h] at hpl
      cases r with
      | ok chunk =>
        cases chunk with
        | nil => exact hpl
        | cons b bs => exact (ih _).trans hpl
      | error e => cases e <;> exact hpl

lemma openFrame_keeps (packetLen : Nat) (packetBytes : Bytes) :
    KeepsKeys (Link.openFrame crypto packetLen packetBytes) := by
  refine read_bind fun l => ?_
  cases l.transport.receive with
  | none => exact pure _
  | some state =>
    refine bind (setTransport_keeps fun t => ?_) fun _ => ?_
    · cases h : t.receive <;> simp [Transport.isEncrypted, h]
    · exact ite (fail _) (pure _)

lemma readPacket_keeps : KeepsKeys (Link.readPacket crypto) := by
  refine read_bind fun before => bind (drain_keeps _) fun _ => ?_
  refine read_bind fun l => ite (pure _) ?_
  refine ite (fail _) (ite (pure _) ?_)
  refine bind (setTransport_keeps fun _ => rfl) fun _ => ?_
  refine bind (openFrame_keeps crypto _ _) fun plain => ite (fail _) ?_
  exact bind (setTransport_keeps fun _ => rfl) fun _ => pure _

lemma sendFrame_keeps (frame : Bytes) : KeepsKeys (Link.sendFrame crypto frame) := by
  refine read_bind fun l => ?_
  cases l.transport.send with
  | none => exact push_keeps _
  | some state => exact bind (setTransport_keeps fun _ => rfl) fun _ => push_keeps _

lemma writePacket_keeps (payload : Bytes) : KeepsKeys (Link.writePacket crypto payload) := by
  refine read_bind fun l => bind (fill_keeps crypto _) fun padding => ?_
  exact bind (sendFrame_keeps crypto _) fun _ => setTransport_keeps fun _ => rfl

/-- A session program that leaves the view alone. -/
def Quiet {α : Type} (m : SshProg α) : Prop := Silent view m

variable {α : Type}

lemma tryOnLink_quiet {m : Prog Link TransportError α} (h : KeepsKeys m) : Quiet (tryOnLink m) := by
  intro w
  have hks := h w.link
  unfold tryOnLink view snapshot
  dsimp only at hks ⊢
  rw [hks]

lemma onLink_quiet {m : Prog Link TransportError α} (h : KeepsKeys m) : Quiet (onLink m) := by
  refine bind (tryOnLink_quiet h) fun r => ?_
  cases r with
  | ok a => exact pure a
  | error e => exact fail _

section

variable (host : Host)
include host

lemma writePacket_quiet (payload : Bytes) : Quiet (writePacket host payload) :=
  onLink_quiet (writePacket_keeps host.crypto payload)

lemma sendUserauthFailure_quiet : Quiet (sendUserauthFailure host) := writePacket_quiet host _

lemma sendChannelReply_quiet (recipient : UInt32) (reply : UInt8) :
    Quiet (sendChannelReply host recipient reply) :=
  bind (writePacket_quiet host _) fun _ => pure _

lemma sendDisconnect_quiet (reason : UInt32) (description : String) :
    Quiet (sendDisconnect host reason description) :=
  bind (tryOnLink_quiet (writePacket_keeps host.crypto _)) fun _ => pure _

lemma sendOutput_quiet (recipient : UInt32) (output : Bytes) :
    Quiet (sendOutput host recipient output) :=
  ite (pure ()) (writePacket_quiet host _)

lemma sendExecution_quiet (recipient : UInt32) (execution : CommandExecution) :
    Quiet (sendExecution host recipient execution) :=
  bind (sendOutput_quiet host recipient _) fun _ => writePacket_quiet host _

end

lemma noteAuthFailure_quiet : Quiet noteAuthFailure := update fun _ => rfl

/-! ## The handlers -/

/-- The program moves the view along the abstract lifecycle under the host's attempt limit. -/
def Refines {α : Type} (host : Host) (P : View → Prop) (m : SshProg α) (Q : α → View → Prop) : Prop :=
  Moves view (Step host.config.maxAuthTries.toNat) P m Q

/-- A view in which `payload` was just received. -/
structure Handling (payload : Bytes) (v : View) : Prop where
  inv : Inv v
  received : ∃ seen, .packet payload seen ∈ v.log ∧ seen.channels = v.channels

section

variable {host : Host} {P : View → Prop}

lemma quiet_refines {m : SshProg α} (h : Quiet m) : Refines host P m (fun _ _ => True) :=
  (of_silent h).weaken (fun _ hv => hv) (fun _ _ _ => trivial)

lemma setSession_quiet {f : ActiveSession → ActiveSession}
    (h : ∀ w : World, { w with session := f w.session }.view = w.view) : Quiet (setSession f) :=
  update h

lemma advanceState_refines {next : SessionState} {Q : View → Prop}
    (hen : ∀ v, P v → next = .encrypted → v.encrypted = true)
    (hau : ∀ v, P v → next = .authenticated → v.user.isSome)
    (hQ : ∀ v, P v → Q { v with state := v.state.advance next }) :
    Refines host P (advanceState next) (fun _ => Q) := by
  refine update fun w hw => ⟨.single ?_, hQ _ hw⟩
  exact Step.advance w.view next (hen _ hw) (hau _ hw)

lemma advanceState_refines_plain {next : SessionState} (hen : next ≠ .encrypted)
    (hau : next ≠ .authenticated) : Refines host P (advanceState next) (fun _ _ => True) :=
  advanceState_refines (fun _ _ h => absurd h hen) (fun _ _ h => absurd h hau) fun _ _ => trivial

lemma return_refines (a : α) : Refines host P (pure a) (fun _ _ => True) :=
  pure a fun _ _ => trivial

lemma handleKexinit_refines (payload : Bytes) :
    Refines host P (handleKexinit host payload) (fun _ _ => True) := by
  refine quiet_refines ?_
  refine bind (ofOption _ _) fun negotiated => ?_
  refine bind (setSession_quiet fun _ => rfl) fun _ => ?_
  refine bind (onLink_quiet (fill_keeps host.crypto 32)) fun secret => ?_
  refine read_bind fun w => ?_
  refine bind (setSession_quiet fun _ => rfl) fun _ => ?_
  refine bind (ofOption _ _) fun attempts => ?_
  exact bind (setSession_quiet fun _ => rfl) fun _ => pure _

lemma handleEcdhInit_refines (payload : Bytes) :
    Refines host P (handleEcdhInit host payload) (fun _ _ => True) := by
  refine quiet_refines (read_bind fun w => ?_)
  refine bind (ofOption _ _) fun negotiated => ?_
  refine bind (ofOption _ _) fun clientKexinit => ?_
  refine bind (ofOption _ _) fun serverKexinit => ?_
  refine bind (ofOption _ _) fun ephemeralSecret => ?_
  refine bind (ofOption _ _) fun ⟨_, r⟩ => ?_
  refine bind (ofOption _ _) fun ⟨clientPublic, _⟩ => ite (fail _) ?_
  refine bind (ofOption _ _) fun reply => ?_
  refine bind (setSession_quiet fun _ => rfl) fun _ => ?_
  refine bind (writePacket_quiet host _) fun _ => ?_
  exact bind (writePacket_quiet host _) fun _ => pure _

lemma handleNewkeys_refines : Refines host P handleNewkeys (fun _ _ => True) := by
  refine read_bind fun w _ => ofOption_bind fun keys _ => ?_
  refine silent_bind (setSession_quiet fun _ => rfl) fun _ => ?_
  refine bind (Q := fun _ v => v.encrypted = true) ?_ fun _ => ?_
  · exact update fun w' _ => ⟨.single (Step.newkeys w'.view), rfl⟩
  refine bind (Q := fun _ _ => True) ?_ fun _ => return_refines _
  exact advanceState_refines (fun _ hen _ => hen) nofun fun _ _ => trivial

lemma handleServiceRequest_refines (payload : Bytes) :
    Refines host P (handleServiceRequest host payload) (fun _ _ => True) := by
  refine ofOption_bind fun ⟨_, r⟩ _ => ofOption_bind fun ⟨service, _⟩ _ => ?_
  refine read_bind fun w _ => ite (fun _ => ?_) fun _ => ite (fun _ => ?_) fun _ => ?_
  · refine silent_bind (writePacket_quiet host _) fun _ => ?_
    exact bind (advanceState_refines_plain (by decide) (by decide)) fun _ => return_refines _
  · refine silent_bind (writePacket_quiet host _) fun _ => ?_
    exact bind (advanceState_refines_plain (by decide) (by decide)) fun _ => return_refines _
  · exact quiet_refines (sendDisconnect_quiet host _ _)

/-! ### User authentication -/

lemma checkedAdd32_toNat {a b c : UInt32} (h : checkedAdd32 a b = some c) :
    c.toNat = a.toNat + b.toNat := by
  unfold checkedAdd32 at h
  split at h
  case isTrue hlt =>
    injection h with h
    subst h
    rw [UInt32.toNat_add, Nat.mod_eq_of_lt hlt]
  case isFalse => exact absurd h (by simp)

structure Attempting (host : Host) (v : View) : Prop where
  state : v.state = .userauthRequested
  limit : host.config.maxAuthTries.toNat = 0 ∨ v.attempts ≤ host.config.maxAuthTries.toNat
  count : verifications v.log < v.attempts

/-- What `check_method` leaves behind: a `yes` is in the history. -/
def Answered (payload user : Bytes) (outcome : Option Bool) (v : View) : Prop :=
  v.state = .userauthRequested ∧
    (outcome = some true → .verified payload v.encrypted user true ∈ v.log)

variable {payload user : Bytes}

lemma callVerifier_refines {ok : Bool}
    (hid : payload.head? = some Msg.USERAUTH_REQUEST) (hu : namedUser payload = some user) :
    Refines host (Attempting host) (callVerifier payload user ok)
      (fun ok' => Answered payload user (some ok')) := by
  refine read_bind fun w hw => ?_
  refine bind (Q := fun _ v => v.state = .userauthRequested
    ∧ .verified payload v.encrypted user ok ∈ v.log) ?_ fun _ => ?_
  · refine update fun w' hw' => ⟨.single ?_, ?_, ?_⟩
    · rw [← hw'] at hw
      have hen : w.link.transport.isEncrypted = w'.link.transport.isEncrypted :=
        congrArg (fun v : View => v.encrypted) hw'.symm
      rw [hen]
      exact Step.verify w'.view payload user ok hid hu hw.limit hw.count
    · rw [← hw'] at hw
      exact hw.state
    have hen : w.link.transport.isEncrypted = w'.link.transport.isEncrypted :=
      congrArg (fun v : View => v.encrypted) hw'.symm
    rw [hen]
    exact mem_cons_self
  refine pure ok fun v hv => ⟨hv.1, ?_⟩
  intro hok
  injection hok with hok
  exact hok ▸ hv.2

lemma unanswered {m : SshProg (Option Bool)} (h : Quiet m) (hm : ∀ w, (m w).1 ≠ .ok (some true)) :
    Refines host (Attempting host) m (Answered payload user) := by
  intro w hw
  have hvw := h w
  refine ⟨by rw [hvw], ?_⟩
  intro outcome ho
  rw [hvw]
  refine ⟨hw.state, ?_⟩
  intro htr
  exact absurd (ho.trans (by rw [htr])) (hm w)

lemma andThen_pure_ne {m : SshProg Unit} {a b : Option Bool} (hab : a ≠ b) (w : World) :
    ((m >>= fun _ => pure a : SshProg (Option Bool)) w).1 ≠ .ok b := by
  show (Prog.andThen m (fun _ => Prog.ret a) w).1 ≠ .ok b
  unfold Prog.andThen
  cases h : m w with
  | mk r w' =>
    cases r with
    | ok u => simpa [Prog.ret] using hab
    | error e => simp

lemma refuseAttempt_refines :
    Refines host (Attempting host) (refuseAttempt host) (Answered payload user) := by
  refine silent_bind noteAuthFailure_quiet fun _ => ?_
  refine unanswered ?_ fun w => andThen_pure_ne (by decide) w
  exact bind (sendUserauthFailure_quiet host) fun _ => pure _

lemma checkMethod_refines {payload user method : Bytes} {r : WireReader}
    (hid : payload.head? = some Msg.USERAUTH_REQUEST) (hu : namedUser payload = some user) :
    Refines host (Attempting host) (checkMethod host payload user method r)
      (Answered payload user) := by
  refine ite (fun _ => ite (fun _ => refuseAttempt_refines) fun _ => ?_) fun _ => ?_
  · refine ofOption_bind fun ⟨_, r⟩ _ => ofOption_bind fun ⟨password, _⟩ _ => ?_
    exact bind (callVerifier_refines hid hu) fun ok => pure _ fun v hv => hv
  refine ite (fun _ => ?_) fun _ => ?_
  · refine ofOption_bind fun ⟨hasSignature, r⟩ _ => ?_
    refine ofOption_bind fun ⟨algorithmBytes, r⟩ _ => ?_
    refine ofOption_bind fun algorithm _ => ofOption_bind fun ⟨keyBlob, r⟩ _ => ?_
    refine ite (fun _ => refuseAttempt_refines) fun _ => ite (fun _ => ?_) fun _ => ?_
    · refine unanswered ?_ fun w => andThen_pure_ne (by decide) w
      exact bind (sendUserauthFailure_quiet host) fun _ => pure _
    refine ofOption_bind fun ⟨signature, _⟩ _ => read_bind fun w hw => ?_
    refine bind (weaken (callVerifier_refines hid hu) ?_ fun _ _ h => h) fun ok =>
      pure _ fun v hv => hv
    intro v hv
    rw [hv]
    exact hw
  · exact pure _ fun v hv => ⟨hv.state, fun h => by simp at h⟩

lemma finishAttempt_refines (outcome : Option Bool) :
    Refines host (Answered payload user outcome) (finishAttempt host user outcome)
      (fun _ _ => True) := by
  match outcome with
  | none => exact return_refines _
  | some false =>
    refine silent_bind noteAuthFailure_quiet fun _ => ?_
    exact silent_bind (sendUserauthFailure_quiet host) fun _ => return_refines _
  | some true =>
    refine bind (Q := fun _ v => v.user.isSome) ?_ fun _ => ?_
    · refine update fun w hw => ⟨.single ?_, rfl⟩
      exact Step.login w.view payload user hw.1 (hw.2 rfl)
    refine silent_bind (writePacket_quiet host _) fun _ => ?_
    refine bind (Q := fun _ _ => True) ?_ fun _ => return_refines _
    exact advanceState_refines nofun (fun _ hv _ => hv) fun _ _ => trivial

variable {payload : Bytes}

lemma handleUserauthRequest_refines (hid : payload.head? = some Msg.USERAUTH_REQUEST) :
    Refines host Inv (handleUserauthRequest host payload) (fun _ _ => True) := by
  refine read_bind fun w hw => ite (fun _ => ?_) fun hst => ?_
  · exact quiet_refines (sendDisconnect_quiet host _ _)
  refine ofOption_bind fun attempts had => ?_
  have hat : attempts.toNat = w.view.attempts + 1 := checkedAdd32_toNat had
  refine bind (Q := fun _ v => v = { w.view with attempts := w.view.attempts + 1 }) ?_ fun _ => ?_
  · refine update fun w' hw' => ?_
    have hvw : view { w' with session := { w'.session with
        authAttempts := attempts, stats := { w'.session.stats with authAttempts := attempts } } }
        = { w'.view with attempts := w.view.attempts + 1 } := by
      rw [← hat]
      rfl
    rw [hvw, hw']
    exact ⟨.single (Step.attempt w.view), rfl⟩
  refine ite (fun _ => quiet_refines (sendDisconnect_quiet host _ _)) fun hlm => ?_
  refine ofOption_bind fun ⟨msgId, r1⟩ h1 => ofOption_bind fun ⟨userBytes, r2⟩ h2 => ?_
  refine ofOption_bind fun user h3 => ?_
  refine ofOption_bind fun ⟨_, r⟩ _ => ofOption_bind fun ⟨method, r⟩ _ => ?_
  have hu : namedUser payload = some user := by
    unfold namedUser
    simp only [h1, h2, Option.bind_eq_bind, Option.bind_some]
    exact h3
  refine bind (weaken (checkMethod_refines hid hu) ?_ fun _ _ h => h) finishAttempt_refines
  -- the attempt just counted is within the limit, and no verifier has run for it
  intro v hv
  subst hv
  refine ⟨not_not.mp hst, ?_, Nat.lt_succ_of_le hw.counted⟩
  by_cases h0 : host.config.maxAuthTries.toNat = 0
  · exact .inl h0
  refine .inr ?_
  have hp : host.config.maxAuthTries > 0 := UInt32.lt_iff_toNat_lt.mpr (Nat.pos_of_ne_zero h0)
  have hle : ¬ host.config.maxAuthTries.toNat < attempts.toNat := fun hlt =>
    hlm ⟨hp, UInt32.lt_iff_toNat_lt.mpr hlt⟩
  show w.view.attempts + 1 ≤ _
  omega

/-! ### Channels -/

lemma handleChannelOpen_refines (payload : Bytes) :
    Refines host P (handleChannelOpen host payload) (fun _ _ => True) := by
  refine read_bind fun w _ => ite (fun _ => ?_) fun hst => ?_
  · exact quiet_refines (sendDisconnect_quiet host _ _)
  refine ofOption_bind fun ⟨_, r⟩ _ => ofOption_bind fun ⟨channelType, r⟩ _ => ?_
  refine ite (fun _ => ?_) fun _ => ?_
  · exact quiet_refines (bind (writePacket_quiet host _) fun _ => pure _)
  refine ofOption_bind fun next _ => bind (Q := fun _ _ => True) ?_ fun _ => ?_
  · refine update fun w' hw' => ⟨.single ?_, trivial⟩
    refine Step.openChannel w'.view _ ?_
    rw [hw']
    by_cases hau : w.session.state = .authenticated
    · exact .inl hau
    · exact .inr (not_not.mp fun hcn => hst ⟨hau, hcn⟩)
  refine bind (advanceState_refines_plain (by decide) (by decide)) fun _ => ?_
  exact quiet_refines (bind (writePacket_quiet host _) fun _ => pure _)

lemma retainChannels_refines (localId : UInt32) :
    Refines host P (retainChannels localId) (fun _ _ => True) :=
  update fun w _ => ⟨.single (Step.closeChannel w.view localId), trivial⟩

lemma handleChannelClose_refines (payload : Bytes) :
    Refines host P (handleChannelClose host payload) (fun _ _ => True) := by
  refine ofOption_bind fun ⟨_, r⟩ _ => ofOption_bind fun ⟨recipient, _⟩ _ => ?_
  refine read_bind fun w _ => bind (retainChannels_refines recipient) fun _ => ?_
  exact quiet_refines (sendChannelReply_quiet host _ _)

/-- A child hook may be called for `payload`: it names a channel of the table, or it is a command
request and was received with the table as it is. -/
def MayCall (payload : Bytes) (v : View) : Prop :=
  (∃ c ∈ v.channels, namedChannel payload = some c.localId)
    ∨ (∃ id seen, commandChannel payload = some id ∧ seen.channels = v.channels
        ∧ .packet payload seen ∈ v.log)

lemma MayCall.step {v : View} (h : MayCall payload v) (n : Nat)
    (call : ChildCall) : Step n v { v with log := .called call payload v.user :: v.log } := by
  rcases h with ⟨c, hm, hna⟩ | ⟨id, seen, hcm, hse, hrv⟩
  · exact Step.callOnChannel v call payload c hm hna
  · exact Step.callCommand v call payload id seen hcm hse hrv

lemma MayCall.cons {v : View} (h : MayCall payload v) (e : Event) :
    MayCall payload { v with log := e :: v.log } := by
  rcases h with hch | ⟨id, seen, hcm, hse, hrv⟩
  · exact .inl hch
  · exact .inr ⟨id, seen, hcm, hse, mem_cons_of_mem e hrv⟩

lemma emitCall_refines (call : ChildCall) (w : World) (hw : MayCall payload w.view) :
    Refines host (fun v => v = w.view)
      (emit (.called call payload w.session.authenticatedUser)) (fun _ => MayCall payload) := by
  refine update fun w' hw' => ?_
  have hu : w.session.authenticatedUser = w'.view.user := congrArg (fun v : View => v.user) hw'.symm
  rw [← hw'] at hw
  rw [hu]
  exact ⟨.single (hw.step _ call), hw.cons _⟩

lemma callExecuteLine_refines {payload line : Bytes} :
    Refines host (MayCall payload) (callExecuteLine host payload line)
      (fun _ => MayCall payload) := by
  refine read_bind fun w hw => bind (emitCall_refines _ w hw) fun _ => ?_
  exact pure _ fun _ hv => hv

lemma callRegisterChild_refines (payload : Bytes) {record : ChildRecord} :
    Refines host (MayCall payload) (callRegisterChild payload record)
      (fun _ => MayCall payload) := by
  refine read_bind fun w hw => bind (emitCall_refines _ w hw) fun _ => ?_
  exact of_silent (update fun _ => rfl)

lemma spawned_refines {m : SshProg α} (h : Refines host (fun _ => True) m fun _ _ => True) :
    Refines host P
      (advanceState .execRequest >>= fun _ => advanceState .childSpawned >>= fun _ => m)
      (fun _ _ => True) := by
  refine bind (advanceState_refines_plain (by decide) (by decide)) fun _ => ?_
  exact bind (advanceState_refines_plain (by decide) (by decide)) fun _ => h

lemma sendChannelEofAndClose_refines (localId remote : UInt32) :
    Refines host P (sendChannelEofAndClose host localId remote) (fun _ _ => True) := by
  refine silent_bind (sendChannelReply_quiet host _ _) fun _ => ?_
  refine silent_bind (sendChannelReply_quiet host _ _) fun _ => ?_
  exact bind (retainChannels_refines localId) fun _ => return_refines _

lemma handleExec_refines {kind : ChildRequestKind} {channel : Option Channel}
    {replyRecipient : UInt32} {r : WireReader}
    (hcm : ∀ command r' text, r.getString = some (command, r') → fromUtf8 command = some text →
      (commandChannel payload).isSome) :
    Refines host (Handling payload) (handleExec host payload kind channel replyRecipient r)
      (fun _ _ => True) := by
  refine ofOption_bind fun ⟨command, r'⟩ hrd => ofOption_bind fun text htx => ?_
  obtain ⟨id, hid⟩ := Option.isSome_iff_exists.mp (hcm command r' text hrd htx)
  refine bind (weaken callExecuteLine_refines ?_ fun _ _ h => h) fun executed => ?_
  · rintro v ⟨_, seen, hrv, hse⟩
    exact .inr ⟨id, seen, hid, hse, hrv⟩
  refine bind (callRegisterChild_refines payload) fun _ => spawned_refines ?_
  refine silent_bind (sendExecution_quiet host _ _) fun _ => ?_
  cases channel with
  | some channel => exact sendChannelEofAndClose_refines _ _
  | none => exact return_refines _

lemma findChannel_some {s : ActiveSession} {id : UInt32} {c : Channel}
    (h : s.findChannel id = some c) : c ∈ s.channels ∧ c.localId = id := by
  refine ⟨mem_of_find?_eq_some h, ?_⟩
  have hid := find?_some h
  simpa using hid

lemma handleChannelRequest_refines (hid : payload.head? = some Msg.CHANNEL_REQUEST) :
    Refines host (Handling payload) (handleChannelRequest host payload) (fun _ _ => True) := by
  refine ofOption_bind fun ⟨id, r1⟩ h1 => ofOption_bind fun ⟨recipient, r2⟩ h2 => ?_
  refine ofOption_bind fun ⟨request, r3⟩ h3 => read_bind fun w hw => ?_
  -- a request of either kind, once its command text is read, is a command request
  have hcm : request = ascii "exec" ∨ request = ascii "subsystem" →
      ∀ command r' text, r3.getString = some (command, r') → fromUtf8 command = some text →
        (commandChannel payload).isSome := by
    intro hrq command r' text hrd htx
    have hms : id = Msg.CHANNEL_REQUEST := by
      cases payload with
      | nil => simp at hid
      | cons b bs =>
        have hb : b = Msg.CHANNEL_REQUEST := by simpa using hid
        have hgt : some (b, { WireReader.new (b :: bs) with pos := 1 }) = some (id, r1) := h1
        injection hgt with hgt
        injection hgt with hb' _
        rw [← hb', hb]
    unfold commandChannel
    simp [h1, h2, h3, hms, hrq, hrd, htx]
  have hwk : ∀ v, v = w.view → Handling payload v := fun v hv => hv ▸ hw
  refine ite (fun _ => quiet_refines (sendChannelReply_quiet host _ _)) fun _ => ?_
  refine ite (fun _ => ite (fun _ => ?_) fun hop => ?_) fun _ => ?_
  · exact quiet_refines (sendChannelReply_quiet host _ _)
  · -- a shell is only started on a channel found open
    refine bind (weaken (callRegisterChild_refines payload) ?_ fun _ _ h => h)
      fun _ => spawned_refines (quiet_refines (sendChannelReply_quiet host _ _))
    rintro v rfl
    cases hfi : w.session.findChannel recipient with
    | none => simp [hfi] at hop
    | some c =>
      obtain ⟨hm, hlc⟩ := findChannel_some hfi
      refine .inl ⟨c, hm, ?_⟩
      unfold namedChannel
      simp [h1, h2, hlc]
  refine ite (fun hrq => ?_) fun _ => ite (fun hrq => ?_) fun _ => ?_
  · exact weaken (handleExec_refines (hcm (.inl hrq))) hwk fun _ _ h => h
  · exact weaken (handleExec_refines (hcm (.inr hrq))) hwk fun _ _ h => h
  · exact quiet_refines (sendChannelReply_quiet host _ _)

lemma runLine_refines {payload buffer : Bytes} {channel : Channel} :
    Refines host (MayCall payload) (runLine host payload channel buffer)
      (fun _ => MayCall payload) := by
  unfold runLine
  cases fromUtf8 buffer with
  | none => exact pure _ fun _ hv => hv
  | some line =>
    refine ite (fun _ => pure _ fun _ hv => hv) fun _ => ?_
    refine bind callExecuteLine_refines fun executed => ?_
    cases executed with
    | some execution => exact of_silent (sendExecution_quiet host _ _)
    | none =>
      refine silent_bind (sendChannelReply_quiet host _ _) fun _ => ?_
      exact pure _ fun _ hv => hv

lemma dataLoop_refines (payload : Bytes) {channel : Channel} (data buffer : Bytes) :
    Refines host (MayCall payload) (dataLoop host payload channel data buffer)
      (fun _ => MayCall payload) := by
  induction data generalizing buffer with
  | nil => exact pure _ fun _ hv => hv
  | cons byte rest ih =>
    refine ite (fun _ => ?_) fun _ => ih _
    exact bind runLine_refines fun _ => ih []

lemma handleChannelData_refines (payload : Bytes) :
    Refines host P (handleChannelData host payload) (fun _ _ => True) := by
  refine ofOption_bind fun ⟨_, r1⟩ h1 => ofOption_bind fun ⟨recipient, r2⟩ h2 => ?_
  refine ofOption_bind fun ⟨data, _⟩ _ => read_bind fun w _ => ?_
  cases hfi : w.session.findChannel recipient with
  | none => exact return_refines _
  | some channel =>
    refine ite (fun _ => return_refines _) fun _ => ?_
    obtain ⟨hm, hlc⟩ := findChannel_some hfi
    refine silent_bind (setSession_quiet fun _ => rfl) fun _ => ?_
    refine bind (weaken (dataLoop_refines payload data _) ?_ fun _ _ h => h) fun buffer => ?_
    · rintro v rfl
      refine .inl ⟨channel, hm, ?_⟩
      unfold namedChannel
      simp [h1, h2, hlc]
    · refine silent_bind (setSession_quiet fun _ => rfl) fun _ => ?_
      exact return_refines _

/-! ### The dispatcher -/

lemma handlePayload_refines (payload : Bytes) :
    Refines host (Handling payload) (handlePayload host payload) (fun _ _ => True) := by
  cases payload with
  | nil => exact return_refines _
  | cons id rest =>
    refine ite (fun _ => return_refines _) fun _ => ?_
    refine ite (fun _ => return_refines _) fun _ => ?_
    refine ite (fun _ => handleKexinit_refines _) fun _ => ?_
    refine ite (fun _ => handleEcdhInit_refines _) fun _ => ?_
    refine ite (fun _ => handleNewkeys_refines) fun _ => ?_
    refine ite (fun _ => handleServiceRequest_refines _) fun _ => ?_
    refine ite (fun hid => ?_) fun _ => ?_
    · exact weaken (handleUserauthRequest_refines (congrArg some hid))
        (fun _ hv => hv.inv) fun _ _ h => h
    refine ite (fun _ => handleChannelOpen_refines _) fun _ => ?_
    refine ite (fun hid => handleChannelRequest_refines (congrArg some hid)) fun _ => ?_
    refine ite (fun _ => handleChannelData_refines _) fun _ => ?_
    refine ite (fun _ => return_refines _) fun _ => ?_
    refine ite (fun _ => handleChannelClose_refines _) fun _ => ?_
    exact quiet_refines (sendDisconnect_quiet host _ _)

lemma receivePayload_refines (payload : Bytes) :
    Refines host Inv (receivePayload host payload) (fun _ => Inv) := by
  refine weaken (keep (fun _ _ => inv_step) (fun _ h => h) ?_) (fun _ h => h)
    fun _ _ (h : _ ∧ True) => h.1
  refine read_bind fun w hw => ofOption_bind fun count _ => ?_
  refine silent_bind (setSession_quiet fun _ => rfl) fun _ => ?_
  refine bind (update fun w' hw' => ?_) fun _ => handlePayload_refines payload
  have hlk : w.snapshot = w'.view.toSnapshot := congrArg View.toSnapshot hw'.symm
  have hs : Step host.config.maxAuthTries.toNat w'.view
      (view { w' with log := .packet payload w.snapshot :: w'.log }) := by
    rw [hlk]
    exact Step.receive w'.view payload
  rw [← hw'] at hw
  refine ⟨.single hs, inv_step hs hw, w.snapshot, mem_cons_self, ?_⟩
  exact congrArg Snapshot.channels hlk

end

/-! ## Steps and runs -/

section

variable {host : Host}

lemma packetLoop_refines : Refines host Inv (packetLoop host fuel) (fun _ _ => True) := by
  induction fuel with
  | zero => exact return_refines _
  | succ fuel ih =>
    refine silent_bind (tryOnLink_quiet (readPacket_keeps host.crypto)) fun r => ?_
    match r with
    | .ok (some payload) =>
      refine bind (receivePayload_refines payload) fun outcome => ?_
      refine ite (fun _ => ?_) fun _ => ih
      exact update fun w _ => ⟨.single (Step.close w.view), trivial⟩
    | .ok none => exact return_refines _
    | .error .wouldBlock => exact return_refines _
    | .error .closed => exact fail _
    | .error .malformedPacket => exact fail _
    | .error .macVerificationFailed => exact fail _

lemma bannerLoop_quiet : Quiet (bannerLoop fuel) := by
  induction fuel with
  | zero => exact pure _
  | succ fuel ih =>
    refine read_bind fun w => ?_
    cases splitBanner w.session.bannerBuffer with
    | some p =>
      refine bind (setSession_quiet fun _ => rfl) fun _ => ?_
      refine ite (fail _) (ite (fail _) ?_)
      exact bind (setSession_quiet fun _ => rfl) fun _ => pure _
    | none =>
      refine ite (fail _) (bind (tryOnLink_quiet (pull_keeps 128)) fun r => ?_)
      match r with
      | .ok [] => exact fail _
      | .ok (b :: bs) => exact bind (setSession_quiet fun _ => rfl) fun _ => ih
      | .error .wouldBlock => exact pure _
      | .error .closed => exact fail _
      | .error .malformedPacket => exact fail _
      | .error .macVerificationFailed => exact fail _

lemma exchangeBanner_quiet : Quiet exchangeBanner := by
  refine read_bind fun w => ite (pure _) ?_
  refine bind (bannerLoop_quiet _) fun found => ite (pure _) ?_
  refine bind (onLink_quiet (push_keeps _)) fun _ => ?_
  refine bind (ofOption _ _) fun sent => ?_
  exact bind (setSession_quiet fun _ => rfl) fun _ => pure _

lemma buildServerKexinit_keeps : KeepsKeys (buildServerKexinit crypto) :=
  bind (fill_keeps crypto 16) fun _ => pure _

lemma openKex_refines : Refines host Inv (openKex host) (fun _ => Inv) := by
  refine weaken (keep (fun _ _ => inv_step) (fun _ h => h) ?_) (fun _ h => h)
    fun _ _ (h : _ ∧ True) => h.1
  refine silent_bind (onLink_quiet (buildServerKexinit_keeps host.crypto)) fun kexinit => ?_
  refine silent_bind (setSession_quiet fun _ => rfl) fun _ => ?_
  refine bind (advanceState_refines_plain (by decide) (by decide)) fun _ => ?_
  refine bind (advanceState_refines_plain (by decide) (by decide)) fun _ => ?_
  exact quiet_refines (writePacket_quiet host _)

lemma readPackets_refines : Refines host Inv (readPackets host) (fun _ _ => True) :=
  read_bind fun _ hw => weaken (packetLoop_refines _) (fun _ hv => hv ▸ hw) fun _ _ h => h

lemma step_refines (host : Host) : Refines host Inv (step host) (fun _ _ => True) := by
  refine read_bind fun w hw => ?_
  have hw' : ∀ v, v = w.view → Inv v := fun v hv => hv ▸ hw
  refine ite (fun _ => ?_) fun _ => weaken readPackets_refines hw' fun _ _ h => h
  refine silent_bind exchangeBanner_quiet fun done => ?_
  refine ite (fun _ => return_refines _) fun _ => ?_
  exact bind (weaken openKex_refines hw' fun _ _ h => h) fun _ => readPackets_refines

end

lemma feed_view (w : World) (c : StepCall) : (w.feed c).view = w.view := rfl

lemma run_closed {I : View → Prop} (hI : ∀ v, I v → Inv v) {calls : List StepCall}
    (hs : ∀ c ∈ calls, ∀ v w, Step c.host.config.maxAuthTries.toNat v w → I v → I w) (w : World)
    (hw : I w.view) : I (run w calls).view := by
  induction calls generalizing w with
  | nil => exact hw
  | cons c calls ih =>
    have hfd : I (w.feed c).view := by rw [feed_view]; exact hw
    have hmv := (step_refines c.host (w.feed c) (hI _ hfd)).1
    have he : I (step c.host (w.feed c)).2.view := closed_of_step (hs c mem_cons_self) hmv hfd
    unfold run
    cases h : step c.host (w.feed c) with
    | mk r w' =>
      rw [h] at he
      have hr := ih (fun d hd => hs d (mem_cons_of_mem c hd)) w' he
      match r with
      | .error .panic => exact he
      | .error (.transport e) => exact hr
      | .ok () => exact hr

lemma init_inv (children : List ChildRecord) : Inv (init children).view where
  keyed := fun h => absurd (show 4 ≤ 1 from h) (by decide)
  named := fun h => absurd (show 6 ≤ 1 from h) (by decide)
  channelUser := fun h => absurd rfl h
  genuine := fun _ _ _ _ h => absurd h not_mem_nil
  earned := fun _ h => absurd h (by simp [view, snapshot, init, ActiveSession.new])
  counted := Nat.zero_le _
  tabled := fun _ h => absurd h not_mem_nil
  history := fun _ _ _ _ h => by simp [view, init] at h
  justified := fun _ _ _ _ _ _ h => by simp [view, init] at h

/-- **The invariant of every run**: whatever the client sends, however often the session is stepped,
and whatever is installed on the machine meanwhile. -/
lemma run_inv (children : List ChildRecord) (calls : List StepCall) :
    Inv (run (init children) calls).view :=
  run_closed (fun _ h => h) (fun _ _ _ _ => inv_step) _ (init_inv children)

end Nt61.Sshd
