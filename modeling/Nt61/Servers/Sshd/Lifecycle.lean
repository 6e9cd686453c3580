/-
Lifecycle — what a session is FOR, as an abstract protocol.

`Step` lists everything a session may do to its view (the observable session, the number of login
attempts and the history), each with the guard under which it may do it. The one transition without
a channel guard is `callCommand`, the "exec"/"subsystem" request: the guarantee about child hooks
(`CallsJustified`) is relative to `PacketsGuarded`, which speaks about exactly those requests.
-/
import Nt61.Servers.Sshd.Session

namespace Nt61.Sshd

open Lib List

/-! ## What a payload names -/

def namedChannel (payload : Bytes) : Option UInt32 := do
  let (_, r) ← (WireReader.new payload).getU8
  let (recipient, _) ← r.getU32
  return recipient

def namedUser (payload : Bytes) : Option Bytes := do
  let (_, r) ← (WireReader.new payload).getU8
  let (user, _) ← r.getString
  fromUtf8 user

/-- The channel of a well-formed "exec" or "subsystem" request with a valid command text. -/
def commandChannel (payload : Bytes) : Option UInt32 := do
  let (id, r) ← (WireReader.new payload).getU8
  let (recipient, r) ← r.getU32
  let (request, r) ← r.getString
  if id = Msg.CHANNEL_REQUEST ∧ (request = ascii "exec" ∨ request = ascii "subsystem") then do
    let (command, _) ← r.getString
    let _ ← fromUtf8 command
    return recipient
  else none

/-! ## Histories -/

variable (log : List Event)

def StillOpen (id : UInt32) : Prop :=
  ∃ post pre, log = post ++ .opened id :: pre ∧ .closed id ∉ post

def verifications : List Event → Nat
  | [] => 0
  | .verified .. :: log => verifications log + 1
  | _ :: log => verifications log

/-- Every child hook was called for a logged-in user, on behalf of a packet that names a channel
this session had opened and not closed. -/
def CallsJustified : Prop :=
  ∀ post call payload user pre, log = post ++ .called call payload user :: pre →
    user.isSome ∧ ∃ id, namedChannel payload = some id ∧ StillOpen pre id

def CommandOnOpenChannel (payload : Bytes) (channels : List Channel) : Prop :=
  ∀ id, commandChannel payload = some id → ∃ c ∈ channels, c.localId = id ∧ c.isOpen = true

/-- Every command request found its channel open when it arrived. -/
def PacketsGuarded : Prop :=
  ∀ payload seen, .packet payload seen ∈ log → CommandOnOpenChannel payload seen.channels

/-- An authenticated look of the session was earned: the link is encrypted, and an earlier
USERAUTH_REQUEST naming the user made a verifier say yes over the encrypted link. -/
def Earned (seen : Snapshot) : Prop :=
  (seen.state ∈ [.authenticated, .connectionRequested, .channelOpen, .execRequest, .childSpawned]
      ∨ seen.channels ≠ []) →
    seen.encrypted = true ∧ ∃ user, seen.user = some user ∧
      ∃ payload, payload.head? = some Msg.USERAUTH_REQUEST ∧ namedUser payload = some user
        ∧ .verified payload true user true ∈ log

/-- Every look of the session a packet was received in was earned by then. -/
def AllEarned : Prop :=
  ∀ post payload seen pre, log = post ++ .packet payload seen :: pre → Earned pre seen

/-! ## Views and transitions -/

/-- The observable session, its attempt counter and its history. -/
structure View extends Snapshot where
  attempts : Nat
  log : List Event

def World.view (w : World) : View := ⟨w.snapshot, w.session.authAttempts.toNat, w.log⟩

/-- Everything a session may do, under a configured limit of login attempts (`0`: no limit). -/
inductive Step (maxTries : Nat) : View → View → Prop
  | receive (v : View) (payload : Bytes) :
      Step maxTries v { v with log := .packet payload v.toSnapshot :: v.log }
  | advance (v : View) (next : SessionState) (henc : next = .encrypted → v.encrypted = true)
      (hauth : next = .authenticated → v.user.isSome) :
      Step maxTries v { v with state := v.state.advance next }
  | close (v : View) : Step maxTries v { v with state := .closed }
  | newkeys (v : View) : Step maxTries v { v with encrypted := true }
  | attempt (v : View) : Step maxTries v { v with attempts := v.attempts + 1 }
  | verify (v : View) (payload user : Bytes) (ok : Bool)
      (hid : payload.head? = some Msg.USERAUTH_REQUEST) (huser : namedUser payload = some user)
      (hlimit : maxTries = 0 ∨ v.attempts ≤ maxTries) (hcount : verifications v.log < v.attempts) :
      Step maxTries v { v with log := .verified payload v.encrypted user ok :: v.log }
  | login (v : View) (payload user : Bytes) (hstate : v.state = .userauthRequested)
      (hok : .verified payload v.encrypted user true ∈ v.log) :
      Step maxTries v { v with user := some user }
  | openChannel (v : View) (c : Channel)
      (hstate : v.state = .authenticated ∨ v.state = .connectionRequested) :
      Step maxTries v { v with channels := v.channels ++ [c], log := .opened c.localId :: v.log }
  | closeChannel (v : View) (id : UInt32) :
      Step maxTries v { v with
        channels := v.channels.filter fun c => c.localId != id, log := .closed id :: v.log }
  | callOnChannel (v : View) (call : ChildCall) (payload : Bytes) (c : Channel)
      (hmem : c ∈ v.channels) (hname : namedChannel payload = some c.localId) :
      Step maxTries v { v with log := .called call payload v.user :: v.log }
  | callCommand (v : View) (call : ChildCall) (payload : Bytes) (id : UInt32) (seen : Snapshot)
      (hcmd : commandChannel payload = some id) (hseen : seen.channels = v.channels)
      (hrecv : .packet payload seen ∈ v.log) :
      Step maxTries v { v with log := .called call payload v.user :: v.log }

/-! ## The invariant -/

structure Inv (v : View) : Prop where
  keyed : 4 ≤ v.state.rank → v.state ≠ .closed → v.encrypted = true
  named : 6 ≤ v.state.rank → v.state ≠ .closed → v.user.isSome
  channelUser : v.channels ≠ [] → v.user.isSome
  genuine : ∀ payload enc user ok, .verified payload enc user ok ∈ v.log →
    payload.head? = some Msg.USERAUTH_REQUEST ∧ namedUser payload = some user
  earned : ∀ user, v.user = some user →
    v.encrypted = true ∧ ∃ payload, .verified payload true user true ∈ v.log
  counted : verifications v.log ≤ v.attempts
  tabled : ∀ c ∈ v.channels, StillOpen v.log c.localId
  history : AllEarned v.log
  justified : PacketsGuarded v.log → CallsJustified v.log

/-- Verifiers never ran more often than the limit allows. -/
def Limited (maxTries : Nat) (v : View) : Prop := maxTries = 0 ∨ verifications v.log ≤ maxTries

variable {v : View}

lemma Inv.earned_now (h : Inv v) : Earned v.log v.toSnapshot := by
  intro hseen
  have huser : v.user.isSome := by
    rcases hseen with hstate | hch
    · refine h.named ?_ ?_
      · simp only [mem_cons, not_mem_nil, or_false] at hstate
        rcases hstate with hs | hs | hs | hs | hs <;> rw [hs] <;> decide
      rintro hs
      rw [hs] at hstate
      exact absurd hstate (by decide)
    · exact h.channelUser hch
  obtain ⟨user, hu⟩ := Option.isSome_iff_exists.mp huser
  obtain ⟨henc, payload, hmem⟩ := h.earned user hu
  obtain ⟨hid, hname⟩ := h.genuine payload true user true hmem
  exact ⟨henc, user, hu, payload, hid, hname, hmem⟩

/-! ## Histories that grow -/

variable {log : List Event} {e : Event}

lemma StillOpen.cons {id : UInt32} (h : StillOpen log id)
    (he : e ≠ .closed id) : StillOpen (e :: log) id := by
  obtain ⟨post, pre, rfl, hnt⟩ := h
  refine ⟨e :: post, pre, rfl, ?_⟩
  rw [mem_cons, not_or]
  exact ⟨fun heq => he heq.symm, hnt⟩

lemma stillOpen_opened (log : List Event) (id : UInt32) : StillOpen (.opened id :: log) id :=
  ⟨[], log, rfl, not_mem_nil⟩

lemma AllEarned.cons (h : AllEarned log)
    (he : ∀ payload seen, e = .packet payload seen → Earned log seen) : AllEarned (e :: log) := by
  intro post payload seen pre heq
  rcases cons_eq_append_iff.mp heq with ⟨_, hcs⟩ | ⟨post', _, hlg⟩
  · injection hcs with hhd htl
    subst htl
    exact he payload seen hhd.symm
  · exact h post' payload seen pre hlg

lemma CallsJustified.cons (h : CallsJustified log)
    (he : ∀ call payload user, e = .called call payload user →
      user.isSome ∧ ∃ id, namedChannel payload = some id ∧ StillOpen log id) :
    CallsJustified (e :: log) := by
  intro post call payload user pre heq
  rcases cons_eq_append_iff.mp heq with ⟨_, hcs⟩ | ⟨post', _, hlg⟩
  · injection hcs with hhd htl
    subst htl
    exact he call payload user hhd.symm
  · exact h post' call payload user pre hlg

lemma PacketsGuarded.tail (h : PacketsGuarded (e :: log)) : PacketsGuarded log :=
  fun payload seen hmem => h payload seen (mem_cons_of_mem e hmem)

/-- **One more event.** What each kind of event owes to the invariant. -/
lemma Inv.emit (h : Inv v) (e : Event)
    (hvr : ∀ payload enc user ok, e = .verified payload enc user ok →
      payload.head? = some Msg.USERAUTH_REQUEST ∧ namedUser payload = some user
        ∧ verifications v.log < v.attempts) (hcl : ∀ c ∈ v.channels, e ≠ .closed c.localId)
    (hpk : ∀ payload seen, e = .packet payload seen → Earned v.log seen)
    (hca : ∀ call payload user, e = .called call payload user → PacketsGuarded v.log →
      user.isSome ∧ ∃ id, namedChannel payload = some id ∧ StillOpen v.log id) :
    Inv { v with log := e :: v.log } where
  keyed := h.keyed
  named := h.named
  channelUser := h.channelUser
  genuine := by
    intro payload enc user ok hmem
    rcases mem_cons.mp hmem with heq | hmem
    · obtain ⟨hid, hname, _⟩ := hvr payload enc user ok heq.symm
      exact ⟨hid, hname⟩
    · exact h.genuine payload enc user ok hmem
  earned := by
    intro user hu
    obtain ⟨henc, payload, hmem⟩ := h.earned user hu
    exact ⟨henc, payload, mem_cons_of_mem e hmem⟩
  counted := by
    cases e with
    | verified payload enc user ok =>
      obtain ⟨_, _, hlt⟩ := hvr payload enc user ok rfl
      exact hlt
    | _ => exact h.counted
  tabled := fun c hc => (h.tabled c hc).cons (hcl c hc)
  history := h.history.cons hpk
  justified := fun hg =>
    (h.justified hg.tail).cons fun call payload user heq => hca call payload user heq hg.tail

/-! ## Preservation -/

lemma advance_cases (s next : SessionState) :
    s.advance next = s ∨ (s.advance next = next ∧ (next = .closed ∨ next.rank = s.rank + 1)) := by
  unfold SessionState.advance SessionState.transition
  by_cases hcn : s.canTransitionTo next = true
  · rw [if_pos hcn]
    refine .inr ⟨rfl, ?_⟩
    unfold SessionState.canTransitionTo at hcn
    by_cases hc : next = .closed
    · exact .inl hc
    · rw [if_neg hc] at hcn
      exact .inr (by simpa using hcn)
  · rw [if_neg hcn]
    exact .inl rfl

lemma rank_eq_four {s : SessionState} (h : s.rank = 4) : s = .encrypted := by
  cases s <;> first | rfl | exact absurd h (by decide)

lemma rank_eq_six {s : SessionState} (h : s.rank = 6) : s = .authenticated := by
  cases s <;> first | rfl | exact absurd h (by decide)

lemma Inv.advance (h : Inv v) (next : SessionState)
    (henc : next = .encrypted → v.encrypted = true) (hauth : next = .authenticated → v.user.isSome) :
    Inv { v with state := v.state.advance next } := by
  rcases advance_cases v.state next with hsm | ⟨hnx, hst⟩
  · rw [hsm]
    exact h
  rw [hnx]
  have hbl : next ≠ .closed → next.rank = v.state.rank + 1 ∧ v.state ≠ .closed := by
    intro hne
    have hr := hst.resolve_left hne
    refine ⟨hr, ?_⟩
    rintro hs
    rw [hs] at hr
    cases next <;> exact absurd hr (by decide)
  refine { h with keyed := ?_, named := ?_ }
  · intro hrn hne
    obtain ⟨hr, hvn⟩ := hbl hne
    -- either the state below is already past NEWKEYS, or this is the step that enters it
    by_cases h4 : next.rank = 4
    · exact henc (rank_eq_four h4)
    · have hrn' : 4 ≤ next.rank := hrn
      exact h.keyed (by omega) hvn
  intro hrn hne
  obtain ⟨hr, hvn⟩ := hbl hne
  by_cases h6 : next.rank = 6
  · exact hauth (rank_eq_six h6)
  · have hrn' : 6 ≤ next.rank := hrn
    exact h.named (by omega) hvn

lemma Inv.openChannel (h : Inv v) (c : Channel)
    (hstate : v.state = .authenticated ∨ v.state = .connectionRequested) :
    Inv { v with channels := v.channels ++ [c], log := .opened c.localId :: v.log } := by
  have huser : v.user.isSome := by
    rcases hstate with hs | hs
    · exact h.named (by rw [hs]; decide) (by rw [hs]; decide)
    · exact h.named (by rw [hs]; decide) (by rw [hs]; decide)
  have h' : Inv { v with log := .opened c.localId :: v.log } := by
    exact h.emit _ nofun nofun nofun nofun
  refine { h' with channelUser := fun _ => huser, tabled := ?_ }
  intro d hd
  rcases mem_append.mp hd with hd | hd
  · exact h'.tabled d hd
  · rw [mem_singleton.mp hd]
    exact stillOpen_opened v.log c.localId

lemma Inv.closeChannel (h : Inv v) (id : UInt32) : Inv { v with
      channels := v.channels.filter fun c => c.localId != id, log := .closed id :: v.log } := by
  have h' : Inv { v with channels := v.channels.filter fun c => c.localId != id } :=
    { h with
      channelUser := fun hne => h.channelUser fun hnl =>
        hne (by show List.filter _ v.channels = []; rw [hnl]; rfl)
      tabled := fun c hc => h.tabled c (mem_filter.mp hc).1 }
  refine h'.emit _ nofun ?_ nofun nofun
  intro c hc heq
  have hne := (mem_filter.mp hc).2
  injection heq with hid
  rw [hid] at hne
  simp at hne

lemma Inv.call (h : Inv v) (call : ChildCall) (payload : Bytes)
    (hc : PacketsGuarded v.log → ∃ c ∈ v.channels, namedChannel payload = some c.localId) :
    Inv { v with log := .called call payload v.user :: v.log } := by
  refine h.emit _ nofun nofun nofun ?_
  intro call' payload' user' heq hg
  injection heq with _ hp hu
  obtain ⟨c, hmem, hname⟩ := hc hg
  rw [← hp, ← hu]
  exact ⟨h.channelUser (ne_nil_of_mem hmem), c.localId, hname, h.tabled c hmem⟩

lemma commandChannel_named {payload : Bytes} {id : UInt32} (h : commandChannel payload = some id) :
    namedChannel payload = some id := by
  unfold commandChannel at h
  unfold namedChannel
  cases h8 : (WireReader.new payload).getU8 with
  | none => simp [h8] at h
  | some p =>
    cases h32 : p.2.getU32 with
    | none => simp [h8, h32] at h
    | some q =>
      cases hs : q.2.getString with
      | none => simp [h8, h32, hs] at h
      | some t =>
        simp only [h8, h32, hs, Option.bind_eq_bind, Option.bind_some] at h ⊢
        split at h
        · cases hcmd : t.2.getString with
          | none => simp [hcmd] at h
          | some c =>
            simp only [hcmd, Option.bind_some, Option.bind_eq_some_iff] at h
            obtain ⟨_, _, h⟩ := h
            exact h
        · exact absurd h (by simp)

lemma inv_step {maxTries : Nat} {v w : View} (hs : Step maxTries v w) (h : Inv v) : Inv w := by
  cases hs with
  | receive payload =>
    refine h.emit _ nofun nofun ?_ nofun
    intro payload' seen heq
    injection heq with _ hseen
    rw [← hseen]
    exact h.earned_now
  | advance next henc hauth => exact h.advance next henc hauth
  | close =>
    exact { h with keyed := fun _ hne => absurd rfl hne, named := fun _ hne => absurd rfl hne }
  | newkeys =>
    exact { h with
      keyed := fun _ _ => rfl
      earned := fun user hu => ⟨rfl, (h.earned user hu).2⟩ }
  | attempt => exact { h with counted := Nat.le_succ_of_le h.counted }
  | verify payload user ok hid huser hlimit hcount =>
    refine h.emit _ ?_ nofun nofun nofun
    intro payload' enc' user' ok' heq
    injection heq with hp _ hu _
    rw [← hp, ← hu]
    exact ⟨hid, huser, hcount⟩
  | login payload user hstate hok =>
    have henc : v.encrypted = true := h.keyed (by rw [hstate]; decide) (by rw [hstate]; decide)
    rw [henc] at hok
    refine { h with named := fun _ _ => rfl, channelUser := fun _ => rfl, earned := ?_ }
    intro user' hu
    injection hu with hu
    subst hu
    exact ⟨henc, payload, hok⟩
  | openChannel c hstate => exact h.openChannel c hstate
  | closeChannel id => exact h.closeChannel id
  | callOnChannel call payload c hmem hname => exact h.call call payload fun _ => ⟨c, hmem, hname⟩
  | callCommand call payload id seen hcmd hseen hrecv =>
    refine h.call call payload ?_
    intro hg
    obtain ⟨c, hmem, hid, _⟩ := hg payload seen hrecv id hcmd
    rw [hseen] at hmem
    exact ⟨c, hmem, by rw [hid]; exact commandChannel_named hcmd⟩

lemma limited_step {maxTries : Nat} {v w : View} (hs : Step maxTries v w)
    (h : Limited maxTries v) : Limited maxTries w := by
  cases hs with
  | verify payload user ok hid huser hlimit hcount =>
    rcases hlimit with h0 | hle
    · exact .inl h0
    have hsu : verifications (.verified payload v.encrypted user ok :: v.log)
        = verifications v.log + 1 := rfl
    refine .inr ?_
    show verifications (.verified payload v.encrypted user ok :: v.log) ≤ maxTries
    omega
  | receive | advance | close | newkeys | attempt | login | openChannel | closeChannel
  | callOnChannel | callCommand => exact h

end Nt61.Sshd
