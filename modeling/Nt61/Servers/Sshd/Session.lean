/-
Session — the session driver of `sshd/session.rs`: banner exchange, key exchange, user
authentication and channel multiplexing, packet by packet.

A handler is a program on a `World`, with a HISTORY, newest first, that no code reads. Plain
additions on `u32` and `u64` counters are checked: an overflow is a panic and ends the run.
-/
import Nt61.Servers.Sshd.Auth

namespace Nt61.Sshd

open Lib Nt61.Crypto Prog WireWriter WireReader

/-! ## Session states -/

inductive SessionState where
  | new
  | tcpAccepted
  | bannerExchanged
  | kexInit
  | encrypted
  | userauthRequested
  | authenticated
  | connectionRequested
  | channelOpen
  | execRequest
  | childSpawned
  | closed
  deriving DecidableEq

namespace SessionState

def rank : SessionState → Nat
  | new => 0
  | tcpAccepted => 1
  | bannerExchanged => 2
  | kexInit => 3
  | encrypted => 4
  | userauthRequested => 5
  | authenticated => 6
  | connectionRequested => 7
  | channelOpen => 8
  | execRequest => 9
  | childSpawned => 10
  | closed => 11

def canTransitionTo (self next : SessionState) : Bool :=
  if next = closed then self ≠ closed else next.rank == self.rank + 1

def transition (self next : SessionState) : Option SessionState :=
  if self.canTransitionTo next then some next else none

/-- `advance_state`: an illegal transition is ignored. -/
def advance (self next : SessionState) : SessionState := (self.transition next).getD self

end SessionState

/-! ## The session and its world -/

structure SessionStats where
  kexAttempts : UInt32
  authAttempts : UInt32
  bytesFromClient : UInt64
  bytesToClient : UInt64
  deriving DecidableEq

structure Channel where
  remoteId : UInt32
  localId : UInt32
  isOpen : Bool
  deriving DecidableEq

def CHANNEL_OPEN_REASON_UNKNOWN_TYPE : UInt32 := 3
def EXIT_CODE_NO_EXECUTOR : UInt32 := 127

inductive PayloadOutcome where
  | continue
  | close
  deriving DecidableEq

/-- `ActiveSession`; its transport is in the `Link` of the world. -/
structure ActiveSession where
  state : SessionState
  stats : SessionStats
  bannerBuffer : Bytes
  clientVersion : Option Bytes
  serverVersion : Bytes
  serverKexinit : Option Bytes
  clientKexinit : Option Bytes
  ephemeralSecret : Option (Vector UInt8 32)
  negotiated : Option Negotiated
  sessionId : Option (Vector UInt8 32)
  derivedKeys : Option DerivedKeys
  authAttempts : UInt32
  authenticatedUser : Option Bytes
  nextChannelLocalId : UInt32
  channels : List Channel
  lineBuffer : Bytes
  deriving DecidableEq

def ActiveSession.new : ActiveSession :=
  { state := .tcpAccepted, stats := ⟨0, 0, 0, 0⟩, bannerBuffer := [], clientVersion := none,
    serverVersion := ascii SERVER_VERSION_STRING, serverKexinit := none, clientKexinit := none,
    ephemeralSecret := none, negotiated := none, sessionId := none, derivedKeys := none,
    authAttempts := 0, authenticatedUser := none, nextChannelLocalId := 0, channels := [],
    lineBuffer := [] }

def ActiveSession.findChannel (s : ActiveSession) (localId : UInt32) : Option Channel :=
  s.channels.find? fun channel => channel.localId == localId

/-- The two hooks of `sshd/child.rs` a session calls. -/
inductive ChildCall where
  | executeLine (line : Bytes)
  | registerChild (record : ChildRecord)
  deriving DecidableEq

/-- What can be seen of a session between two packets. -/
structure Snapshot where
  state : SessionState
  encrypted : Bool
  user : Option Bytes
  channels : List Channel
  deriving DecidableEq

inductive Event where
  /-- `payload` was handed to the dispatcher while the session looked like `seen`. -/
  | packet (payload : Bytes) (seen : Snapshot)
  | opened (localId : UInt32)
  | closed (localId : UInt32)
  /-- A verifier ran for `user`, on behalf of `payload`, and answered `ok`. -/
  | verified (payload : Bytes) (encrypted : Bool) (user : Bytes) (ok : Bool)
  /-- A child hook was called on behalf of `payload` while `authenticated_user` was `user`. -/
  | called (call : ChildCall) (payload : Bytes) (user : Option Bytes)
  deriving DecidableEq

/-- A session, its link, the daemon's child table and failure counter, and the history. -/
structure World where
  session : ActiveSession
  link : Link
  children : List ChildRecord
  authFailures : UInt64
  log : List Event

def World.snapshot (w : World) : Snapshot :=
  ⟨w.session.state, w.link.transport.isEncrypted, w.session.authenticatedUser, w.session.channels⟩

inductive Stop where
  | transport (e : TransportError)
  | panic
  deriving DecidableEq

abbrev SshProg := Prog World Stop

def malformed : Stop := .transport .malformedPacket

def setSession (f : ActiveSession → ActiveSession) : SshProg Unit :=
  update fun w => { w with session := f w.session }

def emit (e : Event) : SshProg Unit := update fun w => { w with log := e :: w.log }

def tryOnLink {α : Type} (m : Prog Link TransportError α) : SshProg (Except TransportError α) :=
  fun w => (.ok (m w.link).1, { w with link := (m w.link).2 })

def onLink {α : Type} (m : Prog Link TransportError α) : SshProg α := do
  let r ← tryOnLink m
  match r with
  | .ok a => pure a
  | .error e => fail (.transport e)

def checkedAdd32 (a b : UInt32) : Option UInt32 :=
  if a.toNat + b.toNat < 2 ^ 32 then some (a + b) else none

def checkedAdd64 (a : UInt64) (n : Nat) : Option UInt64 :=
  if a.toNat + n < 2 ^ 64 then some (a + UInt64.ofNat n) else none

def advanceState (next : SessionState) : SshProg Unit :=
  setSession fun s => { s with state := s.state.advance next }

/-! ## Outbound helpers -/

def writePacket (host : Host) (payload : Bytes) : SshProg Unit :=
  onLink (Link.writePacket host.crypto payload)

def sendServiceAccept (host : Host) (service : String) : SshProg Unit :=
  writePacket host ((new.putU8 Msg.SERVICE_ACCEPT).putStringStr service).intoVec

def sendUserauthFailure (host : Host) : SshProg Unit :=
  let w := (new.putU8 Msg.USERAUTH_FAILURE).putStringStr "password,publickey"
  writePacket host (w.putBool false).intoVec

def sendChannelReply (host : Host) (recipient : UInt32) (reply : UInt8) : SshProg PayloadOutcome := do
  writePacket host ((new.putU8 reply).putU32 recipient).intoVec
  return .continue

def sendExitStatus (host : Host) (recipient exitCode : UInt32) : SshProg Unit :=
  let w := (new.putU8 Msg.CHANNEL_REQUEST).putU32 recipient
  writePacket host (((w.putStringStr "exit-status").putBool false).putU32 exitCode).intoVec

def sendChannelData (host : Host) (recipient : UInt32) (data : Bytes) : SshProg Unit :=
  let w := (new.putU8 Msg.CHANNEL_DATA).putU32 recipient
  writePacket host (w.putString data).intoVec

/-- The reply is best effort: its error is dropped. -/
def sendDisconnect (host : Host) (reason : UInt32) (description : String) :
    SshProg PayloadOutcome := do
  let w := (new.putU8 Msg.DISCONNECT).putU32 reason
  let _ ← tryOnLink
    (Link.writePacket host.crypto ((w.putStringStr description).putStringStr "").intoVec)
  return .close

def pushChannel (channel : Channel) (nextLocalId : UInt32) : SshProg Unit :=
  update fun w => { w with
    session := { w.session with
      nextChannelLocalId := nextLocalId, channels := w.session.channels ++ [channel] }
    log := .opened channel.localId :: w.log }

def retainChannels (localId : UInt32) : SshProg Unit :=
  update fun w => { w with
    session := { w.session with
      channels := w.session.channels.filter fun c => c.localId != localId }
    log := .closed localId :: w.log }

def sendChannelEofAndClose (host : Host) (localId remoteRecipient : UInt32) :
    SshProg PayloadOutcome := do
  let _ ← sendChannelReply host remoteRecipient Msg.CHANNEL_EOF
  let _ ← sendChannelReply host remoteRecipient Msg.CHANNEL_CLOSE
  retainChannels localId
  return .continue

/-- Output of a finished command, unless it is empty. -/
def sendOutput (host : Host) (recipient : UInt32) (output : Bytes) : SshProg Unit :=
  if output = [] then pure () else sendChannelData host recipient output

/-- Output of a finished command, then its exit status. -/
def sendExecution (host : Host) (recipient : UInt32) (execution : CommandExecution) :
    SshProg Unit := do
  sendOutput host recipient execution.output
  sendExitStatus host recipient execution.exitCode

/-! ## Child hooks and verifiers, as the session calls them -/

/-- `child::execute_line`, called on behalf of `payload`. -/
def callExecuteLine (host : Host) (payload line : Bytes) : SshProg (Option CommandExecution) := do
  let w ← read
  emit (.called (.executeLine line) payload w.session.authenticatedUser)
  return executeLine host line

/-- `child::register_child`, called on behalf of `payload`; the slot is not used. -/
def callRegisterChild (payload : Bytes) (record : ChildRecord) : SshProg Unit := do
  let w ← read
  emit (.called (.registerChild record) payload w.session.authenticatedUser)
  update fun w => { w with children := (registerChild w.children record).2 }

def callVerifier (payload user : Bytes) (ok : Bool) : SshProg Bool := do
  let w ← read
  emit (.verified payload w.link.transport.isEncrypted user ok)
  return ok

def noteAuthFailure : SshProg Unit := update fun w => { w with authFailures := w.authFailures + 1 }

/-! ## Handlers -/

def handleKexinit (host : Host) (payload : Bytes) : SshProg PayloadOutcome := do
  let negotiated ← ofOption malformed (negotiate payload)
  setSession fun s => { s with negotiated := some negotiated, clientKexinit := some payload }
  let secret ← onLink (Link.fill host.crypto 32)
  let w ← read
  setSession fun s => { s with ephemeralSecret := some (toArray 32 secret) }
  let attempts ← ofOption .panic (checkedAdd32 w.session.stats.kexAttempts 1)
  setSession fun s => { s with stats := { s.stats with kexAttempts := attempts } }
  return .continue

def handleEcdhInit (host : Host) (payload : Bytes) : SshProg PayloadOutcome := do
  let w ← read
  let s := w.session
  let negotiated ← ofOption malformed s.negotiated
  let clientKexinit ← ofOption malformed s.clientKexinit
  let serverKexinit ← ofOption malformed s.serverKexinit
  let ephemeralSecret ← ofOption malformed s.ephemeralSecret
  let (_, r) ← ofOption malformed (new payload).getU8
  let (clientPublic, _) ← ofOption malformed r.getString
  if clientPublic.length ≠ 32 then fail malformed
  else do
    let reply ← ofOption malformed (kexEcdhReply host.crypto ephemeralSecret
      (toArray 32 clientPublic) (s.clientVersion.getD []) s.serverVersion clientKexinit
      serverKexinit host.hostKey negotiated.hostKeyAlgorithm)
    setSession fun s => { s with
      derivedKeys := some (deriveKeys host.crypto reply.sharedSecret reply.exchangeHash),
      sessionId := some reply.exchangeHash }
    writePacket host reply.payload
    writePacket host [Msg.NEWKEYS]
    return .continue

/-- NEWKEYS takes the derived keys, whatever the session's state. -/
def handleNewkeys : SshProg PayloadOutcome := do
  let w ← read
  let keys ← ofOption malformed w.session.derivedKeys
  let c2s := DirectionState.new keys.clientToServerKey keys.clientToServerMac
  let s2c := DirectionState.new keys.serverToClientKey keys.serverToClientMac
  setSession fun s => { s with derivedKeys := none }
  update fun w => { w with link := { w.link with
    transport := w.link.transport.activateKeys c2s s2c } }
  advanceState .encrypted
  return .continue

def handleServiceRequest (host : Host) (payload : Bytes) : SshProg PayloadOutcome := do
  let (_, r) ← ofOption malformed (new payload).getU8
  let (service, _) ← ofOption malformed r.getString
  let w ← read
  if service = ascii SERVICE_USERAUTH ∧ w.session.state = .encrypted then do
    sendServiceAccept host SERVICE_USERAUTH
    advanceState .userauthRequested
    return .continue
  else if service = ascii SERVICE_CONNECTION ∧ w.session.state = .authenticated then do
    sendServiceAccept host SERVICE_CONNECTION
    advanceState .connectionRequested
    return .continue
  else sendDisconnect host DisconnectReason.SERVICE_NOT_AVAILABLE "service unavailable"

def refuseAttempt (host : Host) : SshProg (Option Bool) := do
  noteAuthFailure
  sendUserauthFailure host
  return none

/-- The method-specific part of a USERAUTH_REQUEST. `none`: it was answered without running a
verifier. -/
def checkMethod (host : Host) (payload user method : Bytes) (r : WireReader) :
    SshProg (Option Bool) :=
  if method = ascii "password" then
    if !host.config.passwordAuthentication then refuseAttempt host
    else do
      let (_, r) ← ofOption malformed r.getBool
      let (password, _) ← ofOption malformed r.getString
      let ok ← callVerifier payload user (verifyPassword host user password)
      return some ok
  else if method = ascii "publickey" then do
    let (hasSignature, r) ← ofOption malformed r.getBool
    let (algorithmBytes, r) ← ofOption malformed r.getString
    let algorithm ← ofOption malformed (fromUtf8 algorithmBytes)
    let (keyBlob, r) ← ofOption malformed r.getString
    if !configAllowsPubkey host.config user then refuseAttempt host
    else if !hasSignature then do
      -- the client may retry with a signature; this is not counted as a failure
      sendUserauthFailure host
      return none
    else do
      let posAfterBlob := r.pos
      let (signature, _) ← ofOption malformed r.getString
      let w ← read
      let sessionId := w.session.sessionId.getD (Vector.replicate 32 0)
      let dataToSign := publickeyDataToSign sessionId.toList (payload.take posAfterBlob)
      let ok ← callVerifier payload user
        (verifyPublicKey host user algorithm keyBlob signature dataToSign)
      return some ok
  else return some false

/-- What follows a verifier's answer. -/
def finishAttempt (host : Host) (user : Bytes) : Option Bool → SshProg PayloadOutcome
  | none => return .continue
  | some true => do
    setSession fun s => { s with authenticatedUser := some user }
    writePacket host (new.putU8 Msg.USERAUTH_SUCCESS).intoVec
    advanceState .authenticated
    return .continue
  | some false => do
    noteAuthFailure
    sendUserauthFailure host
    return .continue

def handleUserauthRequest (host : Host) (payload : Bytes) : SshProg PayloadOutcome := do
  let w ← read
  if w.session.state ≠ .userauthRequested then
    sendDisconnect host DisconnectReason.PROTOCOL_ERROR "userauth before service request"
  else do
    let attempts ← ofOption .panic (checkedAdd32 w.session.authAttempts 1)
    setSession fun s => { s with
      authAttempts := attempts, stats := { s.stats with authAttempts := attempts } }
    let maxTries := host.config.maxAuthTries
    if maxTries > 0 ∧ attempts > maxTries then
      sendDisconnect host DisconnectReason.PROTOCOL_ERROR "too many authentication attempts"
    else do
      let (_, r) ← ofOption malformed (new payload).getU8
      let (userBytes, r) ← ofOption malformed r.getString
      let user ← ofOption malformed (fromUtf8 userBytes)
      let (_, r) ← ofOption malformed r.getString
      let (method, r) ← ofOption malformed r.getString
      let outcome ← checkMethod host payload user method r
      finishAttempt host user outcome

def handleChannelOpen (host : Host) (payload : Bytes) : SshProg PayloadOutcome := do
  let w ← read
  if w.session.state ≠ .authenticated ∧ w.session.state ≠ .connectionRequested then
    sendDisconnect host DisconnectReason.PROTOCOL_ERROR "connection request before authentication"
  else do
    let (_, r) ← ofOption malformed (new payload).getU8
    let (channelType, r) ← ofOption malformed r.getString
    let remoteId := (r.getU32.map Prod.fst).getD 0
    if channelType ≠ ascii CHANNEL_TYPE_SESSION then do
      let reply := (new.putU8 Msg.CHANNEL_OPEN_FAILURE).putU32 remoteId
      let reply := reply.putU32 CHANNEL_OPEN_REASON_UNKNOWN_TYPE
      let reply := reply.putStringStr "only session channels are supported"
      writePacket host (reply.putStringStr "").intoVec
      return .continue
    else do
      let localId := w.session.nextChannelLocalId
      let next ← ofOption .panic (checkedAdd32 localId 1)
      pushChannel ⟨remoteId, localId, true⟩ next
      advanceState .channelOpen
      let reply := (new.putU8 Msg.CHANNEL_OPEN_CONFIRMATION).putU32 remoteId
      let reply := (reply.putU32 localId).putU32 CHANNEL_WINDOW_INITIAL
      writePacket host (reply.putU32 CHANNEL_PACKET_SIZE_MAX).intoVec
      return .continue

/-- The "exec" and "subsystem" requests: the command runs WITHOUT a look at the channel, which is
only used to address the replies. -/
def handleExec (host : Host) (payload : Bytes) (kind : ChildRequestKind) (channel : Option Channel)
    (replyRecipient : UInt32) (r : WireReader) : SshProg PayloadOutcome := do
  let (commandBytes, _) ← ofOption malformed r.getString
  let command ← ofOption malformed (fromUtf8 commandBytes)
  let executed ← callExecuteLine host payload command
  let execution := executed.getD ⟨EXIT_CODE_NO_EXECUTOR, []⟩
  callRegisterChild payload (childRecord kind)
  advanceState .execRequest
  advanceState .childSpawned
  sendExecution host replyRecipient execution
  match channel with
  | some channel => sendChannelEofAndClose host channel.localId replyRecipient
  | none => return .continue

def handleChannelRequest (host : Host) (payload : Bytes) : SshProg PayloadOutcome := do
  let (_, r) ← ofOption malformed (new payload).getU8
  let (recipient, r) ← ofOption malformed r.getU32
  let (request, r) ← ofOption malformed r.getString
  let w ← read
  let channel := w.session.findChannel recipient
  let channelOpen := (channel.map Channel.isOpen).getD false
  let replyRecipient := (channel.map Channel.remoteId).getD recipient
  if request = ascii "pty-req" then sendChannelReply host replyRecipient Msg.CHANNEL_SUCCESS
  else if request = ascii "shell" then
    if !channelOpen then sendChannelReply host recipient Msg.CHANNEL_FAILURE
    else do
      callRegisterChild payload (childRecord .shell)
      advanceState .execRequest
      advanceState .childSpawned
      sendChannelReply host replyRecipient Msg.CHANNEL_SUCCESS
  else if request = ascii "exec" then handleExec host payload .exec channel replyRecipient r
  else if request = ascii "subsystem" then
    handleExec host payload .subsystem channel replyRecipient r
  else sendChannelReply host replyRecipient Msg.CHANNEL_FAILURE

/-- One complete line of an interactive channel; lines that are not UTF-8 and empty lines are
dropped. -/
def runLine (host : Host) (payload : Bytes) (channel : Channel) (buffer : Bytes) : SshProg Unit :=
  match fromUtf8 buffer with
  | none => pure ()
  | some line =>
    if line = [] then pure ()
    else do
      let executed ← callExecuteLine host payload line
      match executed with
      | some execution => sendExecution host channel.remoteId execution
      | none => do
        let _ ← sendChannelReply host channel.remoteId Msg.CHANNEL_FAILURE
        pure ()

/-- The bytes of a CHANNEL_DATA message: a line ends at a newline or a carriage return. -/
def dataLoop (host : Host) (payload : Bytes) (channel : Channel) : Bytes → Bytes → SshProg Bytes
  | [], buffer => pure buffer
  | byte :: rest, buffer =>
    if byte = 0x0A ∨ byte = 0x0D then do
      runLine host payload channel buffer
      dataLoop host payload channel rest []
    else dataLoop host payload channel rest (buffer ++ [byte])

def handleChannelData (host : Host) (payload : Bytes) : SshProg PayloadOutcome := do
  let (_, r) ← ofOption malformed (new payload).getU8
  let (recipient, r) ← ofOption malformed r.getU32
  let (data, _) ← ofOption malformed r.getString
  let w ← read
  match w.session.findChannel recipient with
  | none => return .continue
  | some channel =>
    if !channel.isOpen then return .continue
    else do
      -- the buffered line is taken out first, and lost if a reply fails
      setSession fun s => { s with lineBuffer := [] }
      let buffer ← dataLoop host payload channel data w.session.lineBuffer
      setSession fun s => { s with lineBuffer := buffer }
      return .continue

def handleChannelClose (host : Host) (payload : Bytes) : SshProg PayloadOutcome := do
  let (_, r) ← ofOption malformed (new payload).getU8
  let (recipient, _) ← ofOption malformed r.getU32
  let w ← read
  let remoteRecipient := ((w.session.findChannel recipient).map Channel.remoteId).getD recipient
  retainChannels recipient
  sendChannelReply host remoteRecipient Msg.CHANNEL_CLOSE

def handlePayload (host : Host) (payload : Bytes) : SshProg PayloadOutcome :=
  match payload with
  | [] => return .continue
  | id :: _ =>
    if id = Msg.DISCONNECT then return .close
    else if id = Msg.IGNORE ∨ id = Msg.DEBUG then return .continue
    else if id = Msg.KEXINIT then handleKexinit host payload
    else if id = Msg.KEX_ECDH_INIT then handleEcdhInit host payload
    else if id = Msg.NEWKEYS then handleNewkeys
    else if id = Msg.SERVICE_REQUEST then handleServiceRequest host payload
    else if id = Msg.USERAUTH_REQUEST then handleUserauthRequest host payload
    else if id = Msg.CHANNEL_OPEN then handleChannelOpen host payload
    else if id = Msg.CHANNEL_REQUEST then handleChannelRequest host payload
    else if id = Msg.CHANNEL_DATA then handleChannelData host payload
    else if id = Msg.CHANNEL_EOF then return .continue
    else if id = Msg.CHANNEL_CLOSE then handleChannelClose host payload
    else sendDisconnect host DisconnectReason.PROTOCOL_ERROR "unhandled message"

/-! ## Driving the session -/

def splitBanner (buffer : Bytes) : Option (Bytes × Bytes) := do
  let newline ← buffer.findIdx? (· == 0x0A)
  let line := buffer.take newline
  let line := if line.getLast? = some 0x0D then line.dropLast else line
  return (line, buffer.drop (newline + 1))

/-- Every round but the last adds a byte to a buffer of at most 255, so 257 rounds are enough. Bytes
after the line stay in the banner buffer. -/
def bannerLoop : Nat → SshProg Bool
  | 0 => return false
  | fuel + 1 => do
    let w ← read
    match splitBanner w.session.bannerBuffer with
    | some (line, rest) => do
      setSession fun s => { s with bannerBuffer := rest }
      if line.length > VERSION_LINE_MAX then fail malformed
      else if !((ascii VERSION_PREFIX_SSH2).isPrefixOf line
          || (ascii VERSION_PREFIX_SSH1_99).isPrefixOf line) then fail malformed
      else do
        setSession fun s => { s with clientVersion := some line }
        return true
    | none =>
      if w.session.bannerBuffer.length > VERSION_LINE_MAX then fail malformed
      else do
        let r ← tryOnLink (Link.pull 128)
        match r with
        | .ok [] => fail (.transport .closed)
        | .ok (b :: bs) => do
          setSession fun s => { s with bannerBuffer := s.bannerBuffer ++ b :: bs }
          bannerLoop fuel
        | .error .wouldBlock => return false
        | .error e => fail (.transport e)

def exchangeBanner : SshProg Bool := do
  let w ← read
  if w.session.clientVersion.isSome then return true
  else do
    let found ← bannerLoop (VERSION_LINE_MAX + 2)
    if !found then return false
    else do
      let banner := w.session.serverVersion ++ [0x0D, 0x0A]
      onLink (Link.push banner)
      let sent ← ofOption .panic (checkedAdd64 w.session.stats.bytesToClient banner.length)
      setSession fun s => { s with stats := { s.stats with bytesToClient := sent } }
      return true

def receivePayload (host : Host) (payload : Bytes) : SshProg PayloadOutcome := do
  let w ← read
  let count ← ofOption .panic (checkedAdd64 w.session.stats.bytesFromClient payload.length)
  setSession fun s => { s with stats := { s.stats with bytesFromClient := count } }
  emit (.packet payload w.snapshot)
  handlePayload host payload

def packetLoop (host : Host) : Nat → SshProg Unit
  | 0 => pure ()
  | fuel + 1 => do
    let r ← tryOnLink (Link.readPacket host.crypto)
    match r with
    | .ok (some payload) => do
      let outcome ← receivePayload host payload
      if outcome = .close then setSession fun s => { s with state := .closed }
      else packetLoop host fuel
    | .ok none => pure ()
    | .error .wouldBlock => pure ()
    | .error e => fail (.transport e)

/-- Bytes that can still make a packet; each complete packet takes at least nine of them. -/
def World.available (w : World) : Nat := w.link.transport.rxBuffer.length + w.link.io.pending

/-- After the banners: advertise our algorithms. -/
def openKex (host : Host) : SshProg Unit := do
  let kexinit ← onLink (buildServerKexinit host.crypto)
  setSession fun s => { s with serverKexinit := some kexinit }
  advanceState .bannerExchanged
  advanceState .kexInit
  writePacket host kexinit

def readPackets (host : Host) : SshProg Unit := do
  let w ← read
  packetLoop host (w.available + 1)

/-- One `step` call: finish the handshake when needed, then handle every complete packet. -/
def step (host : Host) : SshProg Unit := do
  let w ← read
  if w.session.state = .tcpAccepted then do
    let done ← exchangeBanner
    if !done then pure ()
    else do
      openKex host
      readPackets host
  else readPackets host

/-- A fresh session on a link that has sent and received nothing. -/
def World.init (children : List ChildRecord) : World :=
  { session := .new, link := ⟨.new, ⟨[], [], []⟩, 0⟩, children := children, authFailures := 0,
    log := [] }

/-- What is installed on the machine at a `step` call, and what the socket does during it. -/
structure StepCall where
  host : Host
  pulls : List (Except TransportError Bytes)
  pushes : List (Option TransportError)

/-- The world when the call starts: undelivered bytes of earlier calls come first. -/
def World.feed (w : World) (c : StepCall) : World :=
  { w with link := { w.link with io := { w.link.io with
      pulls := w.link.io.pulls ++ c.pulls, pushes := c.pushes } } }

/-- Any number of `step` calls; an error does not stop the caller, a panic does. -/
def run : World → List StepCall → World
  | w, [] => w
  | w, c :: calls =>
    match step c.host (w.feed c) with
    | (.error .panic, w') => w'
    | (_, w') => run w' calls

end Nt61.Sshd
