/-
Protocol — constants and the binary packet transport of `sshd/protocol.rs` (RFC 4253 section 6).

The cryptographic primitives are ARBITRARY functions (`Crypto`). The client and the network are a
script (`Io`): what every pull returns, in pieces of any size, and which pushes fail. `readPacket`
and `writePacket` are programs on a `Link`, the transport together with the socket it talks to.
-/
import Nt61.Lib.Prog
import Nt61.Crypto.Rsa
import Nt61.Servers.Sshd.Wire

namespace Nt61.Sshd

open Lib Nt61.Crypto

/-! ## Constants -/

def VERSION_PREFIX_SSH2 : String := "SSH-2.0-"
def VERSION_PREFIX_SSH1_99 : String := "SSH-1.99-"
def SERVER_VERSION_STRING : String := "SSH-2.0-nt61_0.1"
def VERSION_LINE_MAX : Nat := 255
def PACKET_LENGTH_LIMIT : Nat := 64 * 1024
def PADDING_MIN : Nat := 4
def PADDING_RANDOM_BYTES : Nat := 16
def BLOCK_SIZE_UNENCRYPTED : Nat := 8
def CIPHER_BLOCK_SIZE_AES : Nat := 16
def MAC_LEN_HMAC_SHA2_256 : Nat := 32
def CHANNEL_PACKET_SIZE_MAX : UInt32 := 32768
def CHANNEL_WINDOW_INITIAL : UInt32 := 2 * 1024 * 1024

def ALG_KEX_CURVE25519_SHA256 : String := "curve25519-sha256"
def ALG_HOSTKEY_RSA_SHA2_256 : String := "rsa-sha2-256"
def ALG_HOSTKEY_SSH_RSA : String := "ssh-rsa"
def ALG_CIPHER_AES256_CTR : String := "aes256-ctr"
def ALG_MAC_HMAC_SHA2_256 : String := "hmac-sha2-256"
def ALG_COMPRESSION_NONE : String := "none"

def SERVICE_USERAUTH : String := "ssh-userauth"
def SERVICE_CONNECTION : String := "ssh-connection"
def CHANNEL_TYPE_SESSION : String := "session"

namespace Msg

def DISCONNECT : UInt8 := 1
def IGNORE : UInt8 := 2
def DEBUG : UInt8 := 3
def SERVICE_REQUEST : UInt8 := 5
def SERVICE_ACCEPT : UInt8 := 6
def KEXINIT : UInt8 := 20
def NEWKEYS : UInt8 := 21
def KEX_ECDH_INIT : UInt8 := 30
def KEX_ECDH_REPLY : UInt8 := 31
def USERAUTH_REQUEST : UInt8 := 50
def USERAUTH_FAILURE : UInt8 := 51
def USERAUTH_SUCCESS : UInt8 := 52
def CHANNEL_OPEN : UInt8 := 90
def CHANNEL_OPEN_CONFIRMATION : UInt8 := 91
def CHANNEL_OPEN_FAILURE : UInt8 := 92
def CHANNEL_DATA : UInt8 := 94
def CHANNEL_EOF : UInt8 := 96
def CHANNEL_CLOSE : UInt8 := 97
def CHANNEL_REQUEST : UInt8 := 98
def CHANNEL_SUCCESS : UInt8 := 99
def CHANNEL_FAILURE : UInt8 := 100

end Msg

namespace DisconnectReason

def PROTOCOL_ERROR : UInt32 := 2
def SERVICE_NOT_AVAILABLE : UInt32 := 7

end DisconnectReason

/-! ## The primitives the transport and the key exchange call -/

/-- The cryptographic primitives, as arbitrary functions; `random i` is the `i`-th byte the random
generator hands to this session. -/
structure Crypto where
  sha256 : Bytes → Vector UInt8 32
  sha1 : Bytes → Vector UInt8 20
  hmacSha256 : Vector UInt8 32 → Bytes → Vector UInt8 32
  encryptBlock : Vector UInt8 32 → Vector UInt8 16 → Vector UInt8 16
  x25519 : Vector UInt8 32 → Vector UInt8 32 → Vector UInt8 32
  signPkcs1v15 : RsaPrivateKey → Bytes → Option Bytes
  verifyPkcs1v15 : RsaPublicKey → Bytes → Bytes → Bool
  random : Nat → UInt8

/-- The first `n` bytes of a slice as an array (`copy_from_slice`). -/
def toArray (n : Nat) (bytes : Bytes) : Vector UInt8 n := Vector.ofFn fun i => bytes.getD i 0

/-- `Ctr<Aes256>`: the key and the counter block. -/
structure Ctr where
  key : Vector UInt8 32
  counter : Vector UInt8 16
  deriving DecidableEq

namespace Ctr

/-- From the last byte up to the first one that does not wrap to zero. -/
def incrementCounter (counter : Vector UInt8 16) : Vector UInt8 16 := go 16 counter
where
  go : Nat → Vector UInt8 16 → Vector UInt8 16
    | 0, c => c
    | i + 1, c =>
      let byte := c.toList.getD i 0 + 1
      let c := c.setIfInBounds i byte
      if byte ≠ 0 then c else go i c

/-- One counter block per chunk of 16 bytes, the last chunk possibly short. -/
def processChunks (crypto : Crypto) : Nat → Ctr → Bytes → Bytes × Ctr
  | 0, s, _ => ([], s)
  | n + 1, s, data =>
    let keystream := crypto.encryptBlock s.key s.counter
    let (rest, s') :=
      processChunks crypto n { s with counter := incrementCounter s.counter } (data.drop 16)
    (List.zipWith (· ^^^ ·) (data.take 16) keystream.toList ++ rest, s')

def process (crypto : Crypto) (s : Ctr) (data : Bytes) : Bytes × Ctr :=
  processChunks crypto ((data.length + 15) / 16) s data

end Ctr

structure DirectionState where
  cipher : Ctr
  macKey : Vector UInt8 32
  deriving DecidableEq

def DirectionState.new (key macKey : Vector UInt8 32) : DirectionState :=
  ⟨⟨key, Vector.replicate 16 0⟩, macKey⟩

/-! ## The socket -/

inductive TransportError where
  | wouldBlock
  | closed
  | malformedPacket
  | macVerificationFailed
  deriving DecidableEq

/-- The client and the network: what the coming pulls deliver, which of the coming pushes fail
(`none`: it succeeds; past the end every push succeeds), and what was sent, newest first. -/
structure Io where
  pulls : List (Except TransportError Bytes)
  pushes : List (Option TransportError)
  sent : List Bytes

namespace Io

/-- A delivery longer than the buffer leaves its rest for the next pull; when nothing is left to
deliver, the socket would block. -/
def pull (cap : Nat) (io : Io) : Except TransportError Bytes × Io :=
  match io.pulls with
  | [] => (.error .wouldBlock, io)
  | .error e :: rest => (.error e, { io with pulls := rest })
  | .ok chunk :: rest =>
    let left := chunk.drop cap
    (.ok (chunk.take cap), { io with pulls := if left = [] then rest else .ok left :: rest })

def push (data : Bytes) (io : Io) : Except TransportError Unit × Io :=
  match io.pushes with
  | [] => (.ok (), { io with sent := data :: io.sent })
  | none :: rest => (.ok (), { io with pushes := rest, sent := data :: io.sent })
  | some e :: rest => (.error e, { io with pushes := rest })

/-- Bytes and script entries still to be delivered. -/
def pending (io : Io) : Nat :=
  (io.pulls.map fun p => match p with | .ok chunk => chunk.length + 1 | .error _ => 1).sum

end Io

/-! ## Packets -/

structure Transport where
  rxBuffer : Bytes
  seqRx : UInt32
  seqTx : UInt32
  receive : Option DirectionState
  send : Option DirectionState
  deriving DecidableEq

def Transport.new : Transport := ⟨[], 0, 0, none, none⟩

def Transport.activateKeys (t : Transport) (clientToServer serverToClient : DirectionState) :
    Transport :=
  { t with receive := some clientToServer, send := some serverToClient }

def Transport.isEncrypted (t : Transport) : Bool := t.receive.isSome

/-- The transport, the socket it reads and writes, and how many random bytes were drawn. -/
structure Link where
  transport : Transport
  io : Io
  drawn : Nat

namespace Link

open Prog

variable (crypto : Crypto)

def fill (n : Nat) : Prog Link TransportError Bytes := fun l =>
  (.ok ((List.range n).map fun i => crypto.random (l.drawn + i)), { l with drawn := l.drawn + n })

def pull (cap : Nat) : Prog Link TransportError Bytes := fun l =>
  let (r, io) := l.io.pull cap
  (r, { l with io := io })

def push (data : Bytes) : Prog Link TransportError Unit := fun l =>
  let (r, io) := l.io.push data
  (r, { l with io := io })

def setTransport (f : Transport → Transport) : Prog Link TransportError Unit :=
  update fun l => { l with transport := f l.transport }

/-- The draining loop of `read_packet`. Every round but the last takes a byte or an entry off the
script, so `pending + 1` rounds are enough. -/
def drain : Nat → Prog Link TransportError Unit
  | 0 => pure ()
  | fuel + 1 => fun l =>
    match pull 4096 l with
    | (.ok [], l) => (.ok (), l)
    | (.ok (b :: bs), l) =>
      drain fuel { l with transport := { l.transport with
        rxBuffer := l.transport.rxBuffer ++ b :: bs } }
    | (.error .wouldBlock, l) => (.ok (), l)
    | (.error e, l) => (.error e, l)

/-- With keys active the body is decrypted first, then the MAC is compared: the cipher has advanced
also when the MAC is wrong. -/
def openFrame (packetLen : Nat) (packetBytes : Bytes) : Prog Link TransportError Bytes := do
  let l ← read
  let body := (packetBytes.drop 4).take packetLen
  match l.transport.receive with
  | none => pure body
  | some state => do
    let (plain, cipher) := state.cipher.process crypto body
    setTransport fun t => { t with receive := t.receive.map ({ · with cipher := cipher }) }
    let expected := crypto.hmacSha256 state.macKey
      (beBytes 4 l.transport.seqRx.toNat ++ packetBytes.take 4 ++ plain)
    if packetBytes.drop (4 + packetLen) ≠ expected.toList then
      fail .macVerificationFailed
    else pure plain

/-- Drain what has arrived and return the next payload when its packet is complete. -/
def readPacket : Prog Link TransportError (Option Bytes) := do
  let before ← read
  drain (before.io.pending + 1)
  let l ← read
  let t := l.transport
  let block := if t.receive.isSome then CIPHER_BLOCK_SIZE_AES else BLOCK_SIZE_UNENCRYPTED
  if t.rxBuffer.length < 4 then pure none
  else do
    let packetLen := beValue (t.rxBuffer.take 4)
    if ¬ (PADDING_MIN + 1 ≤ packetLen ∧ packetLen ≤ PACKET_LENGTH_LIMIT)
        ∨ (packetLen + 4) % block ≠ 0 then
      fail .malformedPacket
    else do
      let macLen := if t.receive.isSome then MAC_LEN_HMAC_SHA2_256 else 0
      let total := 4 + packetLen + macLen
      if t.rxBuffer.length < total then pure none
      else do
        setTransport fun t => { t with rxBuffer := t.rxBuffer.drop total }
        let plain ← openFrame crypto packetLen (t.rxBuffer.take total)
        -- the packet is at least five bytes long, so the padding length byte is there
        let paddingLen := (plain.headD 0).toNat
        if paddingLen + 1 > plain.length then fail .malformedPacket
        else do
          setTransport fun t => { t with seqRx := t.seqRx + 1 }
          pure (some ((plain.take (plain.length - paddingLen)).drop 1))

def frameOf (block : Nat) (payload randomPadding : Bytes) : Bytes :=
  let totalMin := 4 + payload.length + 1 + PADDING_MIN
  let packetLen := (totalMin + block - 1) / block * block - 4
  let paddingLen := packetLen - payload.length - 1
  let plain := UInt8.ofNat paddingLen :: payload
    ++ randomPadding.take (min paddingLen PADDING_RANDOM_BYTES)
  beBytes 4 packetLen ++ (plain ++ List.replicate (packetLen - plain.length) 0)

def sendFrame (frame : Bytes) : Prog Link TransportError Unit := do
  let l ← read
  match l.transport.send with
  | none => push frame
  | some state => do
    let tag := crypto.hmacSha256 state.macKey (beBytes 4 l.transport.seqTx.toNat ++ frame)
    let (ciphertext, cipher) := state.cipher.process crypto (frame.drop 4)
    setTransport fun t => { t with send := t.send.map ({ · with cipher := cipher }) }
    push (frame.take 4 ++ ciphertext ++ tag.toList)

/-- The sequence number advances only when the push succeeds; the cipher has advanced in either
case. -/
def writePacket (payload : Bytes) : Prog Link TransportError Unit := do
  let l ← read
  let block := if l.transport.send.isSome then CIPHER_BLOCK_SIZE_AES else BLOCK_SIZE_UNENCRYPTED
  let randomPadding ← fill crypto PADDING_RANDOM_BYTES
  sendFrame crypto (frameOf block payload randomPadding)
  setTransport fun t => { t with seqTx := t.seqTx + 1 }

end Link

end Nt61.Sshd
