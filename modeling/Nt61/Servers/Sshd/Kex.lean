/-
Kex — algorithm negotiation, the curve25519-sha256 reply and the key derivation of `sshd/kex.rs`
(RFC 4253 sections 7-8, RFC 8731), over the arbitrary primitives of `Crypto`.
-/
import Nt61.Servers.Sshd.Protocol

namespace Nt61.Sshd

open Lib Nt61.Crypto WireWriter

/-! ## Negotiation -/

structure Negotiated where
  hostKeyAlgorithm : Bytes
  deriving DecidableEq

def negotiateOne (clientList : List Bytes) (serverSupported : List String) : Option Bytes :=
  clientList.find? fun name => (serverSupported.map ascii).contains name

def negotiate (clientKexinit : Bytes) : Option Negotiated := do
  let (_, r) ← (WireReader.new clientKexinit).getU8
  let (_, r) ← r.getString
  let (clientKex, r) ← r.getNameList
  let (clientHostKeys, _) ← r.getNameList
  let _ ← negotiateOne clientKex [ALG_KEX_CURVE25519_SHA256]
  let algorithm ← negotiateOne clientHostKeys [ALG_HOSTKEY_RSA_SHA2_256, ALG_HOSTKEY_SSH_RSA]
  return ⟨algorithm⟩

def serverKexinit (cookie : Bytes) : Bytes :=
  let w := (new.putU8 Msg.KEXINIT).putString cookie
  let w := w.putNameList [ALG_KEX_CURVE25519_SHA256]
  let w := w.putNameList [ALG_HOSTKEY_RSA_SHA2_256, ALG_HOSTKEY_SSH_RSA]
  let w := (w.putNameList [ALG_CIPHER_AES256_CTR]).putNameList [ALG_CIPHER_AES256_CTR]
  let w := (w.putNameList [ALG_MAC_HMAC_SHA2_256]).putNameList [ALG_MAC_HMAC_SHA2_256]
  let w := (w.putNameList [ALG_COMPRESSION_NONE]).putNameList [ALG_COMPRESSION_NONE]
  let w := (w.putNameList []).putNameList []
  ((w.putBool false).putU32 0).intoVec

variable (crypto : Crypto)

/-- The advertised KEXINIT, with a cookie drawn from the generator. -/
def buildServerKexinit : Prog Link TransportError Bytes := do
  let cookie ← Link.fill crypto 16
  return serverKexinit cookie

/-! ## Host keys -/

def rsaPublicKeyBlob (key : RsaPublicKey) : Bytes :=
  let w := new.putStringStr ALG_HOSTKEY_SSH_RSA
  ((w.putMpint key.e.toBytes).putMpint key.n.toBytes).intoVec

def stripLeadingZero : Bytes → Bytes
  | 0 :: rest => rest
  | bytes => bytes

def parseRsaPublicKeyBlob (blob : Bytes) : Option RsaPublicKey := do
  let (algorithm, r) ← (WireReader.new blob).getString
  if algorithm ≠ ascii ALG_HOSTKEY_SSH_RSA then none
  else do
    let (e, r) ← r.getString
    let (n, _) ← r.getString
    return { e := BigUint.fromBytes (stripLeadingZero e),
             n := BigUint.fromBytes (stripLeadingZero n) }

def signExchangeHash (hostKey : RsaPrivateKey) (algorithm exchangeHash : Bytes) : Option Bytes :=
  if algorithm = ascii ALG_HOSTKEY_RSA_SHA2_256 then do
    let signature ← crypto.signPkcs1v15 hostKey exchangeHash
    return ((new.putStringStr ALG_HOSTKEY_RSA_SHA2_256).putString signature).intoVec
  else if algorithm = ascii ALG_HOSTKEY_SSH_RSA then do
    let signature ← crypto.signPkcs1v15 hostKey (crypto.sha1 exchangeHash).toList
    return ((new.putStringStr ALG_HOSTKEY_SSH_RSA).putString signature).intoVec
  else none

/-! ## The exchange and the keys -/

structure KexReply where
  payload : Bytes
  sharedSecret : Vector UInt8 32
  exchangeHash : Vector UInt8 32

/-- The base point `u = 9`. -/
def x25519Public (secret : Vector UInt8 32) : Vector UInt8 32 :=
  crypto.x25519 secret ((Vector.replicate 32 0).setIfInBounds 0 9)

/-- The server side of curve25519-sha256; an all-zero shared secret is refused. -/
def kexEcdhReply (ephemeralSecret clientPublic : Vector UInt8 32)
    (clientVersion serverVersion clientKexinit serverKexinit : Bytes) (hostKey : RsaPrivateKey)
    (hostKeyAlgorithm : Bytes) : Option KexReply :=
  let shared := crypto.x25519 ephemeralSecret clientPublic
  if shared.toList.all (· == 0) then none
  else do
    let serverPublic := x25519Public crypto ephemeralSecret
    let hostKeyBlob := rsaPublicKeyBlob hostKey.publicKey
    let w := (new.putString clientVersion).putString serverVersion
    let w := (w.putString clientKexinit).putString serverKexinit
    let w := ((w.putString hostKeyBlob).putString clientPublic.toList).putString serverPublic.toList
    let exchangeHash := crypto.sha256 (w.putMpint shared.toList).intoVec
    let signature ← signExchangeHash crypto hostKey hostKeyAlgorithm exchangeHash.toList
    let reply := (new.putU8 Msg.KEX_ECDH_REPLY).putString hostKeyBlob
    return { payload := ((reply.putString serverPublic.toList).putString signature).intoVec,
             sharedSecret := shared, exchangeHash := exchangeHash }

/-- Append the hash of what precedes; every round appends 32 bytes, so `len` rounds are more than
enough. -/
def deriveLoop (crypto : Crypto) (seed : Bytes) (len : Nat) : Nat → Bytes → Bytes → Bytes
  | 0, _, output => output
  | rounds + 1, block, output =>
    if output.length < len then
      let block := (crypto.sha256 (seed ++ block)).toList
      deriveLoop crypto seed len rounds block (output ++ block)
    else output

/-- RFC 4253 section 7.2: `K || H || letter || session_id`, extended to `len` bytes. -/
def deriveBytes (sharedSecret exchangeHash : Vector UInt8 32) (purpose : UInt8)
    (len : Nat) : Bytes :=
  let seed := (new.putMpint sharedSecret.toList).intoVec ++ exchangeHash.toList
  let block := (crypto.sha256 (seed ++ [purpose] ++ exchangeHash.toList)).toList
  (deriveLoop crypto seed len len block (block.take len)).take len

structure DerivedKeys where
  clientToServerIv : Vector UInt8 16
  serverToClientIv : Vector UInt8 16
  clientToServerKey : Vector UInt8 32
  serverToClientKey : Vector UInt8 32
  clientToServerMac : Vector UInt8 32
  serverToClientMac : Vector UInt8 32
  deriving DecidableEq

def deriveKeys (sharedSecret exchangeHash : Vector UInt8 32) : DerivedKeys :=
  let derive (purpose : UInt8) (len : Nat) : Vector UInt8 len :=
    toArray len (deriveBytes crypto sharedSecret exchangeHash purpose len)
  { clientToServerIv := derive 0x41 16
    serverToClientIv := derive 0x42 16
    clientToServerKey := derive 0x43 32
    serverToClientKey := derive 0x44 32
    clientToServerMac := derive 0x45 32
    serverToClientMac := derive 0x46 32 }

end Nt61.Sshd
