/-
Rsa — encryption and signatures of `crypto/rsa.rs`.

PKCS#1 v1.5 padding for encryption and for signatures, PSS with MGF1 over SHA-256, and the RSA
operations around them. SHA-256 is an arbitrary function; what the generator returns is an argument:
a stream of bytes for the padding, the salt for PSS.
-/
import Nt61.Crypto.BigUint
import Nt61.Lib.Checked

namespace Nt61.Crypto

open Lib Checked

structure RsaPublicKey where
  n : BigUint
  e : BigUint
  deriving DecidableEq

structure RsaPrivateKey where
  n : BigUint
  e : BigUint
  d : BigUint
  p : BigUint
  q : BigUint
  dp : BigUint
  dq : BigUint
  qi : BigUint
  deriving DecidableEq

variable (key : RsaPrivateKey)

def RsaPrivateKey.publicKey : RsaPublicKey := ⟨key.n, key.e⟩

/-! ## Encryption -/

/-- Draw `n` bytes, each one again until it is not zero; `none` if the stream ends before. -/
def drawNonZero : Nat → Bytes → Option Bytes
  | 0, _ => some []
  | _ + 1, [] => none
  | n + 1, byte :: random =>
    if byte = 0 then drawNonZero (n + 1) random
    else (drawNonZero n random).map (byte :: ·)

/-- `00 02 padding 00 data`, or nothing at all if the data is too long for the key. -/
def pkcs1v15EncryptPad (data : Bytes) (keyLen : Nat) (random : Bytes) : Option Bytes :=
  match (sub keyLen data.length).bind (sub · 3) with
  | none => some []
  | some paddingLen => do
    let padding ← drawNonZero paddingLen random
    return [0x00, 0x02] ++ padding ++ [0x00] ++ data

/-- What follows the first zero byte after a leading `02`. -/
def pkcs1v15Unpad (recovered : Bytes) : Bytes :=
  if recovered.length < 2 ∨ recovered.headD 0 ≠ 0x02 then []
  else
    match (recovered.drop 1).findIdx? (· == 0x00) with
    | some index => recovered.drop (2 + index)
    | none => []

def RsaPublicKey.encrypt (key : RsaPublicKey) (plaintext random : Bytes) : Option Bytes := do
  let padded ← pkcs1v15EncryptPad plaintext key.n.byteLen random
  let m := BigUint.fromBytes padded
  let c := m.modExp key.e key.n
  return c.toBytes

/-- The two halves of the Chinese remainder form put together. `m1 - m2` may be negative, and then
its negative is reduced and taken from `p`. -/
def RsaPrivateKey.recombine (m1 m2 : BigUint) : BigUint :=
  let h :=
    if m1.cmp m2 ≥ 0 then (key.qi.mul (m1.sub m2)).modOp key.p
    else
      let diff := key.p.sub ((m2.sub m1).modOp key.p)
      (key.qi.mul diff).modOp key.p
  m2.add (h.mul key.q)

def RsaPrivateKey.decrypt (ciphertext : Bytes) : Bytes :=
  let c := BigUint.fromBytes ciphertext
  let m1 := c.modExp key.dp key.p
  let m2 := c.modExp key.dq key.q
  let m := key.recombine m1 m2
  pkcs1v15Unpad m.toBytes

/-! ## PKCS#1 v1.5 signatures. -/

/-- The ASN.1 `DigestInfo` of the hash that has digests of this length. -/
def digestInfoPrefix (digest : Bytes) : Bytes :=
  match digest.length with
  | 20 => [0x30, 0x21, 0x30, 0x09, 0x06, 0x05, 0x2b, 0x0e, 0x03, 0x02, 0x1a, 0x05, 0x00, 0x04, 0x14]
  | 32 => [0x30, 0x31, 0x30, 0x0d, 0x06, 0x09, 0x60, 0x86, 0x48, 0x01, 0x65, 0x03, 0x04, 0x02, 0x01,
      0x05, 0x00, 0x04, 0x20]
  | 48 => [0x30, 0x41, 0x30, 0x0d, 0x06, 0x09, 0x60, 0x86, 0x48, 0x01, 0x65, 0x03, 0x04, 0x02, 0x02,
      0x05, 0x00, 0x04, 0x30]
  | 64 => [0x30, 0x51, 0x30, 0x0d, 0x06, 0x09, 0x60, 0x86, 0x48, 0x01, 0x65, 0x03, 0x04, 0x02, 0x03,
      0x05, 0x00, 0x04, 0x40]
  | _ => []

/-- `00 01 ff .. ff 00 DigestInfo digest`, as long as the key. -/
def pkcs1v15SignPad (digest : Bytes) (keyLen : Nat) : Except String Bytes :=
  let digestInfo := digestInfoPrefix digest
  if digestInfo.isEmpty then .error "unsupported digest length"
  else
    match ((sub keyLen digestInfo.length).bind (sub · digest.length)).bind
        (sub · 3) with
    | none => .error "RSA modulus is too small for digest"
    | some paddingLen =>
      .ok ([0x00, 0x01] ++ List.replicate paddingLen 0xff ++ [0x00] ++ digestInfo ++ digest)

/-- Exactly `len` bytes, with zeros in front, if the number has no more. -/
def toBytesPadded (value : BigUint) (len : Nat) : Bytes :=
  let raw := value.toBytes
  List.replicate (len - raw.length) 0 ++ raw

def pkcs1v15VerifyPad (recovered digest : Bytes) (_keyLen : Nat) : Bool :=
  if recovered.length < digest.length + 10 then false
  else if recovered.headD 0 ≠ 0x01 then false
  else
    let i := 1 + ((recovered.drop 1).takeWhile (· == 0xff)).length
    if recovered[i]? ≠ some 0x00 then false
    else
      let digestInfo := digestInfoPrefix digest
      let rest := recovered.drop (i + 1)
      digestInfo.isPrefixOf rest && rest.drop digestInfo.length == digest

def RsaPrivateKey.signPkcs1v15 (digest : Bytes) : Except String Bytes := do
  let padded ← pkcs1v15SignPad digest key.n.byteLen
  let m := BigUint.fromBytes padded
  let s := m.modExp key.d key.n
  return toBytesPadded s key.n.byteLen

def RsaPublicKey.verifyPkcs1v15 (key : RsaPublicKey) (digest signature : Bytes) : Bool :=
  let s := BigUint.fromBytes signature
  let m := s.modExp key.e key.n
  pkcs1v15VerifyPad m.toBytes digest key.n.byteLen

/-! ## PSS signatures -/

section

variable (sha256 : Bytes → Vector UInt8 32)

def mgf1Loop (seed : Bytes) : Nat → UInt32 → Bytes → Bytes
  | 0, _, mask => mask
  | chunks + 1, counter, mask =>
    let hash := sha256 (seed ++ beBytes 4 counter.toNat)
    List.zipWith (· ^^^ ·) (mask.take 32) hash.toList
      ++ mgf1Loop seed chunks (counter + 1) (mask.drop 32)

def mgf1Sha256 (seed mask : Bytes) : Bytes := mgf1Loop sha256 seed ((mask.length + 31) / 32) 0 mask

def paddingMask (paddingBits : Nat) : UInt8 :=
  let shift := paddingBits % 2 ^ 32
  if shift < 8 then 0xff >>> UInt8.ofNat shift else 0

def pssHash (digest salt : Bytes) : Bytes := (sha256 (List.replicate 8 0 ++ digest ++ salt)).toList

def pssEncode (digest : Bytes) (keyLen modulusBits saltLen : Nat) (salt : Vector UInt8 saltLen) :
    Except String Bytes :=
  if digest.length ≠ 32 then .error "PSS requires SHA-256"
  else
    match (sub keyLen 32).bind (sub · 1) with
    | none => .error "RSA modulus is too small for PSS"
    | some dbLen =>
      if saltLen + digest.length + 2 > keyLen then .error "RSA modulus is too small for PSS salt"
      else
        let h := pssHash sha256 digest salt.toList
        let db := (List.replicate dbLen 0).set (dbLen - saltLen - 1) 0x01
        let db := db.take (dbLen - saltLen) ++ salt.toList
        let em := mgf1Sha256 sha256 h db ++ h ++ [0xbc]
        match sub modulusBits 1 with
        | none => .error "RSA modulus is too small"
        | some emBits =>
          let paddingBits := keyLen * 8 - emBits
          if paddingBits ≥ 8 then .error "RSA modulus is too small for PSS"
          else .ok (em.modify 0 (· &&& paddingMask paddingBits))

def pssVerify (recovered digest : Bytes) (keyLen modulusBits saltLen : Nat) : Bool :=
  if digest.length ≠ 32 ∨ saltLen + digest.length + 2 > keyLen then false
  else if recovered.length > keyLen then false
  else
    let em := List.replicate (keyLen - recovered.length) 0 ++ recovered
    let emBits := modulusBits - 1
    let paddingBits := keyLen * 8 - emBits
    let mask := paddingMask paddingBits
    if em.headD 0 &&& ~~~mask ≠ 0 ∨ em[keyLen - 1]? ≠ some 0xbc then false
    else
      let dbLen := keyLen - 32 - 1
      let h := (em.take (keyLen - 1)).drop dbLen
      let db := (mgf1Sha256 sha256 h (em.take dbLen)).modify 0 (· &&& mask)
      if db.length < saltLen + 1 then false
      else if db[dbLen - saltLen - 1]? ≠ some 0x01 then false
      else if (db.take (dbLen - saltLen - 1)).any (· != 0) then false
      else
        let salt := db.drop (dbLen - saltLen)
        h == pssHash sha256 digest salt

def RsaPrivateKey.signPss (key : RsaPrivateKey) (digest : Bytes) (saltLen : Nat)
    (salt : Vector UInt8 saltLen) : Except String Bytes := do
  let padded ← pssEncode sha256 digest key.n.byteLen key.n.bitLen saltLen salt
  let m := BigUint.fromBytes padded
  let s := m.modExp key.d key.n
  return toBytesPadded s key.n.byteLen

def RsaPublicKey.verifyPss (key : RsaPublicKey) (digest signature : Bytes) (saltLen : Nat) : Bool :=
  if signature.length ≠ key.n.byteLen then false
  else
    let s := BigUint.fromBytes signature
    let m := s.modExp key.e key.n
    pssVerify sha256 m.toBytes digest key.n.byteLen key.n.bitLen saltLen

end

end Nt61.Crypto
