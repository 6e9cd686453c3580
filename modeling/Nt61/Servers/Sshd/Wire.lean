/-
Wire — the wire encoding of `sshd/protocol.rs` (RFC 4251 sections 5-6).

A reader method that fails returns `none`; no caller reads on after a failure. A `&str` is its UTF-8
bytes, already checked.
-/
import Nt61.Lib.Bytes
import Nt61.Lib.Utf8

namespace Nt61.Sshd

open Lib

/-! ## The writer -/

structure WireWriter where
  buf : Bytes
  deriving DecidableEq

namespace WireWriter

def new : WireWriter := ⟨[]⟩

variable (w : WireWriter)

def putBytes (data : Bytes) : WireWriter := ⟨w.buf ++ data⟩

def putU8 (value : UInt8) : WireWriter := w.putBytes [value]

def putBool (value : Bool) : WireWriter := w.putBytes [if value then 1 else 0]

def putU32 (value : UInt32) : WireWriter := w.putBytes (beBytes 4 value.toNat)

/-- Length-prefixed bytes; the length is cast to `u32`. -/
def putString (data : Bytes) : WireWriter := (w.putU32 (UInt32.ofNat data.length)).putBytes data

/-- A text constant, length-prefixed. -/
def putStringStr (value : String) : WireWriter := w.putString (ascii value)

def putNameList (names : List String) : WireWriter :=
  w.putString ((names.map ascii).intersperse (ascii ",")).flatten

/-- Leading zero bytes go (all but one of them when nothing else is there), and one comes back when
the top bit is set. -/
def putMpint (magnitude : Bytes) : WireWriter :=
  let value := stripZeros magnitude
  match value with
  | [] => w.putU32 0
  | b :: _ =>
    if b.toNat ≥ 0x80 then
      ((w.putU32 (UInt32.ofNat (value.length % 2 ^ 32 + 1))).putU8 0).putBytes value
    else (w.putU32 (UInt32.ofNat value.length)).putBytes value
where
  /-- Drop leading zero bytes while at least one byte follows. -/
  stripZeros : Bytes → Bytes
    | 0 :: b :: rest => stripZeros (b :: rest)
    | bytes => bytes

def intoVec : Bytes := w.buf

end WireWriter

/-! ## The reader -/

/-- A byte slice and the read offset in it. -/
structure WireReader where
  data : Bytes
  pos : Nat
  deriving DecidableEq

namespace WireReader

def new (data : Bytes) : WireReader := ⟨data, 0⟩

variable (r : WireReader)

def getU8 : Option (UInt8 × WireReader) := do
  let byte ← r.data[r.pos]?
  return (byte, { r with pos := r.pos + 1 })

def getBool : Option (Bool × WireReader) := do
  let (byte, r) ← r.getU8
  return (byte != 0, r)

def getU32 : Option (UInt32 × WireReader) :=
  if r.pos + 4 > r.data.length then none
  else some (UInt32.ofNat (beValue ((r.data.drop r.pos).take 4)), { r with pos := r.pos + 4 })

def getString : Option (Bytes × WireReader) := do
  let (len, r) ← r.getU32
  if r.pos + len.toNat ≤ r.data.length then
    return ((r.data.drop r.pos).take len.toNat, { r with pos := r.pos + len.toNat })
  else none

/-- A comma-separated list of names; empty names are dropped. -/
def getNameList : Option (List Bytes × WireReader) := do
  let (raw, r) ← r.getString
  let text ← fromUtf8 raw
  return ((splitCommas text).filter (· ≠ []), r)
where
  /-- The pieces between the commas. -/
  splitCommas : Bytes → List Bytes
    | [] => [[]]
    | b :: rest =>
      if b = 0x2C then [] :: splitCommas rest
      else
        match splitCommas rest with
        | [] => [[b]]
        | piece :: pieces => (b :: piece) :: pieces

end WireReader

end Nt61.Sshd
