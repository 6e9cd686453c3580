/-
Model — `registry/hive_writer.rs`.

A key's `nk` cell comes first, then its values, the list of the values, its subkeys and the list of
the subkeys; only then are the offsets in the `nk` cell known. Offsets in the file are `u32`: the
casts cut them off, and sums and differences of them stop the program if they overflow.
-/
import Nt61.Registry.Hive

namespace Nt61.Registry

open Lib Lib.Fallible Lib.Checked List

/-! ## The writer -/

def LH_ENTRY_SIZE : Nat := 8
def NK_PARENT : Nat := 0x14

abbrev HiveValue := Value

inductive HiveKey where
  | mk (name : Text) (flags : Nat) (subkeys : List HiveKey) (values : List HiveValue)

def HiveKey.name : HiveKey → Text
  | ⟨name, _, _, _⟩ => name

structure HiveWriter where
  body : Bytes
  hbinHeaders : List Nat

/-- The result of a method of the writer; its errors are texts. -/
abbrev Writing (α : Type) := Fallible String α

/-! ## Appending cells -/

/-- `resize` of a vector of bytes, with zeros. -/
def resize (body : Bytes) (len : Nat) : Bytes := body.take len ++ replicate (len - body.length) 0

def negLe (n : Nat) : Option Bytes :=
  if n % 2 ^ 32 = 2 ^ 31 then none else some (leBytes 4 (2 ^ 32 - n % 2 ^ 32))

/-- `align_up`, for an alignment that is a power of two. -/
def alignTo (offset alignment : Nat) : Nat := (offset + alignment - 1) / alignment * alignment

namespace HiveWriter

variable (w : HiveWriter)

def ensureRoom (totalAligned : Nat) : Writing HiveWriter :=
  if totalAligned > HBIN_SIZE - HBIN_HEADER_SIZE then throw "cell too large for one HBIN"
  else
    let (curHeader, w) : Nat × HiveWriter :=
      match w.hbinHeaders.getLast? with
      | some pos => (pos, w)
      | none => (0, ⟨w.body ++ replicate HBIN_HEADER_SIZE 0, w.hbinHeaders ++ [0]⟩)
    let hbinEnd := curHeader + HBIN_SIZE
    if w.body.length + totalAligned > hbinEnd then
      let body := resize w.body hbinEnd
      pure ⟨body ++ replicate HBIN_HEADER_SIZE 0, w.hbinHeaders ++ [body.length]⟩
    else pure w

/-- A cell with the contents, once there is room for it: its offset in the file. -/
def append (totalSize : Nat) (contents : Bytes) : Writing (Nat × HiveWriter) := do
  let w ← w.ensureRoom totalSize
  let fileOff := (HBIN_BASE + w.body.length) % 2 ^ 32
  let segLen ← orPanic (negLe totalSize)
  pure (fileOff, { w with body := w.body ++ (segLen ++ contents) })

def appendCell (id payload : Bytes) : Writing (Nat × HiveWriter) :=
  let total := 8 + payload.length
  let totalAligned := alignTo total 8
  let pad := totalAligned - total
  w.append totalAligned (id ++ [0, 0] ++ payload ++ replicate pad 0)

def appendRawCell (totalSize : Nat) : Writing (Nat × HiveWriter) :=
  w.append totalSize (replicate (totalSize - 4) 0)

end HiveWriter

def toHbinRel (abs : Nat) : Option Nat := if abs = 0 then some 0 else sub abs HBIN_BASE

/-! ## Names -/

def encodeName (s : Text) : Bytes × Bool :=
  if s.all fun c => decide (c.toNat < 0x80) then (asciiBytes s, true) else (utf16Le (utf16 s), false)

def toAsciiLowercase (c : Nat) : Nat := if 0x41 ≤ c ∧ c ≤ 0x5A then c + 0x20 else c

def entryHash (name : Text) : Nat :=
  ((name.take 4).zipIdx).foldl (fun hash (c, i) =>
    hash ||| (toAsciiLowercase c.toNat <<< (8 * i)) % 2 ^ 32) 0

/-! ## Values -/

namespace HiveWriter

variable (w : HiveWriter)

/-- The data of a value: the fields `data_size` and `data_offset` for it. -/
def writeData (data : Bytes) : Writing ((Nat × Nat) × HiveWriter) :=
  if data.length ≤ VK_INLINE_MAX then
    let le := data ++ replicate (VK_INLINE_MAX - data.length) 0
    pure ((VK_DATA_INLINE_FLAG ||| data.length, leValue le), w)
  else do
    let (dsOff, w) ← w.appendRawCell (alignTo (4 + data.length) 8)
    let dsBody ← orPanic (add 32 dsOff 4)
    let start ← orPanic (sub dsBody HBIN_BASE)
    let body ← orPanic (patch w.body start data)
    let rel ← orPanic (toHbinRel dsBody)
    pure ((data.length % 2 ^ 32, rel), { w with body })

def writeValue (v : HiveValue) : Writing (Nat × HiveWriter) := do
  let nameBytes := (encodeName v.name).1
  let vkCellSize := alignTo (VK_NAME + nameBytes.length) 8
  let (vkOff, w) ← w.appendCell ID_VK (replicate (vkCellSize - 8) 0)
  let ((dataSize, dataOffset), w) ← w.writeData v.data
  let vkBody ← orPanic (sub vkOff HBIN_BASE)
  let vkFlags := if (encodeName v.name).2 then VK_FLAG_ASCII_NAME else 0
  let body ← orPanic (patchFields w.body vkBody
    [(VK_NAME_LEN, leBytes 2 nameBytes.length), (VK_DATA_SIZE, leBytes 4 dataSize),
      (VK_DATA_OFFSET, leBytes 4 dataOffset), (VK_DATA_TYPE, leBytes 4 v.valueType.toU32),
      (VK_FLAGS, leBytes 4 vkFlags), (VK_NAME, nameBytes)])
  pure (vkOff, { w with body })

def writeValues (w : HiveWriter) : List HiveValue → Writing (List Nat × HiveWriter)
  | [] => pure ([], w)
  | v :: vs => do
    let (vkOff, w) ← w.writeValue v
    let (vkOffsets, w) ← writeValues w vs
    pure (vkOff :: vkOffsets, w)

def fillVallist (vlOff : Nat) (body : Bytes) (entry : Nat × Nat) : Option Bytes := do
  let (vkAbs, i) := entry
  let start ← add 32 vlOff 4
  let step ← mul 32 (i % 2 ^ 32) 4
  let entry ← add 32 start step
  let rel ← toHbinRel vkAbs
  let pos ← sub entry HBIN_BASE
  patch body pos (leBytes 4 rel)

def writeVallist (vkOffsets : List Nat) : Writing (Nat × HiveWriter) :=
  if vkOffsets.isEmpty then pure (0, w)
  else do
    let (vlOff, w) ← w.appendRawCell (alignTo (4 + vkOffsets.length * 4) 8)
    let body ← orPanic (vkOffsets.zipIdx.foldlM (fillVallist vlOff) w.body)
    pure (vlOff, { w with body })

/-! ## Keys -/

def fillLh (lhBodyStart : Nat) (body : Bytes) (entry : (Nat × Text) × Nat) : Option Bytes := do
  let ((childAbs, childName), i) := entry
  let rel ← toHbinRel childAbs
  let pos ← sub (lhBodyStart + i * LH_ENTRY_SIZE) HBIN_BASE
  let body ← patch body pos (leBytes 4 rel)
  patch body (pos + 4) (leBytes 4 (entryHash childName))

def writeLh (children : List (Nat × Text)) : Writing (Nat × HiveWriter) :=
  if children.isEmpty then pure (0, w)
  else do
    let lhSize := alignTo (8 + children.length * LH_ENTRY_SIZE) 8
    let (lhOff, w) ← w.appendCell ID_LH (replicate (lhSize - 8) 0)
    let nrPos ← orPanic (add 32 lhOff 6)
    let pos ← orPanic (sub nrPos HBIN_BASE)
    let body ← orPanic (patch w.body pos (leBytes 2 children.length))
    let lhBodyStart ← orPanic (add 32 lhOff 8)
    let body ← orPanic (children.zipIdx.foldlM (fillLh lhBodyStart) body)
    pure (lhOff, { w with body })

/-- An offset in an `nk` cell; all ones if there is no list. -/
def listRel (off : Nat) : Option Nat := if off ≠ 0 then toHbinRel off else some 0xFFFFFFFF

def patchNkCell (nkOff : Nat) (name : Text)
    (parentOff nrSubkeys subkOff nrValues vallistOff : Nat) : Option HiveWriter := do
  let nkBody ← sub nkOff HBIN_BASE
  let nameBytes := (encodeName name).1
  let nkFlags := if (encodeName name).2 then NK_FLAG_ASCII_NAME else 0
  let parentRel ← toHbinRel parentOff
  let subkRel ← listRel subkOff
  let vallistRel ← listRel vallistOff
  let body ← patchFields w.body nkBody
    [(NK_FLAGS, leBytes 2 nkFlags), (NK_PARENT, leBytes 4 parentRel),
      (NK_NR_SUBKEYS, leBytes 4 nrSubkeys), (NK_SUBKEY_LF, leBytes 4 subkRel),
      (NK_NR_VALUES, leBytes 4 nrValues), (NK_VALLIST, leBytes 4 vallistRel),
      (NK_NAME_LEN, leBytes 2 nameBytes.length), (NK_NAME, nameBytes)]
  some { w with body }

mutual

def writeKey (w : HiveWriter) (parentOff : Nat) : HiveKey → Writing (Nat × HiveWriter)
  | ⟨name, _, subkeys, values⟩ => do
    let nkCellSize := alignTo (NK_NAME + (encodeName name).1.length) 8
    -- the fields are filled in when everything below the key is written
    let (nkOff, w) ← w.appendCell ID_NK (replicate (nkCellSize - 8) 0)
    let (vkOffsets, w) ← w.writeValues values
    let (vallistOff, w) ← w.writeVallist vkOffsets
    let (childOffsets, w) ← writeKeys w nkOff subkeys
    let (subkOff, w) ← w.writeLh (childOffsets.zip (subkeys.map HiveKey.name))
    let w ← orPanic (w.patchNkCell nkOff name parentOff subkeys.length subkOff vkOffsets.length
      vallistOff)
    pure (nkOff, w)

def writeKeys (w : HiveWriter) (parentOff : Nat) : List HiveKey → Writing (List Nat × HiveWriter)
  | [] => pure ([], w)
  | key :: keys => do
    let (childOff, w) ← writeKey w parentOff key
    let (childOffsets, w) ← writeKeys w parentOff keys
    pure (childOff :: childOffsets, w)

end

/-! ## The file -/

def stampHbin (body : Bytes) (pos : Nat) : Option Bytes :=
  patchFields body pos [(0, HBIN_MAGIC), (4, leBytes 4 (HBIN_BASE + pos)), (8, leBytes 4 HBIN_SIZE)]

/-- The same loop as in the parser. -/
def computeChecksum (header : Bytes) : Nat := computeHeaderChecksum header

def regfHeader (timestamp rootAbs dataLen : Nat) : Option Bytes := do
  let rootRel ← toHbinRel rootAbs
  let header ← patchFields (replicate REGF_HEADER_SIZE 0) 0
    [(0, REGF_MAGIC), (0x04, leBytes 4 1), (0x08, leBytes 4 1), (0x0C, leBytes 8 timestamp),
      (0x14, leBytes 4 REGF_MAJOR_VERSION), (0x18, leBytes 4 5), (0x20, leBytes 4 1),
      (0x24, leBytes 4 rootRel), (0x28, leBytes 4 (REGF_HEADER_SIZE + dataLen)), (0x2C, leBytes 4 1)]
  patch header CHECKSUM_OFFSET (leBytes 4 (computeChecksum header))

/-- The state in which `serialise` starts to write. -/
def cleared : HiveWriter := ⟨replicate HBIN_HEADER_SIZE 0, [0]⟩

def serialise (root : HiveKey) (timestamp : Nat) : Writing Bytes := do
  let (rootAbs, w) ← cleared.writeKey 0 root
  let dataLen := w.hbinHeaders.length * HBIN_SIZE
  let body ← orPanic (w.hbinHeaders.foldlM stampHbin (resize w.body dataLen))
  let header ← orPanic (regfHeader timestamp rootAbs dataLen)
  pure (header ++ body)

end HiveWriter

end Nt61.Registry
