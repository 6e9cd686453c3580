/-
Hive — `registry/hive.rs`.

Offsets that are stored in a cell count from the end of the header page. `nk` cells are keys, `vk`
cells are values, and `lf`, `lh`, `li` and `ri` cells list the subkeys of a key. The accessors of a
single value are left out. No sum of offsets can overflow; the count of the cells, a `u32`, can.
-/
import Nt61.Lib.Checked
import Nt61.Lib.Fallible
import Nt61.Lib.Fields
import Nt61.Lib.Unicode

namespace Nt61.Registry

open Lib Lib.Fallible

/-! ## Errors -/

inductive HiveError where
  | tooSmall
  | badMagic
  | unsupportedVersion (version : UInt32)
  | badChecksum
  | truncated
  | badCellKind (kind : UInt8)
  | badUtf16
  | outOfBounds
  | invalidPointer
  deriving DecidableEq, Repr

/-! ## Constants and value types -/

def REGF_MAGIC : Bytes := [0x72, 0x65, 0x67, 0x66]
def HBIN_MAGIC : Bytes := [0x68, 0x62, 0x69, 0x6E]
def REGF_HEADER_SIZE : Nat := 0x1000
def HBIN_BASE : Nat := 0x1000
def HBIN_SIZE : Nat := 0x1000
def HBIN_HEADER_SIZE : Nat := 32
def REGF_MAJOR_VERSION : Nat := 1
def MAJOR_VERSION_FIELD : Nat := 0x14
def ROOT_OFFSET_FIELD : Nat := 0x24
def CHECKSUM_OFFSET : Nat := 0x1FC

def ID_NK : Bytes := [0x6E, 0x6B]
def ID_VK : Bytes := [0x76, 0x6B]
def ID_LF : Bytes := [0x6C, 0x66]
def ID_LH : Bytes := [0x6C, 0x68]
def ID_LI : Bytes := [0x6C, 0x69]
def ID_RI : Bytes := [0x72, 0x69]

def NK_FLAGS : Nat := 0x06
def NK_NR_SUBKEYS : Nat := 0x18
def NK_SUBKEY_LF : Nat := 0x20
def NK_NR_VALUES : Nat := 0x28
def NK_VALLIST : Nat := 0x2C
def NK_NAME_LEN : Nat := 0x4C
def NK_NAME : Nat := 0x50
def NK_FLAG_ASCII_NAME : Nat := 0x0020

def VK_NAME_LEN : Nat := 0x06
def VK_DATA_SIZE : Nat := 0x08
def VK_DATA_OFFSET : Nat := 0x0C
def VK_DATA_TYPE : Nat := 0x10
def VK_FLAGS : Nat := 0x14
def VK_NAME : Nat := 0x18
def VK_FLAG_ASCII_NAME : Nat := 0x00000001
def VK_DATA_INLINE_FLAG : Nat := 0x80000000
def VK_INLINE_MAX : Nat := 4
def NO_OFFSET : Nat := 0xFFFFFFFF

inductive ValueType where
  | none
  | string
  | expandString
  | binary
  | dWord
  | dWordBigEndian
  | link
  | multiString
  | resourceList
  | fullResourceDescriptor
  | resourceRequirementsList
  | qWord
  deriving DecidableEq, Repr

namespace ValueType

def fromU32 : Nat → ValueType
  | 0 => .none
  | 1 => .string
  | 2 => .expandString
  | 3 => .binary
  | 4 => .dWord
  | 5 => .dWordBigEndian
  | 6 => .link
  | 7 => .multiString
  | 8 => .resourceList
  | 9 => .fullResourceDescriptor
  | 10 => .resourceRequirementsList
  | 11 => .qWord
  | _ => .none

def toU32 : ValueType → Nat
  | .none => 0
  | .string => 1
  | .expandString => 2
  | .binary => 3
  | .dWord => 4
  | .dWordBigEndian => 5
  | .link => 6
  | .multiString => 7
  | .resourceList => 8
  | .fullResourceDescriptor => 9
  | .resourceRequirementsList => 10
  | .qWord => 11

lemma fromU32_toU32 (t : ValueType) : fromU32 t.toU32 = t := by cases t <;> rfl

lemma toU32_le (t : ValueType) : t.toU32 ≤ 11 := by cases t <;> decide

end ValueType

structure Value where
  name : Text
  valueType : ValueType
  data : Bytes
  deriving DecidableEq

structure KeyNode where
  offset : Nat
  name : Text
  flags : Nat
  deriving DecidableEq

structure Hive where
  data : Bytes
  rootOffset : Nat
  cellCount : Nat

/-! ## Integers and names -/

variable (data : Bytes)

def readU32 (off : Nat) : Option Nat := readLe data off 4

def readU16 (off : Nat) : Option Nat := readLe data off 2

def readI32 (off : Nat) : Option Int :=
  (readLe data off 4).map fun v : Nat => if v < 2 ^ 31 then (v : Int) else v - 2 ^ 32

def offsetField (cellOffset fieldOffset : Nat) : Except HiveError Nat :=
  okOr (readU32 data (cellOffset + fieldOffset)) .truncated

def computeHeaderChecksum : Nat :=
  (List.range (CHECKSUM_OFFSET / 4)).foldl (fun sum i =>
    match readU32 data (4 * i) with
    | some v => sum ^^^ v
    | none => sum) 0

def decodeHiveName : Text :=
  if data.isEmpty then []
  else if data.length % 2 ≠ 0 then fromUtf8Lossy data
  else
    match fromUtf16 (unitsLe data) with
    | some s => s
    | none => fromUtf8Lossy data

def decodeName (ascii : Bool) (data : Bytes) : Text :=
  if ascii then fromUtf8Lossy data else decodeHiveName data

/-! ## The file -/

/-- The cells of one HBIN, from `cellOff` on. -/
def countInHbin (data : Bytes) (hbinEnd cellOff count : Nat) : Fallible HiveError Nat :=
  if _h : cellOff + 4 ≤ hbinEnd ∧ cellOff + 4 ≤ data.length then
    match readI32 data cellOff with
    | none => throw .truncated
    | some segLen =>
      if _hzero : segLen = 0 then pure count
      else do
        -- only cells in use are counted
        let count ← if segLen < 0 then orPanic (Checked.add 32 count 1) else pure count
        countInHbin data hbinEnd (cellOff + segLen.natAbs) count
  else pure count
termination_by data.length - cellOff
decreasing_by omega

/-- The HBINs from `hbinOff` on, up to the first page that is none. -/
def countHbins (data : Bytes) (hbinOff count : Nat) : Fallible HiveError Nat :=
  if _h : hbinOff + HBIN_HEADER_SIZE ≤ data.length then
    if slice data hbinOff 4 ≠ HBIN_MAGIC then pure count
    else
      match readU32 data (hbinOff + 8) with
      | none => throw .truncated
      | some hbinSize =>
        if _hsmall : hbinSize = 0 ∨ hbinSize < HBIN_HEADER_SIZE then pure count
        else do
          let count ← countInHbin data (hbinOff + hbinSize) (hbinOff + HBIN_HEADER_SIZE) count
          countHbins data (hbinOff + hbinSize) count
  else pure count
termination_by data.length - hbinOff
decreasing_by
  unfold HBIN_HEADER_SIZE at *
  omega

def countCells : Fallible HiveError Nat := do
  orError (ensure (HBIN_BASE + HBIN_HEADER_SIZE ≤ data.length) .tooSmall)
  orError (ensure (slice data HBIN_BASE 4 = HBIN_MAGIC) .badMagic)
  countHbins data HBIN_BASE 0

/-- The checks of `parse` on the header; where the root is. -/
def checkHeader (bytes : Bytes) : Except HiveError Nat := do
  ensure (REGF_HEADER_SIZE ≤ bytes.length) .tooSmall
  ensure (slice bytes 0 4 = REGF_MAGIC) .badMagic
  let major ← okOr (readU32 bytes MAJOR_VERSION_FIELD) .tooSmall
  ensure (major = REGF_MAJOR_VERSION) (.unsupportedVersion (UInt32.ofNat major))
  let stored ← okOr (readU32 bytes CHECKSUM_OFFSET) .tooSmall
  ensure (stored = computeHeaderChecksum bytes) .badChecksum
  let rootRel ← okOr (readU32 bytes ROOT_OFFSET_FIELD) .tooSmall
  ensure (HBIN_BASE + rootRel < bytes.length) .outOfBounds
  .ok (HBIN_BASE + rootRel)

namespace Hive

def parse (bytes : Bytes) : Fallible HiveError Hive := do
  let rootOffset ← orError (checkHeader bytes)
  let cellCount ← countCells bytes
  pure ⟨bytes, rootOffset, cellCount⟩

/-! ## Keys -/

variable (hive : Hive)

variable (offset : Nat)

def readNk : Except HiveError KeyNode := do
  ensure (offset + NK_NAME ≤ hive.data.length) .truncated
  let segLen ← okOr (readI32 hive.data offset) .truncated
  ensure (segLen < 0) .truncated
  ensure (slice hive.data (offset + 4) 2 = ID_NK) (.badCellKind 0x6B)
  let flags ← okOr (readU16 hive.data (offset + NK_FLAGS)) .truncated
  let nameLen ← okOr (readU16 hive.data (offset + NK_NAME_LEN)) .truncated
  ensure (offset + NK_NAME + nameLen ≤ hive.data.length) .truncated
  let name := decodeName (flags &&& NK_FLAG_ASCII_NAME ≠ 0)
    (slice hive.data (offset + NK_NAME) nameLen)
  .ok ⟨offset % 2 ^ 32, name, flags⟩

def root : Except HiveError KeyNode := hive.readNk hive.rootOffset

/-- The entries of an index cell from the `i`-th on, `stride` bytes apart. -/
def readEntries (offset stride : Nat) : Nat → Nat → Except HiveError (List Nat)
  | 0, _ => .ok []
  | n + 1, i =>
    let entry := offset + 8 + i * stride
    if entry + 4 > hive.data.length then .ok []
    else do
      let rel ← okOr (readU32 hive.data entry) .truncated
      let rest ← readEntries offset stride n (i + 1)
      .ok ((HBIN_BASE + rel) :: rest)

def readLfLh : Except HiveError (List Nat) := do
  let nr ← okOr (readU16 hive.data (offset + 6)) .truncated
  hive.readEntries offset 8 nr 0

def readLi : Except HiveError (List Nat) := do
  let nr ← okOr (readU16 hive.data (offset + 6)) .truncated
  hive.readEntries offset 4 nr 0

/-- The entries of an `ri` cell; `sub` reads the `ri` cells below it. -/
def readRiEntries (sub : Nat → Fallible HiveError (List Nat)) (offset : Nat) :
    Nat → Nat → Fallible HiveError (List Nat)
  | 0, _ => pure []
  | n + 1, i =>
    let entry := offset + 8 + i * 4
    if entry + 4 > hive.data.length then pure []
    else do
      let rel ← orError (okOr (readU32 hive.data entry) .truncated)
      let subAbs := HBIN_BASE + rel
      let subId := slice hive.data (subAbs + 4) 2
      let subOffsets ←
        if subAbs + 6 > hive.data.length then pure []
        else if subId = ID_LF ∨ subId = ID_LH then orError (hive.readLfLh subAbs)
        else if subId = ID_LI then orError (hive.readLi subAbs)
        else if subId = ID_RI then sub subAbs
        else pure []
      let rest ← readRiEntries sub offset n (i + 1)
      pure (subOffsets ++ rest)

/-- `read_ri`. Calls nested deeper than there are offsets never end. -/
def readRi : Nat → Nat → Fallible HiveError (List Nat)
  | 0, _ => ExceptT.mk none
  | depth + 1, offset => do
    let nr ← orError (okOr (readU16 hive.data (offset + 6)) .truncated)
    hive.readRiEntries (readRi depth) offset nr 0

def readIndex : Fallible HiveError (List Nat) :=
  let id := slice hive.data (offset + 4) 2
  if id = ID_LF ∨ id = ID_LH then orError (hive.readLfLh offset)
  else if id = ID_LI then orError (hive.readLi offset)
  else if id = ID_RI then hive.readRi (hive.data.length + 1) offset
  else throw (.badCellKind (hive.data.getD (offset + 4) 0))

def subkeys (node : KeyNode) : Fallible HiveError (List KeyNode) := do
  let nrSubkeys ← orError (offsetField hive.data node.offset NK_NR_SUBKEYS)
  if nrSubkeys = 0 then pure []
  else do
    let subkeyRel ← orError (okOr (readU32 hive.data (node.offset + NK_SUBKEY_LF)) .truncated)
    if subkeyRel = NO_OFFSET ∨ subkeyRel = 0 then pure []
    else do
      let subkeyAbs := HBIN_BASE + subkeyRel
      orError (ensure (subkeyAbs + 6 ≤ hive.data.length) .outOfBounds)
      let nkOffsets ← hive.readIndex subkeyAbs
      -- keys that cannot be read are left out
      pure (nkOffsets.filterMap fun nkOff => (hive.readNk nkOff).toOption)

/-! ## Values -/

def readData (dataSizeRaw dataOffsetRaw : Nat) : Except HiveError Bytes :=
  let dataLen := dataSizeRaw &&& (2 ^ 32 - 1 - VK_DATA_INLINE_FLAG)
  if dataSizeRaw &&& VK_DATA_INLINE_FLAG ≠ 0 then
    .ok ((leBytes 4 dataOffsetRaw).take (min dataLen VK_INLINE_MAX))
  else do
    let dataAbs := HBIN_BASE + dataOffsetRaw
    ensure (dataAbs + dataLen ≤ hive.data.length) .truncated
    .ok (slice hive.data dataAbs dataLen)

def readVk : Except HiveError Value := do
  ensure (offset + VK_NAME ≤ hive.data.length) .truncated
  let segLen ← okOr (readI32 hive.data offset) .truncated
  ensure (segLen < 0) .truncated
  ensure (slice hive.data (offset + 4) 2 = ID_VK) (.badCellKind 0x76)
  let nameLen ← okOr (readU16 hive.data (offset + VK_NAME_LEN)) .truncated
  let dataSizeRaw ← okOr (readU32 hive.data (offset + VK_DATA_SIZE)) .truncated
  let dataOffsetRaw ← okOr (readU32 hive.data (offset + VK_DATA_OFFSET)) .truncated
  let dataTypeRaw ← okOr (readU32 hive.data (offset + VK_DATA_TYPE)) .truncated
  let flags ← okOr (readU32 hive.data (offset + VK_FLAGS)) .truncated
  ensure (offset + VK_NAME + nameLen ≤ hive.data.length) .truncated
  let name := decodeName (flags &&& VK_FLAG_ASCII_NAME ≠ 0)
    (slice hive.data (offset + VK_NAME) nameLen)
  let data ← hive.readData dataSizeRaw dataOffsetRaw
  .ok ⟨name, .fromU32 dataTypeRaw, data⟩

/-- The values from the `i`-th on; those that cannot be read are left out. -/
def readValues (listStart : Nat) : Nat → Nat → Except HiveError (List Value)
  | 0, _ => .ok []
  | n + 1, i => do
    let vkRel ← okOr (readU32 hive.data (listStart + i * 4)) .truncated
    let rest ← readValues listStart n (i + 1)
    .ok ((hive.readVk (HBIN_BASE + vkRel)).toOption.toList ++ rest)

def values (node : KeyNode) : Except HiveError (List Value) := do
  let nrValues ← okOr (readU32 hive.data (node.offset + NK_NR_VALUES)) .truncated
  let vallistRel ← okOr (readU32 hive.data (node.offset + NK_VALLIST)) .truncated
  if nrValues = 0 ∨ vallistRel = NO_OFFSET ∨ vallistRel = 0 then .ok []
  else do
    let listStart := HBIN_BASE + vallistRel + 4
    ensure (listStart + nrValues * 4 ≤ hive.data.length) .truncated
    hive.readValues listStart nrValues 0

end Hive

end Nt61.Registry
