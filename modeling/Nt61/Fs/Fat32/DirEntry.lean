/-
DirEntry — the 32-byte directory entries of `fs/fat32/mod.rs`, and the names in them.

A long-name entry written by this driver keeps its sequence number in the size field and starts with
a ZERO byte (`lfnEntry`): to every reader of a directory it looks like the end of the directory.
-/
import Nt61.Lib.Store
import Nt61.Lib.Utf8

namespace Nt61.Fat32

open Lib Store List

/-! ## Entries -/

structure ShortName where
  bytes : Bytes
  length_eq : bytes.length = 11
  deriving DecidableEq

def ShortName.first (name : ShortName) : UInt8 := name.bytes.headD 0

structure FatDirectoryEntry where
  name : ShortName
  attributes : UInt8
  reserved : UInt8
  creationTimeTenth : UInt8
  creationTime : UInt16
  creationDate : UInt16
  lastAccessDate : UInt16
  firstClusterHigh : UInt16
  modificationTime : UInt16
  modificationDate : UInt16
  firstClusterLow : UInt16
  fileSize : UInt32
  deriving DecidableEq

namespace FatDirectoryEntry

variable (e : FatDirectoryEntry)

def isValid : Bool := e.name.first != 0x00 && e.name.first != 0xE5
def isDirectory : Bool := e.attributes &&& 0x10 != 0
def isLongName : Bool := e.attributes == 0x0F
def isVolumeId : Bool := e.attributes &&& 0x08 != 0

def firstCluster : Nat := e.firstClusterHigh.toNat * 2 ^ 16 + e.firstClusterLow.toNat

def ofStore (m : Store) : FatDirectoryEntry where
  name := ⟨m.slice 0 11, slice_length m 0 11⟩
  attributes := m 11
  reserved := m 12
  creationTimeTenth := m 13
  creationTime := UInt16.ofNat (m.readLe 14 2)
  creationDate := UInt16.ofNat (m.readLe 16 2)
  lastAccessDate := UInt16.ofNat (m.readLe 18 2)
  firstClusterHigh := UInt16.ofNat (m.readLe 20 2)
  modificationTime := UInt16.ofNat (m.readLe 22 2)
  modificationDate := UInt16.ofNat (m.readLe 24 2)
  firstClusterLow := UInt16.ofNat (m.readLe 26 2)
  fileSize := UInt32.ofNat (m.readLe 28 4)

def fieldBytes : Bytes :=
  [e.attributes, e.reserved, e.creationTimeTenth] ++
    (leBytes 2 e.creationTime.toNat ++ (leBytes 2 e.creationDate.toNat ++
    (leBytes 2 e.lastAccessDate.toNat ++ (leBytes 2 e.firstClusterHigh.toNat ++
    (leBytes 2 e.modificationTime.toNat ++ (leBytes 2 e.modificationDate.toNat ++
    (leBytes 2 e.firstClusterLow.toNat ++ (leBytes 4 e.fileSize.toNat ++ []))))))))

def toBytes : Bytes := e.name.bytes ++ e.fieldBytes

end FatDirectoryEntry

/-! ## Names -/

def rposition (byte : UInt8) (bytes : Bytes) : Option Nat :=
  (bytes.reverse.idxOf? byte).map fun i => bytes.length - 1 - i

def toAsciiUppercase (b : UInt8) : UInt8 := if 0x61 ≤ b ∧ b ≤ 0x7A then b - 0x20 else b

def padTo (n : Nat) (bytes : Bytes) : Bytes := bytes ++ replicate (n - bytes.length) 0x20

lemma padTo_length {n : Nat} {bytes : Bytes} (h : bytes.length ≤ n) : (padTo n bytes).length = n := by
  simp [padTo]
  omega

def shortNameOf (name : Bytes) (h : name.length ≤ 11) : ShortName := ⟨padTo 11 name, padTo_length h⟩

/-- The digits of `short_name_for_long`: the lowest digit of `value` goes to the leftmost place. -/
def writeDigits : Nat → Nat → Bytes → Bytes
  | 0, _, name => name
  | position + 1, value, name =>
    writeDigits position (value / 10) (name.set (8 - position) (UInt8.ofNat (0x30 + value % 10)))

lemma writeDigits_length (n value : Nat) (name : Bytes) :
    (writeDigits n value name).length = name.length := by
  induction n generalizing value name with
  | zero => rfl
  | succ n ih => rw [writeDigits, ih, length_set]

def shortBase (longName : Bytes) : Bytes :=
  let dot := rposition 0x2E longName
  let stemEnd := dot.getD longName.length
  let stem := longName.take (min stemEnd 8)
  let extension := (dot.elim [] fun dot => longName.drop (dot + 1)).take 3
  padTo 8 stem ++ padTo 3 extension

lemma shortBase_length (longName : Bytes) : (shortBase longName).length = 11 := by
  unfold shortBase
  rw [length_append, padTo_length, padTo_length]
  · exact length_take_le 3 _
  · exact Nat.le_trans (length_take_le _ _) (Nat.min_le_right _ _)

def digitCount (index : Nat) : Nat := if index ≥ 100 then 3 else if index ≥ 10 then 2 else 1

/-- The 8.3 name of a long name, made different by `index`. -/
def shortNameForLong (longName : Bytes) (index : Nat) : ShortName where
  bytes :=
    let name := (shortBase longName).map toAsciiUppercase
    if index > 0 then
      writeDigits (digitCount index) index (name.set (8 - digitCount index) 0x7E)
    else name
  length_eq := by
    dsimp only
    split_ifs
    · rw [writeDigits_length, length_set, length_map, shortBase_length]
    · rw [length_map, shortBase_length]

def calcLongNameChecksum (shortName : ShortName) : UInt8 :=
  shortName.bytes.foldl (fun sum byte => (sum >>> 1 ||| sum <<< 7) + byte) 0

/-- The UTF-16 form of a long name; bytes that are not UTF-8 count as the empty text. -/
def lfnNameUtf16 (longName : Bytes) : List UInt16 :=
  ((decodeUtf8 longName).elim [] encodeUtf16).map UInt16.ofNat

/-- The long-name entry with the 13 units from `start` on, of which eight are kept. -/
def lfnEntry (sequence checksum : UInt8) (utf16Name : List UInt16) (start : Nat) :
    FatDirectoryEntry :=
  let slot (index : Nat) : UInt16 :=
    let position := start + index
    if position < utf16Name.length then utf16Name.getD position 0
    else if position = utf16Name.length then 0 else 0xFFFF
  { name := ⟨replicate 11 0, rfl⟩
    attributes := 0x0F
    reserved := 0
    creationTimeTenth := checksum
    creationTime := slot 0
    creationDate := slot 1
    lastAccessDate := slot 2
    firstClusterHigh := slot 3
    modificationTime := slot 4
    modificationDate := slot 5
    firstClusterLow := 0
    fileSize := sequence.toUInt32 <<< 24 ||| (slot 6).toUInt32 <<< 12 ||| (slot 7).toUInt32 <<< 8 }

/-- The entry `create_dir_entry_in_dir` writes. -/
def newEntry (name : ShortName) (startCluster size : UInt32) (attributes : UInt8) :
    FatDirectoryEntry where
  name := name
  attributes := attributes
  reserved := 0
  creationTimeTenth := 0
  creationTime := 0
  creationDate := 0
  lastAccessDate := 0
  firstClusterHigh := UInt16.ofNat (startCluster.toNat / 2 ^ 16)
  modificationTime := 0
  modificationDate := 0
  firstClusterLow := UInt16.ofNat (startCluster.toNat % 2 ^ 16)
  fileSize := size

/-! ## The codec -/

namespace FatDirectoryEntry

lemma ofStore_congr {m m' : Store} (h : ∀ i, i < 32 → m i = m' i) : ofStore m = ofStore m' := by
  have hsl : m.slice 0 11 = m'.slice 0 11 := slice_congr fun i hi => h (0 + i) (by omega)
  have hrd : ∀ a n, a + n ≤ 32 → m.readLe a n = m'.readLe a n := by
    intro a n han
    exact readLe_congr fun i hi => h (a + i) (by omega)
  simp only [ofStore, hsl, h 11 (by decide), h 12 (by decide), h 13 (by decide),
    hrd 14 2 (by decide), hrd 16 2 (by decide), hrd 18 2 (by decide), hrd 20 2 (by decide),
    hrd 22 2 (by decide), hrd 24 2 (by decide), hrd 26 2 (by decide), hrd 28 4 (by decide)]

lemma uint16_of_mod (x : UInt16) : UInt16.ofNat (x.toNat % 256 ^ 2) = x := by
  have hlt : x.toNat < 256 ^ 2 := x.toNat_lt
  rw [Nat.mod_eq_of_lt hlt, UInt16.ofNat_toNat]

lemma uint32_of_mod (x : UInt32) : UInt32.ofNat (x.toNat % 256 ^ 4) = x := by
  have hlt : x.toNat < 256 ^ 4 := x.toNat_lt
  rw [Nat.mod_eq_of_lt hlt, UInt32.ofNat_toNat]

variable (e : FatDirectoryEntry)

lemma ofStore_toBytes : ofStore (ofBytes e.toBytes) = e := by
  have hl := e.name.length_eq
  have hna := slice_ofBytes_append e.name.bytes e.fieldBytes
  have hw := window_ofBytes_append e.name.bytes e.fieldBytes
  rw [hl] at hna hw
  unfold toBytes
  generalize ofBytes (e.name.bytes ++ e.fieldBytes) = m at *
  -- the fields one after the other
  have h11 : m 11 = e.attributes := congrFun hw 0
  have h12 : m 12 = e.reserved := congrFun hw 1
  have h13 : m 13 = e.creationTimeTenth := congrFun hw 2
  have hw14 := window_window m 11 3
  rw [hw] at hw14
  obtain ⟨h14, hw16⟩ := readLe_of_window (hw14.symm.trans (window_ofBytes_append [_, _, _] _))
  obtain ⟨h16, hw18⟩ := readLe_of_window hw16
  obtain ⟨h18, hw20⟩ := readLe_of_window hw18
  obtain ⟨h20, hw22⟩ := readLe_of_window hw20
  obtain ⟨h22, hw24⟩ := readLe_of_window hw22
  obtain ⟨h24, hw26⟩ := readLe_of_window hw24
  obtain ⟨h26, hw28⟩ := readLe_of_window hw26
  obtain ⟨h28, _⟩ := readLe_of_window hw28
  simp only [ofStore, hna, h11, h12, h13, h14, h16, h18, h20, h22, h24, h26, h28, uint16_of_mod,
    uint32_of_mod]

variable (m : Store)

lemma ofStore_blit_entry : ofStore (m.blit 0 32 (ofBytes e.toBytes)) = e := by
  refine Eq.trans (ofStore_congr ?_) (ofStore_toBytes e)
  intro i hi
  have hin := blit_inside m 0 32 (ofBytes e.toBytes) hi
  rwa [Nat.zero_add] at hin

lemma ofStore_blit_front {n : Nat} (src : Store) (hn : n ≤ 11) : ofStore (m.blit 0 n src)
      = { ofStore m with name := ⟨(m.blit 0 n src).slice 0 11, slice_length _ _ _⟩ } := by
  have hby : ∀ i, 11 ≤ i → m.blit 0 n src i = m i := fun i hi => blit_outside m src (by omega)
  have hrd : ∀ a k, 11 ≤ a → (m.blit 0 n src).readLe a k = m.readLe a k := fun a k ha =>
    readLe_blit_disjoint m src (Or.inr (by omega))
  simp only [ofStore, hby 11 (by decide), hby 12 (by decide), hby 13 (by decide),
    hrd 14 2 (by decide), hrd 16 2 (by decide), hrd 18 2 (by decide), hrd 20 2 (by decide),
    hrd 22 2 (by decide), hrd 24 2 (by decide), hrd 26 2 (by decide), hrd 28 4 (by decide)]

lemma ofStore_blit_name (name : ShortName) :
    ofStore (m.blit 0 11 (ofBytes name.bytes)) = { ofStore m with name := name } := by
  have hsl := slice_blit_ofBytes m 0 name.bytes
  rw [name.length_eq] at hsl
  rw [ofStore_blit_front m _ (Nat.le_refl 11)]
  simp only [hsl]

lemma ofStore_blit_mark (mark : UInt8) : (ofStore (m.blit 0 1 fun _ => mark)).name.first = mark
      ∧ ∀ name, { ofStore (m.blit 0 1 fun _ => mark) with name := name }
          = { ofStore m with name := name } := by
  exact ⟨rfl, fun _ => rfl⟩

lemma newEntry_firstCluster (name : ShortName) (startCluster size : UInt32) (attributes : UInt8) :
    (newEntry name startCluster size attributes).firstCluster = startCluster.toNat := by
  have hlt := startCluster.toNat_lt
  unfold newEntry firstCluster
  simp only [UInt16.toNat_ofNat']
  omega

end FatDirectoryEntry

end Nt61.Fat32
