/-
Listing — `list_directory_cluster`, and the list it comes to.

The end mark stops the listing, deleted and long-name slots are passed over, every other slot is
listed (`listed`, `listDirectoryCluster_eq`). On a cyclic chain the loop does not end: it has fuel,
and `none` is a listing that is not finished.
-/
import Nt61.Fs.Fat32.Directory

namespace Nt61.Fat32

open Lib List

/-! ## The code -/

structure FatDirEntry where
  name : Bytes
  isDir : Bool
  size : UInt32
  cluster : Nat
  modDate : UInt16
  modTime : UInt16
  deriving DecidableEq

def zeroPad (bytes : Bytes) : Bytes := bytes ++ List.replicate (13 - bytes.length) 0

/-- The 8.3 form: stem and extension without blanks; a directory shows no extension. -/
def convert83Name (name : ShortName) (isDirectory : Bool) : Bytes :=
  let stem := (name.bytes.take 8).filter (· != 0x20)
  let extension := (name.bytes.drop 8).filter (· != 0x20)
  if !isDirectory && name.bytes.getD 8 0 != 0x20 then zeroPad (stem ++ 0x2E :: extension)
  else zeroPad stem

/-- The code units of a long name, from the collected bytes: 32 at a time, from the end. -/
def decodeLongNameUtf16 (buffer : Bytes) : List Nat :=
  (List.range (buffer.length / 32)).flatMap fun k =>
    let entryStart := buffer.length - 32 * (k + 1)
    [1, 3, 5, 7, 9, 12, 14, 16, 18, 20, 22, 24].filterMap fun off =>
      let position := entryStart + off
      if position + 1 < buffer.length then
        let c₁ := buffer.getD position 0
        let c₂ := buffer.getD (position + 1) 0
        if c₁ ≠ 0xFF ∧ c₂ ≠ 0xFF then
          let unit := c₂.toNat * 256 + c₁.toNat
          if unit ≠ 0 then some unit else none
        else none
      else none

/-- The listed form of a long name: at most twelve characters, other scripts as underscores. -/
def decodeLongName (buffer : Bytes) : Bytes :=
  zeroPad (((decodeLongNameUtf16 buffer).take 12).map fun unit =>
    if unit < 128 then UInt8.ofNat unit
    else if 0xC0 ≤ unit ∧ unit ≤ 0x24F then UInt8.ofNat (unit % 256)
    else 0x5F)

/-- The loop's variables: what is listed so far, and the bytes of the long name being collected. -/
structure ListState where
  entries : List FatDirEntry
  longName : Bytes

def ListState.list (st : ListState) (entry : FatDirectoryEntry) : ListState :=
  let name := if st.longName.isEmpty then convert83Name entry.name entry.isDirectory
    else decodeLongName st.longName
  { entries := st.entries ++
      [{ name := name, isDir := entry.isDirectory, size := entry.fileSize,
         cluster := entry.firstCluster, modDate := entry.modificationDate,
         modTime := entry.modificationTime }]
    longName := [] }

open FatDirectoryEntry

/-- `true`: the listing ends here. -/
def listCluster (limit : Nat) (buffer : Store) : Nat → Nat → ListState → ListState × Bool
  | 0, _, st => (st, false)
  | n + 1, offset, st =>
    if st.entries.length ≥ limit then (st, true)
    else
      let entry := ofStore (buffer.window offset)
      if entry.name.first = 0x00 then (st, true)
      else if entry.name.first = 0xE5 then
        listCluster limit buffer n (offset + 32) { st with longName := [] }
      else if entry.isLongName then
        listCluster limit buffer n (offset + 32) { st with longName := st.longName ++ entry.name.bytes }
      else listCluster limit buffer n (offset + 32) (st.list entry)

def readClusterData (fs : Fat32FileSystem) (d : Device) (cluster : Nat) : Option Store :=
  if (List.range fs.sectorsPerCluster).all fun i => d.readable (fs.firstSector cluster + i) then
    some (d.bytes.window (fs.firstSector cluster * SECTOR_SIZE))
  else none

def listLoop (fs : Fat32FileSystem) (d : Device) (limit : Nat) :
    Nat → Nat → ListState → Option ListState
  | 0, _, _ => none
  | fuel + 1, current, st =>
    if 2 ≤ current ∧ current < FAT32_EOC then
      match readClusterData fs d current with
      | none => some st
      | some buffer =>
        match listCluster limit buffer (fs.clusterSize / 32) 0 st with
        | (st, true) => some st
        | (st, false) =>
          let next := readFatEntry fs d current
          if next = current then some st else listLoop fs d limit fuel next st
    else some st

/-- List a directory into a buffer of `limit` entries. -/
def listDirectoryCluster (fs : Fat32FileSystem) (d : Device) (startCluster limit fuel : Nat) :
    Option (List FatDirEntry) :=
  if startCluster < 2 then some []
  else (listLoop fs d limit fuel startCluster ⟨[], []⟩).map ListState.entries

/-! ## The listing of a list of slots -/

abbrev Summary := Nat × UInt32 × Bool

def FatDirEntry.summary (e : FatDirEntry) : Summary := (e.cluster, e.size, e.isDir)
def FatDirectoryEntry.summary (e : FatDirectoryEntry) : Summary :=
  (e.firstCluster, e.fileSize, e.isDirectory)

/-- The slot is passed over. -/
def FatDirectoryEntry.isSkipped (e : FatDirectoryEntry) : Bool := e.name.first == 0xE5 || e.isLongName

/-- **What is listed** of a directory: the entries before the end mark that are not passed over. -/
def listed : List FatDirectoryEntry → List Summary
  | [] => []
  | e :: S =>
    if e.name.first = 0x00 then []
    else if e.isSkipped then listed S
    else e.summary :: listed S

variable {e : FatDirectoryEntry}

lemma listed_end (he : e.name.first = 0x00) (S : List FatDirectoryEntry) :
    listed (e :: S) = [] := by
  rw [listed, if_pos he]

lemma listed_skip (he : e.name.first ≠ 0x00) (hsk : e.isSkipped = true)
    (S : List FatDirectoryEntry) : listed (e :: S) = listed S := by
  rw [listed, if_neg he, if_pos hsk]

lemma listed_show (he : e.name.first ≠ 0x00) (hsk : e.isSkipped = false)
    (S : List FatDirectoryEntry) : listed (e :: S) = e.summary :: listed S := by
  rw [listed, if_neg he, if_neg (by simp [hsk])]

lemma listed_append {S T : List FatDirectoryEntry} (h : ∀ e ∈ S, e.name.first ≠ 0x00) :
    listed (S ++ T) = listed S ++ listed T := by
  induction S with
  | nil => rfl
  | cons e S ih =>
    have he := h e mem_cons_self
    have hr := ih fun x hx => h x (mem_cons_of_mem e hx)
    rw [cons_append]
    cases hsk : e.isSkipped
    · rw [listed_show he hsk, listed_show he hsk, hr, cons_append]
    · rw [listed_skip he hsk, listed_skip he hsk, hr]

lemma listed_append_end (S : List FatDirectoryEntry)
    (he : e.name.first = 0x00) (T : List FatDirectoryEntry) : listed (S ++ e :: T) = listed S := by
  induction S with
  | nil => exact listed_end he T
  | cons x S ih =>
    rw [cons_append, listed, ih]
    rfl

/-! ## The code lists it -/

def bufferSlots (buffer : Store) (offset n : Nat) : List FatDirectoryEntry :=
  (List.range n).map fun k => ofStore (buffer.window (offset + k * 32))

lemma bufferSlots_succ (buffer : Store) (offset n : Nat) : bufferSlots buffer offset (n + 1)
      = ofStore (buffer.window offset) :: bufferSlots buffer (offset + 32) n := by
  unfold bufferSlots
  rw [range_succ_eq_map, map_cons, map_map]
  refine congrArg _ (map_congr_left ?_)
  intro k _
  show ofStore (buffer.window (offset + (k + 1) * 32)) = _
  rw [Nat.succ_mul, Nat.add_comm (k * 32) 32, Nat.add_assoc]

/-- The loop went through the slots `S`: it added what is listed of them, and ended the listing if
one of them is the end mark. -/
structure ListsSlots (st : ListState) (S : List FatDirectoryEntry) (result : ListState × Bool) :
    Prop where
  entries : result.1.entries.map FatDirEntry.summary
    = st.entries.map FatDirEntry.summary ++ listed S
  length : result.1.entries.length ≤ st.entries.length + S.length
  stops : result.2 = true ↔ ∃ e ∈ S, e.name.first = 0x00

lemma ListsSlots.cons {st st1 : ListState} {S : List FatDirectoryEntry}
    {result : ListState × Bool} (h : ListsSlots st1 S result)
    (he : e.name.first ≠ 0x00) (shown : List Summary) (hls : listed (e :: S) = shown ++ listed S)
    (hsh : st1.entries.map FatDirEntry.summary = st.entries.map FatDirEntry.summary ++ shown)
    (hl : st1.entries.length ≤ st.entries.length + 1) : ListsSlots st (e :: S) result where
  entries := by rw [h.entries, hsh, hls, append_assoc]
  length := by
    have := h.length
    rw [length_cons]
    omega
  stops := by simp [h.stops, he]

lemma listCluster_lists (limit : Nat) (buffer : Store) (n offset : Nat) (st : ListState)
    (hlm : st.entries.length + n ≤ limit) :
    ListsSlots st (bufferSlots buffer offset n) (listCluster limit buffer n offset st) := by
  induction n generalizing offset st with
  | zero => exact ⟨by simp [bufferSlots, listed, listCluster], Nat.le_refl _,
      by simp [bufferSlots, listCluster]⟩
  | succ n ih =>
    unfold listCluster
    rw [if_neg (by omega), bufferSlots_succ]
    generalize ofStore (buffer.window offset) = entry
    by_cases he : entry.name.first = 0x00
    · rw [if_pos he]
      exact ⟨by rw [listed_end he, append_nil], Nat.le_add_right _ _,
        ⟨fun _ => ⟨entry, mem_cons_self, he⟩, fun _ => rfl⟩⟩
    rw [if_neg he]
    by_cases hdl : entry.name.first = 0xE5
    · rw [if_pos hdl]
      have hsk := listed_skip he (by simp [isSkipped, hdl])
      exact (ih (offset + 32) _ (by dsimp only; omega)).cons he [] (hsk _) (by simp) (by simp)
    rw [if_neg hdl]
    cases hlg : entry.isLongName
    · have hsh := listed_show he (by simp [isSkipped, hlg, hdl])
      refine (ih (offset + 32) (st.list entry) ?_).cons he [entry.summary] (hsh _) ?_ ?_
      · simp [ListState.list]
        omega
      · simp [ListState.list, FatDirEntry.summary, summary]
      · simp [ListState.list]
    · have hsk := listed_skip he (by simp [isSkipped, hlg])
      exact (ih (offset + 32) _ (by dsimp only; omega)).cons he [] (hsk _) (by simp) (by simp)

variable {fs : Fat32FileSystem} {d : Device}

def clusterSlots (fs : Fat32FileSystem) (d : Device) (cluster : Nat) : List FatDirectoryEntry :=
  bufferSlots (d.bytes.window (clusterAddress fs cluster)) 0 (slotsPerCluster fs)

lemma slots_eq_flatMap (fs : Fat32FileSystem) (d : Device) (chain : List Nat) :
    slots fs d chain = chain.flatMap (clusterSlots fs d) := by
  have hrw := flatMap_range_mul chain.length (slotsPerCluster fs) (slot fs d chain)
  unfold slots slotCount
  rw [← hrw, flatMap_positions chain 0]
  refine congrArg (List.flatMap · (List.range chain.length)) (funext fun k => ?_)
  refine map_congr_left ?_
  intro i hi
  have hlt : i < slotsPerCluster fs := mem_range.mp hi
  simp only [slot, slotAddress, slotPlace, row_div hlt, row_mod hlt, Store.window_window, Nat.zero_add]

lemma readClusterData_ok (hd : ∀ s, d.readable s = true) (cluster : Nat) :
    readClusterData fs d cluster = some (d.bytes.window (clusterAddress fs cluster)) := by
  have had := firstSector_address fs cluster 0
  rw [Nat.add_zero, Nat.zero_mul, Nat.add_zero] at had
  unfold readClusterData
  rw [if_pos (all_eq_true.mpr fun i _ => hd _), had]

lemma clusterSlots_length (fs : Fat32FileSystem) (d : Device) (cluster : Nat) :
    (clusterSlots fs d cluster).length = slotsPerCluster fs := by
  simp [clusterSlots, bufferSlots]

lemma listLoop_step (fs : Fat32FileSystem) (hd : ∀ s, d.readable s = true) (limit fuel : Nat) {c : Nat}
    (hc : 2 ≤ c ∧ c < FAT32_EOC) (st : ListState)
    (hlm : st.entries.length + slotsPerCluster fs ≤ limit) :
    ∃ st' stop, ListsSlots st (clusterSlots fs d c) (st', stop)
      ∧ listLoop fs d limit (fuel + 1) c st = if stop ∨ readFatEntry fs d c = c then some st'
          else listLoop fs d limit fuel (readFatEntry fs d c) st' := by
  have hcn : fs.clusterSize / 32 = slotsPerCluster fs := by
    rw [← slotsPerCluster_mul, Nat.mul_div_cancel _ (by decide)]
  have hls := listCluster_lists limit (d.bytes.window (clusterAddress fs c)) (slotsPerCluster fs) 0
    st hlm
  rw [listLoop, if_pos hc, readClusterData_ok hd, hcn]
  dsimp only
  generalize listCluster limit (d.bytes.window (clusterAddress fs c)) (slotsPerCluster fs) 0 st
    = result at hls ⊢
  obtain ⟨st', stop⟩ := result
  refine ⟨st', stop, hls, ?_⟩
  cases stop <;> simp

lemma listLoop_lists (hl : Layout fs) (hd : AllOk d) (limit fuel : Nat) {c : Nat}
    {l : List Nat} (hch : FileChain fs d (c :: l)) (hfu : (c :: l).length < fuel)
    (st : ListState) (hlm : st.entries.length + (c :: l).length * slotsPerCluster fs ≤ limit) :
    ∃ st', listLoop fs d limit fuel c st = some st'
      ∧ st'.entries.map FatDirEntry.summary = st.entries.map FatDirEntry.summary
          ++ listed ((c :: l).flatMap (clusterSlots fs d)) := by
  induction l generalizing c fuel st with
  | nil =>
    obtain ⟨fuel, rfl⟩ : ∃ m, fuel = m + 2 := ⟨fuel - 2, by simp at hfu; omega⟩
    have hc := hch.range c mem_cons_self
    have hla : readFatEntry fs d c = FAT32_EOC := hch.chain
    obtain ⟨st', stop, hls, hs⟩ := listLoop_step fs hd.readable limit (fuel + 1)
      ⟨hc.1, (lt_eoc hl hc.2).2⟩ st (by simpa using hlm)
    refine ⟨st', ?_, by simpa using hls.entries⟩
    rw [hs, hla]
    -- behind the last cluster the loop ends
    have hen : listLoop fs d limit (fuel + 1) FAT32_EOC st' = some st' := by
      rw [listLoop, if_neg (by omega)]
    rw [hen, ite_self]
  | cons c' l ih =>
    obtain ⟨fuel, rfl⟩ : ∃ m, fuel = m + 1 := ⟨fuel - 1, by omega⟩
    have hc := hch.range c mem_cons_self
    have hne := hch.next_ne
    have hrs := hch.tail
    rw [length_cons, Nat.succ_mul] at hlm
    obtain ⟨st1, stop, hls, hs⟩ := listLoop_step fs hd.readable limit fuel
      ⟨hc.1, (lt_eoc hl hc.2).2⟩ st (by omega)
    rw [hs, hch.chain.1, flatMap_cons]
    cases stop
    · -- no end mark in this cluster: the listing goes on
      have hgs : ∀ e ∈ clusterSlots fs d c, e.name.first ≠ 0x00 := by
        intro e he h0
        exact absurd (hls.stops.mpr ⟨e, he, h0⟩) (by simp)
      have hln := hls.length
      rw [clusterSlots_length] at hln
      obtain ⟨st', hr, hmp⟩ := ih fuel hrs (by simp at hfu ⊢; omega) st1
        (by dsimp only at hln; omega)
      refine ⟨st', ?_, ?_⟩
      · rw [if_neg (by simp [hne])]
        exact hr
      · rw [hmp, hls.entries, listed_append hgs, append_assoc]
    obtain ⟨e, he, h0⟩ := hls.stops.mp rfl
    obtain ⟨front, _, hsp⟩ := append_of_mem he
    refine ⟨st1, if_pos (Or.inl rfl), ?_⟩
    have hes := hls.entries
    rw [hsp, listed_append_end front h0] at hes
    rw [hes, hsp, append_assoc, cons_append, listed_append_end front h0]

lemma listDirectoryCluster_eq (hl : Layout fs) (hd : AllOk d) {start : Nat} {l : List Nat}
    (hch : FileChain fs d (start :: l)) {limit fuel : Nat}
    (hlm : slotCount fs (start :: l) ≤ limit) (hfu : (start :: l).length < fuel) :
    ∃ entries, listDirectoryCluster fs d start limit fuel = some entries
      ∧ entries.map FatDirEntry.summary = listed (slots fs d (start :: l)) := by
  have hs0 := (hch.range start mem_cons_self).1
  obtain ⟨st', hr, hmp⟩ := listLoop_lists hl hd limit fuel hch hfu ⟨[], []⟩
    (by simpa [slotCount] using hlm)
  refine ⟨st'.entries, ?_, ?_⟩
  · unfold listDirectoryCluster
    rw [if_neg (by omega), hr]
    rfl
  · rw [hmp, slots_eq_flatMap]
    rfl

end Nt61.Fat32
