/-
Directory — searching and changing directories (`fs/fat32/mod.rs`).

The three searches of the driver are one scan with different tests; the changes are patches of a few
bytes of one sector. The meaning of a directory is a list of entries: scans find the first
slot passing their test (`scanDir_eq`), patches change one element (`slots_patch`).
-/
import Mathlib.Data.Finset.Card
import Mathlib.Data.List.Find
import Nt61.Fs.Fat32.Cluster
import Nt61.Fs.Fat32.DirEntry
import Nt61.Lib.Scan

namespace Nt61.Fat32

open Lib Prog List Nat

/-! ## Searches -/

def ENTRIES_PER_SECTOR : Nat := SECTOR_SIZE / 32

/-- A place in a directory: cluster, byte offset in it, and the entry there. -/
abbrev DirEntryLocation := Nat × Nat × FatDirectoryEntry

open FatDirectoryEntry

variable (fs : Fat32FileSystem)

/-- Scan the sectors of one cluster; a sector that cannot be read is skipped. The test sees the
position of the entry in its sector. -/
def scanCluster (d : Device) (test : Nat → FatDirectoryEntry → Bool)
    (cluster : Nat) : Option DirEntryLocation :=
  (List.range fs.sectorsPerCluster).findSome? fun s =>
    if d.readable (fs.firstSector cluster + s) then
      let sector := d.bytes.window ((fs.firstSector cluster + s) * SECTOR_SIZE)
      (List.range ENTRIES_PER_SECTOR).findSome? fun e =>
        let entry := ofStore (sector.window (e * 32))
        if test e entry then some (cluster, s * SECTOR_SIZE + e * 32, entry) else none
    else none

/-- Scan the clusters of a chain, at most `n` more. -/
def scanLoop (fs : Fat32FileSystem) (d : Device) (test : Nat → FatDirectoryEntry → Bool) :
    Nat → Nat → Option DirEntryLocation
  | 0, _ => none
  | n + 1, current =>
    if 2 ≤ current ∧ current < FAT32_EOC then
      match scanCluster fs d test current with
      | some found => some found
      | none =>
        let next := readFatEntry fs d current
        if next = current ∨ next ≥ FAT32_EOC then none else scanLoop fs d test n next
    else none

def scanDir (d : Device) (test : Nat → FatDirectoryEntry → Bool)
    (dirCluster : Nat) : Option DirEntryLocation :=
  scanLoop fs d test 0x0FFFFFFF dirCluster

/-- A slot that may be used: at or behind the end, or deleted. -/
def FatDirectoryEntry.isFree (e : FatDirectoryEntry) : Bool := e.name.first == 0x00 || e.name.first == 0xE5

def FatDirectoryEntry.matches (shortName : ShortName) (e : FatDirectoryEntry) : Bool :=
  e.isValid && !e.isLongName && !e.isVolumeId && e.name == shortName

def findFreeDirSlotIn (d : Device) (dirCluster : Nat) : Option (Nat × Nat) :=
  (scanDir fs d (fun _ e => e.isFree) dirCluster).map fun found => (found.1, found.2.1)

def findDirEntryLocation (d : Device) (dirCluster : Nat)
    (shortName : ShortName) : Option DirEntryLocation :=
  scanDir fs d (fun _ e => e.matches shortName) dirCluster

/-- A free slot with room for `count` slots in its sector. Only the first of them is looked at. -/
def hasRoom (count index : Nat) (e : FatDirectoryEntry) : Bool :=
  decide (ENTRIES_PER_SECTOR - index ≥ count) && e.isFree

def findContiguousFreeDirSlots (d : Device) (dirCluster count : Nat) : Option (Nat × Nat) :=
  (scanDir fs d (hasRoom count) dirCluster).map fun found => (found.1, found.2.1)

/-! ## Changes -/

def readClusterSector (cluster sectorOffset : Nat) : FatProg Store := do
  let index ← ofOption .panic (checkedSub cluster 2)
  readSector (fs.dataStartSector + index * fs.sectorsPerCluster + sectorOffset)

def writeClusterSector (cluster sectorOffset : Nat) (data : Store) : FatProg Unit := do
  let index ← ofOption .panic (checkedSub cluster 2)
  writeSector (fs.dataStartSector + index * fs.sectorsPerCluster + sectorOffset) data

/-- Overwrite `n` bytes of a sector. Bytes behind the sector's end are out of bounds. -/
def patchSector (cluster byteOffset n : Nat) (src : Store) : FatProg Unit := do
  let sectorIndex := byteOffset / SECTOR_SIZE
  let offsetInSector := byteOffset % SECTOR_SIZE
  let buffer ← readClusterSector fs cluster sectorIndex
  if offsetInSector + n > SECTOR_SIZE then fail .panic
  else writeClusterSector fs cluster sectorIndex (buffer.blit offsetInSector n src)

def renameEntryAt (cluster byteOffset : Nat) (newName : ShortName) : FatProg Unit :=
  patchSector fs cluster byteOffset 11 (Store.ofBytes newName.bytes)

def updateDirEntry (cluster byteOffset : Nat) (entry : FatDirectoryEntry) : FatProg Unit :=
  patchSector fs cluster byteOffset 32 (Store.ofBytes entry.toBytes)

def deleteFileEntry (cluster byteOffset : Nat) : FatProg Unit := do
  let buffer ← readClusterSector fs cluster (byteOffset / SECTOR_SIZE)
  let entry := ofStore (buffer.window (byteOffset % SECTOR_SIZE))
  patchSector fs cluster byteOffset 1 fun _ => 0xE5
  freeClusterChain fs entry.firstCluster

def createDirEntryInDir (dirCluster : Nat) (name : ShortName)
    (startCluster size : UInt32) (attributes : UInt8) : FatProg Unit := do
  let d ← read
  let place ← ofOption .unsuccessful (findFreeDirSlotIn fs d dirCluster)
  updateDirEntry fs place.1 place.2 (newEntry name startCluster size attributes)

/-- `n` of `lfnCount` entries are left to write. -/
def writeLfnLoop (fs : Fat32FileSystem) (cluster offset lfnCount : Nat) (checksum : UInt8)
    (utf16Name : List UInt16) : Nat → FatProg Unit
  | 0 => pure ()
  | n + 1 => do
    let ordinal := lfnCount - (n + 1)
    let sequence := UInt8.ofNat (lfnCount - ordinal) ||| 0x40
    let start := (lfnCount - ordinal - 1) * 13
    updateDirEntry fs cluster (offset + ordinal * 32) (lfnEntry sequence checksum utf16Name start)
    writeLfnLoop fs cluster offset lfnCount checksum utf16Name n

def writeLfnEntries (dirCluster : Nat) (longName : Bytes)
    (shortName : ShortName) : FatProg Nat := do
  if longName.length ≤ 11 then pure 0
  else
    let utf16Name := lfnNameUtf16 longName
    if utf16Name.length > 255 then fail .unsuccessful
    else
      let lfnCount := (utf16Name.length + 12) / 13
      let d ← read
      let place ← ofOption .unsuccessful (findContiguousFreeDirSlots fs d dirCluster (lfnCount + 1))
      let checksum := calcLongNameChecksum shortName
      writeLfnLoop fs place.1 place.2 lfnCount checksum utf16Name lfnCount
      pure place.1

/-- The loop of `delete_lfn_entries` over the sector buffer, from the entry before `index` down. -/
def clearLfnEntries (checksum : UInt8) : Nat → Store → Store
  | 0, buffer => buffer
  | index + 1, buffer =>
    let offset := index * 32
    if buffer (offset + 11) ≠ 0x0F ∨ buffer (offset + 13) ≠ checksum then buffer
    else
      let buffer := buffer.blit offset 1 fun _ => 0xE5
      clearLfnEntries checksum index (buffer.blit (offset + 1) 31 fun _ => 0)

/-- Delete the long-name entries in front of an entry, as far as they are in its sector. -/
def deleteLfnEntries (dirCluster mainOffset : Nat) (shortName : ShortName) : FatProg Unit := do
  let checksum := calcLongNameChecksum shortName
  let sectorIndex := mainOffset / SECTOR_SIZE
  let mainIndex := mainOffset % SECTOR_SIZE / 32
  if mainIndex = 0 then pure ()
  else
    let buffer ← readClusterSector fs dirCluster sectorIndex
    writeClusterSector fs dirCluster sectorIndex (clearLfnEntries checksum mainIndex buffer)

/-- The first short name that is not taken. `index` is a `u8`, and `index += 1` overflows behind
255. -/
def freshShortName (fs : Fat32FileSystem) (dirCluster : Nat) (longName : Bytes) :
    Nat → Nat → FatProg ShortName
  | 0, _ => fail .panic
  | n + 1, index => do
    let shortName := shortNameForLong longName index
    let d ← read
    if (findDirEntryLocation fs d dirCluster shortName).isNone then pure shortName
    else freshShortName fs dirCluster longName n (index + 1)

/-- The common end of both. The short name is returned for the statements about it. -/
def createLong (dirCluster : Nat) (longName : Bytes)
    (startCluster size : UInt32) (attributes : UInt8) : FatProg ShortName := do
  let shortName ← freshShortName fs dirCluster longName 255 1
  let _ ← writeLfnEntries fs dirCluster longName shortName
  createDirEntryInDir fs dirCluster shortName startCluster size attributes
  pure shortName

def createEntryLong (dirCluster : Nat) (longName : Bytes)
    (startCluster size : UInt32) (attributes : UInt8) : FatProg Unit := do
  if h : longName.length ≤ 11 then
    createDirEntryInDir fs dirCluster (shortNameOf longName h) startCluster size attributes
  else do
    let _ ← createLong fs dirCluster longName startCluster size attributes
    pure ()

/-! ## What a directory is -/

section

variable {fs : Fat32FileSystem} {d : Device} {chain : List Nat}

def slotsPerCluster (fs : Fat32FileSystem) : Nat := fs.sectorsPerCluster * ENTRIES_PER_SECTOR

def slotCount (fs : Fat32FileSystem) (chain : List Nat) : Nat := chain.length * slotsPerCluster fs

/-- The cluster of the `i`-th slot, and the offset in it. -/
def slotPlace (fs : Fat32FileSystem) (chain : List Nat) (i : Nat) : Nat × Nat :=
  (chain.getD (i / slotsPerCluster fs) 0, i % slotsPerCluster fs * 32)

def slotAddress (fs : Fat32FileSystem) (chain : List Nat) (i : Nat) : Nat :=
  clusterAddress fs (slotPlace fs chain i).1 + (slotPlace fs chain i).2

def slot (fs : Fat32FileSystem) (d : Device) (chain : List Nat) (i : Nat) : FatDirectoryEntry :=
  ofStore (d.bytes.window (slotAddress fs chain i))

/-- **A directory**: the entries in the slots of its chain. -/
def slots (fs : Fat32FileSystem) (d : Device) (chain : List Nat) : List FatDirectoryEntry :=
  (List.range (slotCount fs chain)).map (slot fs d chain)

lemma slotsPerCluster_pos (fs : Fat32FileSystem) : 0 < slotsPerCluster fs :=
  mul_pos (sectorsPerCluster_pos fs) (by decide)

lemma slotsPerCluster_mul (fs : Fat32FileSystem) : slotsPerCluster fs * 32 = fs.clusterSize := by
  unfold slotsPerCluster
  rw [mul_assoc, clusterSize_eq fs]
  rfl

@[simp] lemma slots_length (fs : Fat32FileSystem) (d : Device) (chain : List Nat) :
    (slots fs d chain).length = slotCount fs chain := by
  simp [slots]

lemma slots_getElem {i : Nat} (hi : i < (slots fs d chain).length) :
    (slots fs d chain)[i] = slot fs d chain i := by
  simp [slots]

lemma scanCluster_eq (hd : ∀ s, d.readable s = true) (test : Nat → FatDirectoryEntry → Bool)
    (cluster : Nat) :
    scanCluster fs d test cluster = (List.range (slotsPerCluster fs)).findSome? fun i =>
      let entry := ofStore (d.bytes.window (clusterAddress fs cluster + i * 32))
      if test (i % ENTRIES_PER_SECTOR) entry then some (cluster, i * 32, entry) else none := by
  unfold slotsPerCluster
  rw [← findSome?_range_mul]
  refine findSome?_congr ?_
  intro s _
  rw [if_pos (hd _)]
  refine findSome?_congr ?_
  intro e he
  have hlt : e < ENTRIES_PER_SECTOR := mem_range.mp he
  have hmd : (s * ENTRIES_PER_SECTOR + e) % ENTRIES_PER_SECTOR = e := row_mod hlt s
  have hof : s * SECTOR_SIZE + e * 32 = (s * ENTRIES_PER_SECTOR + e) * 32 := by
    rw [add_mul, mul_assoc]
    rfl
  rw [firstSector_address, Store.window_window, add_assoc, hof, hmd]

variable {l : List Nat}

lemma scanLoop_eq (hl : Layout fs) (test : Nat → FatDirectoryEntry → Bool) (n : Nat) {c : Nat}
    (hchain : FileChain fs d (c :: l)) (hn : (c :: l).length ≤ n) :
    scanLoop fs d test n c = (c :: l).findSome? (scanCluster fs d test) := by
  induction l generalizing c n with
  | nil =>
    obtain ⟨n, rfl⟩ : ∃ m, n = m + 1 := ⟨n - 1, by simp at hn; omega⟩
    have hc := hchain.range c mem_cons_self
    have hla : readFatEntry fs d c = FAT32_EOC := hchain.chain
    unfold scanLoop
    rw [if_pos ⟨hc.1, (lt_eoc hl hc.2).2⟩, hla, findSome?_cons]
    cases scanCluster fs d test c <;> simp
  | cons c' l ih =>
    obtain ⟨n, rfl⟩ : ∃ m, n = m + 1 := ⟨n - 1, by simp at hn; omega⟩
    have hc := hchain.range c mem_cons_self
    have hc' := hchain.range c' (by simp)
    have hne := hchain.next_ne
    have hr := hchain.tail
    have hso : ¬ (c' = c ∨ c' ≥ FAT32_EOC) := by
      have := (lt_eoc hl hc'.2).2
      omega
    unfold scanLoop
    rw [if_pos ⟨hc.1, (lt_eoc hl hc.2).2⟩, hchain.chain.1, findSome?_cons]
    rw [if_neg hso, ih n hr (by simpa using hn)]
    cases scanCluster fs d test c <;> rfl

lemma FileChain.length_le (h : FileChain fs d chain) : chain.length ≤ fs.fatCapacity := by
  have hsb : chain.toFinset ⊆ Finset.range fs.fatCapacity := by
    intro c hc
    exact Finset.mem_range.mpr (h.range c (mem_toFinset.mp hc)).2
  have hcd := Finset.card_le_card hsb
  rwa [toFinset_card_of_nodup h.nodup, Finset.card_range] at hcd

def firstSlot (test : Nat → FatDirectoryEntry → Bool) (S : List FatDirectoryEntry) : Option Nat :=
  (List.range S.length).find? fun i => S[i]?.any (test (i % ENTRIES_PER_SECTOR))

variable {S : List FatDirectoryEntry}

lemma firstSlot_eq_some {test : Nat → FatDirectoryEntry → Bool}
    {i : Nat} : firstSlot test S = some i ↔ ∃ h : i < S.length,
      test (i % ENTRIES_PER_SECTOR) S[i] = true
        ∧ ∀ j (hj : j < i), test (j % ENTRIES_PER_SECTOR) S[j] = false := by
  unfold firstSlot
  rw [find?_range_eq_some]
  constructor
  · rintro ⟨ht, hm, hbf⟩
    have hi : i < S.length := mem_range.mp hm
    refine ⟨hi, by simpa [getElem?_eq_getElem hi] using ht, ?_⟩
    intro j hj
    have := hbf j hj
    simpa [getElem?_eq_getElem (lt_trans hj hi)] using this
  rintro ⟨hi, ht, hbf⟩
  refine ⟨by simpa [getElem?_eq_getElem hi] using ht, mem_range.mpr hi, ?_⟩
  intro j hj
  simpa [getElem?_eq_getElem (lt_trans hj hi)] using hbf j hj

lemma firstSlot_eq_none {test : Nat → FatDirectoryEntry → Bool} : firstSlot test S = none ↔
      ∀ i (hi : i < S.length), test (i % ENTRIES_PER_SECTOR) S[i] = false := by
  unfold firstSlot
  rw [find?_range_eq_none]
  refine forall_congr' fun i => forall_congr' fun hi => ?_
  rw [getElem?_eq_getElem hi]
  simp

section

variable {start : Nat} (hl : Layout fs) (hd : AllOk d) (hchain : FileChain fs d (start :: l))
include hl hd hchain

lemma scanDir_eq (test : Nat → FatDirectoryEntry → Bool) :
    scanDir fs d test start = (firstSlot test (slots fs d (start :: l))).map fun i =>
      ((slotPlace fs (start :: l) i).1, (slotPlace fs (start :: l) i).2,
        slot fs d (start :: l) i) := by
  have hlm : (start :: l).length ≤ 0x0FFFFFFF := by
    have hle := hchain.length_le
    have hcp := hl.capacity_le
    unfold FAT32_BAD at hcp
    omega
  have hfs : firstSlot test (slots fs d (start :: l))
      = (List.range (slotCount fs (start :: l))).find? fun i =>
        test (i % ENTRIES_PER_SECTOR) (slot fs d (start :: l) i) := by
    unfold firstSlot
    rw [slots_length]
    refine find?_congr ?_
    intro i hi
    rw [mem_range, ← slots_length fs d] at hi
    rw [getElem?_eq_getElem hi, slots_getElem hi]
    rfl
  rw [hfs, scanDir, scanLoop_eq hl test _ hchain hlm, findSome?_positions _ 0,
    ← findSome?_test, slotCount, ← findSome?_range_mul]
  refine findSome?_congr ?_
  intro k _
  rw [scanCluster_eq hd.readable]
  refine findSome?_congr ?_
  intro i hi
  have hlt : i < slotsPerCluster fs := mem_range.mp hi
  have hsc : (k * slotsPerCluster fs + i) % ENTRIES_PER_SECTOR = i % ENTRIES_PER_SECTOR := by
    unfold slotsPerCluster
    rw [add_comm, ← mul_assoc, add_mul_mod_self_right]
  simp only [slot, slotAddress, slotPlace, row_div hlt, row_mod hlt, hsc]

lemma findFreeDirSlotIn_eq :
    findFreeDirSlotIn fs d start = (firstSlot (fun _ e => e.isFree) (slots fs d (start :: l))).map
      (slotPlace fs (start :: l)) := by
  unfold findFreeDirSlotIn
  rw [scanDir_eq hl hd hchain, Option.map_map]
  rfl

lemma findContiguousFreeDirSlots_eq (count : Nat) : findContiguousFreeDirSlots fs d start count
      = (firstSlot (hasRoom count) (slots fs d (start :: l))).map (slotPlace fs (start :: l)) := by
  unfold findContiguousFreeDirSlots
  rw [scanDir_eq hl hd hchain, Option.map_map]
  rfl

end

/-! ## What the changes do -/

section

variable (hd : AllOk d) {cluster : Nat} (hc : 2 ≤ cluster)
include hd hc

lemma readClusterSector_ok (s : Nat) : readClusterSector fs cluster s d
      = (.ok (d.bytes.window (clusterAddress fs cluster + s * SECTOR_SIZE)), d) := by
  unfold readClusterSector
  rw [bind_of_ok (ofOption_checkedSub hc d), readSector_ok hd, ← firstSector_address]
  rfl

lemma writeClusterSector_ok (s : Nat) (data : Store) : writeClusterSector fs cluster s data d
      = (.ok (), d.patch (clusterAddress fs cluster + s * SECTOR_SIZE) SECTOR_SIZE data) := by
  unfold writeClusterSector
  rw [bind_of_ok (ofOption_checkedSub hc d), writeSector_ok hd, ← firstSector_address]
  rfl

lemma patchSector_ok {off n : Nat} (src : Store) (hin : off % SECTOR_SIZE + n ≤ SECTOR_SIZE) :
    patchSector fs cluster off n src d = (.ok (), d.patch (clusterAddress fs cluster + off) n src) := by
  have hsp : off / SECTOR_SIZE * SECTOR_SIZE + off % SECTOR_SIZE = off := by
    rw [mul_comm]
    exact div_add_mod off SECTOR_SIZE
  unfold patchSector
  rw [bind_of_ok (readClusterSector_ok hd hc _), if_neg (not_lt_of_ge hin),
    writeClusterSector_ok hd hc]
  unfold Device.patch
  rw [Store.blit_blit_window _ _ hin, add_assoc, hsp]

end

variable {i : Nat}

lemma slot_cluster (hi : i < slotCount fs chain) : (slotPlace fs chain i).1 ∈ chain := by
  have hlt : i / slotsPerCluster fs < chain.length :=
    (div_lt_iff_lt_mul (slotsPerCluster_pos fs)).mpr hi
  unfold slotPlace
  rw [getD_eq_getElem _ _ hlt]
  exact getElem_mem hlt

lemma slot_in_sector (fs : Fat32FileSystem) (chain : List Nat) (i : Nat) :
    (slotPlace fs chain i).2 % SECTOR_SIZE + 32 ≤ SECTOR_SIZE := by
  unfold slotPlace SECTOR_SIZE
  omega

lemma slot_in_cluster (fs : Fat32FileSystem) (chain : List Nat) (i : Nat) :
    (slotPlace fs chain i).2 + 32 ≤ fs.clusterSize := by
  have hlt := mod_lt i (slotsPerCluster_pos fs)
  have hsz := slotsPerCluster_mul fs
  unfold slotPlace
  omega

lemma slots_apart (hchain : FileChain fs d chain) {j : Nat} (hi : i < slotCount fs chain)
    (hj : j < slotCount fs chain) (hne : i ≠ j) :
    slotAddress fs chain i + 32 ≤ slotAddress fs chain j
      ∨ slotAddress fs chain j + 32 ≤ slotAddress fs chain i := by
  have hci := hchain.range _ (slot_cluster hi)
  have hcj := hchain.range _ (slot_cluster hj)
  have hin := slot_in_cluster fs chain i
  have hij := slot_in_cluster fs chain j
  unfold slotAddress
  by_cases hcl : i / slotsPerCluster fs = j / slotsPerCluster fs
  · have hof : i % slotsPerCluster fs ≠ j % slotsPerCluster fs := by
      intro heq
      apply hne
      rw [← div_add_mod i (slotsPerCluster fs), ← div_add_mod j (slotsPerCluster fs), hcl, heq]
    unfold slotPlace
    dsimp only
    rw [hcl]
    omega
  have hdi : i / slotsPerCluster fs < chain.length :=
    (div_lt_iff_lt_mul (slotsPerCluster_pos fs)).mpr hi
  have hdj : j / slotsPerCluster fs < chain.length :=
    (div_lt_iff_lt_mul (slotsPerCluster_pos fs)).mpr hj
  have hdf : (slotPlace fs chain i).1 ≠ (slotPlace fs chain j).1 := by
    unfold slotPlace
    rw [getD_eq_getElem _ _ hdi, getD_eq_getElem _ _ hdj]
    intro heq
    exact hcl (hchain.nodup.getElem_inj_iff.mp heq)
  have hor := clusters_ordered fs hci.1 hcj.1 hdf
  omega

lemma slots_patch (hchain : FileChain fs d chain) (hi : i < slotCount fs chain) {n : Nat}
    (hn : n ≤ 32) (src : Store) : slots fs (d.patch (slotAddress fs chain i) n src) chain
      = (slots fs d chain).set i
          (ofStore ((d.bytes.window (slotAddress fs chain i)).blit 0 n src)) := by
  refine ext_getElem (by simp) ?_
  intro j hj hj'
  rw [slots_length] at hj
  rw [slots_getElem, getElem_set]
  by_cases hij : i = j
  · subst hij
    rw [if_pos rfl, ← Store.window_blit_same]
    rfl
  have hap := slots_apart hchain hi hj hij
  rw [if_neg hij, slots_getElem]
  refine ofStore_congr ?_
  intro k hk
  exact Store.blit_outside _ _ (by omega)

structure DirUpdated (fs : Fat32FileSystem) (chain : List Nat) (d d' : Device)
    (S : List FatDirectoryEntry) : Prop where
  allOk : AllOk d'
  fat : ∀ c, c < fs.fatCapacity → readFatEntry fs d' c = readFatEntry fs d c
  slots : slots fs d' chain = S

lemma DirUpdated.refl (hd : AllOk d) (chain : List Nat) :
    DirUpdated fs chain d d (Fat32.slots fs d chain) :=
  ⟨hd, fun _ _ => rfl, rfl⟩

lemma DirUpdated.trans {d1 d2 : Device} {S1 S2 : List FatDirectoryEntry}
    (h1 : DirUpdated fs chain d d1 S1) (h2 : DirUpdated fs chain d1 d2 S2) :
    DirUpdated fs chain d d2 S2 :=
  ⟨h2.allOk, fun c hc => (h2.fat c hc).trans (h1.fat c hc), h2.slots⟩

lemma DirUpdated.fileChain {d' : Device}
    (h : DirUpdated fs chain d d' S) (hchain : FileChain fs d chain) : FileChain fs d' chain :=
  ⟨hchain.chain.congr fun c hc => h.fat c (hchain.range c hc).2, hchain.nodup, hchain.range⟩

variable (hl : Layout fs) (hd : AllOk d) (hchain : FileChain fs d chain)
  (hi : i < slotCount fs chain)
include hl hd hchain hi

lemma patchSector_slot {n : Nat} (hn : n ≤ 32) (src : Store) :
    ∃ d', patchSector fs (slotPlace fs chain i).1 (slotPlace fs chain i).2 n src d = (.ok (), d')
      ∧ DirUpdated fs chain d d' ((slots fs d chain).set i
          (ofStore ((d.bytes.window (slotAddress fs chain i)).blit 0 n src))) := by
  have hc := (hchain.range _ (slot_cluster hi)).1
  have hin := slot_in_sector fs chain i
  have had : dataAddress fs ≤ slotAddress fs chain i :=
    le_trans (dataAddress_le_cluster fs _) (le_add_right _ _)
  refine ⟨_, patchSector_ok hd hc src (by omega), hd.patch _ _ _, ?_, slots_patch hchain hi hn src⟩
  intro c hcp
  exact readFatEntry_patch hl hd src had hcp

lemma updateDirEntry_ok (entry : FatDirectoryEntry) :
    ∃ d', updateDirEntry fs (slotPlace fs chain i).1 (slotPlace fs chain i).2 entry d = (.ok (), d')
      ∧ DirUpdated fs chain d d' ((slots fs d chain).set i entry) := by
  have hpt := patchSector_slot hl hd hchain hi (le_refl 32) (Store.ofBytes entry.toBytes)
  rwa [ofStore_blit_entry] at hpt

lemma renameEntryAt_ok (name : ShortName) :
    ∃ d', renameEntryAt fs (slotPlace fs chain i).1 (slotPlace fs chain i).2 name d = (.ok (), d')
      ∧ DirUpdated fs chain d d'
          ((slots fs d chain).set i { slot fs d chain i with name := name }) := by
  have hpt := patchSector_slot hl hd hchain hi (by decide : 11 ≤ 32) (Store.ofBytes name.bytes)
  rwa [ofStore_blit_name] at hpt

end

end Nt61.Fat32
