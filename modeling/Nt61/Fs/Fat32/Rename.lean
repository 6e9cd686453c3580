/-
Rename — deleting and renaming files.

`rename_file_in_dir_long` deletes the old entry through `delete_file_entry`, which frees the file's
clusters: a rename FREES the first cluster of the file it renames. Whatever happens to the directory
leaves the table alone, and on a device whose table is not changed the directory is a list of
slots, which the steps of the rename rewrite one after the other.
-/
import Nt61.Fs.Fat32.LongName

namespace Nt61.Fat32

open Lib Prog List Silent FatDirectoryEntry Nat Store

/-! ## The code -/

def oldShortName (name : Bytes) : ShortName :=
  if h : name.length ≤ 11 then shortNameOf name h else shortNameForLong name 1

variable (fs : Fat32FileSystem)

/-- A short name replaces the deleted entry's name, a long one gets a new entry. -/
def writeRenamed (dirCluster : Nat) (newLongName : Bytes)
    (found : DirEntryLocation) : FatProg ShortName := do
  if h : newLongName.length ≤ 11 then
    renameEntryAt fs found.1 found.2.1 (shortNameOf newLongName h)
    pure (shortNameOf newLongName h)
  else
    createLong fs dirCluster newLongName (UInt32.ofNat found.2.2.firstCluster) found.2.2.fileSize
      found.2.2.attributes

def renameFileInDirLong (dirCluster : Nat)
    (oldLongName newLongName : Bytes) : FatProg ShortName := do
  let shortName := oldShortName oldLongName
  let d ← read
  let found ← ofOption .unsuccessful (findDirEntryLocation fs d dirCluster shortName)
  deleteLfnEntries fs found.1 found.2.1 shortName
  deleteFileEntry fs found.1 found.2.1
  writeRenamed fs dirCluster newLongName found

/-! ## Directories lie in the data region -/

section

variable {fs : Fat32FileSystem} {d d' : Device}

/-- Everything but the data region. -/
def tableView (fs : Fat32FileSystem) (d : Device) : (Nat → Bool) × (Nat → Bool) × (Nat → UInt8) :=
  (d.readable, d.writable, fun p => if p < dataAddress fs then d.bytes p else 0)

lemma AllOk.of_tableView (hd : AllOk d) (h : tableView fs d' = tableView fs d) : AllOk d' := by
  have hr : d'.readable = d.readable := congrArg Prod.fst h
  have hw : d'.writable = d.writable := congrArg (fun v => v.2.1) h
  exact ⟨fun s => by rw [hr]; exact hd.readable s, fun s => by rw [hw]; exact hd.writable s⟩

lemma readFatEntry_of_tableView (hl : Layout fs) (hd : AllOk d)
    (h : tableView fs d' = tableView fs d) {c : Nat} (hc : c < fs.fatCapacity) :
    readFatEntry fs d' c = readFatEntry fs d c := by
  have hbf := entryAddress_lt_data hl hc
  refine readFatEntry_congr hd (hd.of_tableView h) fs ?_
  intro i hi
  have hby := congrFun (congrArg (fun v => v.2.2) h) (entryAddress fs c + i)
  simp only [tableView] at hby
  rwa [if_pos (by omega), if_pos (by omega)] at hby

lemma readClusterSector_silent (cluster s : Nat) :
    Silent (tableView fs) (readClusterSector fs cluster s) := by
  refine bind (ofOption _ _) fun index => ?_
  intro d
  unfold readSector
  split <;> rfl

lemma writeClusterSector_silent (cluster s : Nat) (data : Store) :
    Silent (tableView fs) (writeClusterSector fs cluster s data) := by
  refine bind (ofOption _ _) fun index => ?_
  intro d
  unfold writeSector
  split
  · have hbh : dataAddress fs
        ≤ (fs.dataStartSector + index * fs.sectorsPerCluster + s) * SECTOR_SIZE :=
      mul_le_mul_right _ (by omega)
    refine congrArg (fun f => (d.readable, d.writable, f)) (funext fun p => ?_)
    by_cases hp : p < dataAddress fs
    · rw [if_pos hp, if_pos hp]
      exact blit_outside _ _ (.inl (by omega))
    · rw [if_neg hp, if_neg hp]
  · rfl

lemma patchSector_silent (cluster off n : Nat) (src : Store) :
    Silent (tableView fs) (patchSector fs cluster off n src) :=
  bind (readClusterSector_silent _ _) fun _ => ite (fail _) (writeClusterSector_silent _ _ _)

variable (start : Nat)

lemma createDirEntryInDir_silent (name : ShortName) (startCluster size : UInt32)
    (attributes : UInt8) :
    Silent (tableView fs) (createDirEntryInDir fs start name startCluster size attributes) :=
  read_bind fun _ => bind (ofOption _ _) fun _ => patchSector_silent _ _ _ _

lemma writeLfnLoop_silent (cluster offset lfnCount : Nat) (checksum : UInt8)
    (utf16Name : List UInt16) (n : Nat) :
    Silent (tableView fs) (writeLfnLoop fs cluster offset lfnCount checksum utf16Name n) := by
  induction n with
  | zero => exact pure ()
  | succ n ih => exact bind (patchSector_silent _ _ _ _) fun _ => ih

lemma writeLfnEntries_silent (longName : Bytes) (shortName : ShortName) :
    Silent (tableView fs) (writeLfnEntries fs start longName shortName) := by
  refine ite (pure _) (ite (fail _) (read_bind fun _ => ?_))
  refine bind (ofOption _ _) fun _ => ?_
  exact bind (writeLfnLoop_silent _ _ _ _ _ _) fun _ => pure _

lemma freshShortName_silent (longName : Bytes) (n index : Nat) :
    Silent (tableView fs) (freshShortName fs start longName n index) := by
  induction n generalizing index with
  | zero => exact fail _
  | succ n ih => exact read_bind fun _ => ite (pure _) (ih _)

lemma createLong_silent (longName : Bytes) (startCluster size : UInt32) (attributes : UInt8) :
    Silent (tableView fs) (createLong fs start longName startCluster size attributes) :=
  bind (freshShortName_silent _ _ _ _) fun _ =>
    bind (writeLfnEntries_silent _ _ _) fun _ =>
      bind (createDirEntryInDir_silent _ _ _ _ _) fun _ => pure _

lemma writeRenamed_silent (newLongName : Bytes) (found : DirEntryLocation) :
    Silent (tableView fs) (writeRenamed fs start newLongName found) := by
  unfold writeRenamed
  by_cases h : newLongName.length ≤ 11
  · rw [dif_pos h]
    exact bind (patchSector_silent _ _ _ _) fun _ => pure _
  · rw [dif_neg h]
    exact createLong_silent _ _ _ _ _

end

/-! ## Deleting -/

section

variable {fs : Fat32FileSystem} {d d' : Device} {chain : List Nat} {k : Nat}

lemma clearLfnEntries_slot (checksum : UInt8) (n : Nat) (buffer : Store) (e : Nat) :
    ofStore ((clearLfnEntries checksum n buffer).window (e * 32)) = ofStore (buffer.window (e * 32))
      ∨ (e < n ∧ (ofStore (buffer.window (e * 32))).isLongName = true ∧ (ofStore
              ((clearLfnEntries checksum n buffer).window (e * 32))).isFree = true) := by
  induction n generalizing buffer with
  | zero => exact .inl rfl
  | succ n ih =>
    unfold clearLfnEntries
    by_cases hso : buffer (n * 32 + 11) ≠ 0x0F ∨ buffer (n * 32 + 13) ≠ checksum
    · rw [if_pos hso]
      exact .inl rfl
    rw [if_neg hso]
    have hat : buffer (n * 32 + 11) = 0x0F := by
      by_contra h
      exact hso (.inl h)
    have hr := ih ((buffer.blit (n * 32) 1 fun _ => 0xE5).blit (n * 32 + 1) 31 fun _ => 0)
    by_cases hen : e = n
    · subst hen
      -- this is the entry cleared in this round
      right
      have hf : ∀ m : Store, m 0 = 0xE5 → (ofStore m).isFree = true := by
        intro m hm
        have hfs : (ofStore m).name.first = m 0 := rfl
        exact isFree_iff.mpr (.inr (hfs.trans hm))
      refine ⟨lt_succ_self e, ?_, ?_⟩
      · have hlg : (ofStore (buffer.window (e * 32))).attributes = buffer (e * 32 + 11) := rfl
        simp [isLongName, hlg, hat]
      rcases hr with heq | ⟨hlt, _⟩
      · rw [heq]
        refine hf _ ?_
        show (blit _ _ _ _) (e * 32 + 0) = _
        rw [blit_outside _ _ (.inl (by omega))]
        exact blit_inside _ _ _ _ (by decide)
      · exact absurd hlt (lt_irrefl e)
    have hs : ofStore
        (((buffer.blit (n * 32) 1 fun _ => 0xE5).blit (n * 32 + 1) 31 fun _ => 0).window (e * 32))
        = ofStore (buffer.window (e * 32)) := by
      refine ofStore_congr ?_
      intro i hi
      show (blit _ _ _ _) (e * 32 + i) = buffer (e * 32 + i)
      rw [blit_outside _ _ (by omega), blit_outside _ _ (by omega)]
    rw [hs] at hr
    rcases hr with heq | ⟨hlt, hlg, hf⟩
    · exact .inl heq
    · exact .inr ⟨lt_succ_of_lt hlt, hlg, hf⟩

/-- Some long-name slots other than the `k`-th were freed; the other slots are as before. -/
structure LfnsCleared (k : Nat) (S T : List FatDirectoryEntry) : Prop where
  length : T.length = S.length
  slot : ∀ p (hS : p < S.length) (hT : p < T.length),
    T[p] = S[p] ∨ (p ≠ k ∧ S[p].isLongName = true ∧ T[p].isFree = true)

lemma slot_vs_sector (hchain : FileChain fs d chain) {p s : Nat} (hk : k < slotCount fs chain)
    (hp : p < slotCount fs chain) (hs : s < fs.sectorsPerCluster) : (∃ e, e < ENTRIES_PER_SECTOR
        ∧ slotAddress fs chain p
            = clusterAddress fs (slotPlace fs chain k).1 + s * SECTOR_SIZE + e * 32)
      ∨ slotAddress fs chain p + 32 ≤ clusterAddress fs (slotPlace fs chain k).1 + s * SECTOR_SIZE
      ∨ clusterAddress fs (slotPlace fs chain k).1 + s * SECTOR_SIZE + SECTOR_SIZE
          ≤ slotAddress fs chain p := by
  have hck := (hchain.range _ (slot_cluster hk)).1
  have hcp := (hchain.range _ (slot_cluster hp)).1
  have hin := slot_in_cluster fs chain p
  have hsz : (s + 1) * SECTOR_SIZE ≤ fs.clusterSize := by
    rw [clusterSize_eq]
    exact mul_le_mul_right _ hs
  rw [succ_mul] at hsz
  unfold slotAddress
  by_cases hc : (slotPlace fs chain p).1 = (slotPlace fs chain k).1
  · rw [hc]
    unfold slotPlace at hin ⊢
    generalize p % slotsPerCluster fs = o at *
    by_cases hlw : o < s * ENTRIES_PER_SECTOR
    · right
      left
      unfold ENTRIES_PER_SECTOR SECTOR_SIZE at *
      omega
    by_cases hhi : o < s * ENTRIES_PER_SECTOR + ENTRIES_PER_SECTOR
    · left
      refine ⟨o - s * ENTRIES_PER_SECTOR, by omega, ?_⟩
      unfold ENTRIES_PER_SECTOR SECTOR_SIZE at *
      omega
    right
    right
    unfold ENTRIES_PER_SECTOR SECTOR_SIZE at *
    omega
  right
  have hor := clusters_ordered fs hcp hck hc
  omega

section

variable (hl : Layout fs) (hd : AllOk d) (hchain : FileChain fs d chain)
  (hk : k < slotCount fs chain)
include hl hd hchain hk

/-- **`delete_lfn_entries`** frees long-name slots of the directory, and nothing else. -/
lemma deleteLfnEntries_ok (shortName : ShortName) :
    ∃ d' T, deleteLfnEntries fs (slotPlace fs chain k).1 (slotPlace fs chain k).2 shortName d
        = (.ok (), d') ∧ DirUpdated fs chain d d' T ∧ LfnsCleared k (slots fs d chain) T := by
  have hc := (hchain.range _ (slot_cluster hk)).1
  unfold deleteLfnEntries
  by_cases hmn : (slotPlace fs chain k).2 % SECTOR_SIZE / 32 = 0
  · rw [if_pos hmn]
    exact ⟨d, _, rfl, DirUpdated.refl hd chain, rfl, fun _ _ _ => .inl rfl⟩
  rw [if_neg hmn, bind_of_ok (readClusterSector_ok hd hc _), writeClusterSector_ok hd hc]
  have hin := slot_in_cluster fs chain k
  have hs : (slotPlace fs chain k).2 / SECTOR_SIZE < fs.sectorsPerCluster := by
    rw [div_lt_iff_lt_mul (by decide), ← clusterSize_eq]
    omega
  have had : slotAddress fs chain k
      = clusterAddress fs (slotPlace fs chain k).1 + (slotPlace fs chain k).2 := rfl
  have hvs := fun p (hp : p < slotCount fs chain) => slot_vs_sector hchain hk hp hs
  have hda : dataAddress fs ≤ clusterAddress fs (slotPlace fs chain k).1
      + (slotPlace fs chain k).2 / SECTOR_SIZE * SECTOR_SIZE :=
    le_trans (dataAddress_le_cluster fs _) (le_add_right _ _)
  generalize hA : clusterAddress fs (slotPlace fs chain k).1
    + (slotPlace fs chain k).2 / SECTOR_SIZE * SECTOR_SIZE = A at *
  refine ⟨_, _, rfl, ⟨hd.patch _ _ _, fun c hcp => readFatEntry_patch hl hd _ hda hcp, rfl⟩,
    by simp, ?_⟩
  intro p hS hT
  rw [slots_getElem, slots_getElem]
  rw [slots_length] at hS
  unfold slot
  rcases hvs p hS with ⟨e, _, hsl⟩ | ho
  · -- an entry of the sector
    rw [hsl]
    have hw : ofStore ((d.patch A SECTOR_SIZE (clearLfnEntries
          (calcLongNameChecksum shortName) ((slotPlace fs chain k).2 % SECTOR_SIZE / 32)
          (d.bytes.window A))).bytes.window (A + e * 32))
        = ofStore ((clearLfnEntries (calcLongNameChecksum shortName)
          ((slotPlace fs chain k).2 % SECTOR_SIZE / 32) (d.bytes.window A)).window (e * 32)) := by
      refine ofStore_congr ?_
      intro i hi
      show (blit _ _ _ _) (A + e * 32 + i) = _
      rw [add_assoc]
      refine blit_inside _ _ _ _ ?_
      unfold ENTRIES_PER_SECTOR at *
      omega
    rw [hw, ← window_window]
    rcases clearLfnEntries_slot (calcLongNameChecksum shortName)
        ((slotPlace fs chain k).2 % SECTOR_SIZE / 32) (d.bytes.window A) e with heq | ⟨hlt, hcl⟩
    · exact .inl heq
    refine .inr ⟨?_, hcl⟩
    rintro rfl
    unfold SECTOR_SIZE at *
    omega
  left
  refine ofStore_congr ?_
  intro i hi
  exact blit_outside _ _ (by omega)

lemma deleteFileEntry_eq :
    ∃ d' marked, deleteFileEntry fs (slotPlace fs chain k).1 (slotPlace fs chain k).2 d
        = freeClusterChain fs (slot fs d chain k).firstCluster d'
      ∧ DirUpdated fs chain d d' ((slots fs d chain).set k marked) ∧ marked.isFree = true
      ∧ ∀ name, { marked with name := name } = { slot fs d chain k with name := name } := by
  have hc := (hchain.range _ (slot_cluster hk)).1
  obtain ⟨d', hr, hup⟩ := patchSector_slot hl hd hchain hk (by decide : 1 ≤ 32) fun _ => 0xE5
  have hmk := ofStore_blit_mark (d.bytes.window (slotAddress fs chain k)) 0xE5
  have hen : (d.bytes.window (clusterAddress fs (slotPlace fs chain k).1
        + (slotPlace fs chain k).2 / SECTOR_SIZE * SECTOR_SIZE)).window
          ((slotPlace fs chain k).2 % SECTOR_SIZE) = d.bytes.window (slotAddress fs chain k) := by
    rw [window_window, add_assoc, mul_comm, div_add_mod]
    rfl
  refine ⟨d', _, ?_, hup, isFree_iff.mpr (.inr hmk.1), hmk.2⟩
  unfold deleteFileEntry
  rw [bind_of_ok (readClusterSector_ok hd hc _), bind_of_ok hr, hen]
  rfl

end

def NothingToFree (fs : Fat32FileSystem) (d : Device) (c : Nat) : Prop :=
  c < 2 ∨ FAT32_EOC ≤ c ∨ fs.totalClusters = 0 ∨ readFatEntry fs d c = FAT32_FREE

lemma slots_congr (h : ∀ p, dataAddress fs ≤ p → d'.bytes p = d.bytes p) :
    slots fs d' chain = slots fs d chain := by
  refine map_congr_left ?_
  intro i _
  refine ofStore_congr ?_
  intro p _
  refine h _ ?_
  exact le_trans (dataAddress_le_cluster fs (slotPlace fs chain i).1) (by unfold slotAddress; omega)

lemma freeClusterChain_kept (hl : Layout fs) (hd : AllOk d) (chain : List Nat) {c : Nat}
    (hc : c < 2 ∨ FAT32_EOC ≤ c ∨ c < fs.fatCapacity) (hf : NothingToFree fs d c) :
    ∃ d', freeClusterChain fs c d = (.ok (), d') ∧ DirUpdated fs chain d d' (slots fs d chain) := by
  by_cases hlw : c < 2
  · refine ⟨d, ?_, DirUpdated.refl hd chain⟩
    unfold freeClusterChain
    rw [if_pos hlw]
    rfl
  by_cases htt : fs.totalClusters = 0
  · refine ⟨d, ?_, DirUpdated.refl hd chain⟩
    unfold freeClusterChain
    rw [if_neg hlw, htt]
    rfl
  by_cases hhi : FAT32_EOC ≤ c
  · refine ⟨d, ?_, DirUpdated.refl hd chain⟩
    unfold freeClusterChain
    rw [if_neg hlw]
    cases fs.totalClusters with
    | zero => rfl
    | succ n =>
      rw [freeLoop, if_neg (by omega)]
      rfl
  -- the entry is free already
  have hin : c < fs.fatCapacity := (hc.resolve_left hlw).resolve_left hhi
  have hen : readFatEntry fs d c = FAT32_FREE :=
    ((hf.resolve_left hlw).resolve_left hhi).resolve_left htt
  obtain ⟨d', hr, hw⟩ := freeClusterChain_ok hl hd ⟨by omega, hin⟩ (by omega)
  refine ⟨d', hr, hw.allOk, ?_, slots_congr hw.data⟩
  intro x hx
  rw [hw.entry x hx, ← hen, Function.update_eq_self]

lemma freeClusterChain_changes (hl : Layout fs) (hd : AllOk d) {c : Nat}
    (hc : c < 2 ∨ FAT32_EOC ≤ c ∨ c < fs.fatCapacity) (hf : ¬ NothingToFree fs d c) :
    ∃ d', freeClusterChain fs c d = (.ok (), d') ∧ AllOk d' ∧ c < fs.fatCapacity
      ∧ readFatEntry fs d' c ≠ readFatEntry fs d c := by
  unfold NothingToFree at hf
  have hen : readFatEntry fs d c ≠ FAT32_FREE := fun h => hf (by simp [h])
  have hin : c < fs.fatCapacity := by omega
  obtain ⟨d', hr, hw⟩ := freeClusterChain_ok hl hd ⟨by omega, hin⟩ (by omega)
  refine ⟨d', hr, hw.allOk, hin, ?_⟩
  rw [hw.entry c hin, Function.update_self]
  exact hen.symm

end

/-! ## Finding the renamed file -/

section

variable {S T : List FatDirectoryEntry} {k : Nat}

def byName (name : ShortName) : Nat → FatDirectoryEntry → Bool := fun _ e => e.matches name

def SameFile (a b : FatDirectoryEntry) : Prop :=
  a.firstCluster = b.firstCluster ∧ a.fileSize = b.fileSize ∧ a.attributes = b.attributes

lemma matches_iff {name : ShortName} {e : FatDirectoryEntry} :
    e.matches name = true ↔ isFreeMark name.first = false ∧ e.isLongName = false
      ∧ e.isVolumeId = false ∧ e.name = name := by
  have hvd : e.isValid = !isFreeMark e.name.first := by
    unfold isFreeMark
    rw [Bool.not_or]
    rfl
  simp only [FatDirectoryEntry.matches, hvd, Bool.and_eq_true, Bool.not_eq_true', beq_iff_eq]
  constructor
  · rintro ⟨⟨⟨hmk, hlg⟩, hvl⟩, rfl⟩
    exact ⟨hmk, hlg, hvl, rfl⟩
  · rintro ⟨hmk, hlg, hvl, rfl⟩
    exact ⟨⟨⟨hmk, hlg⟩, hvl⟩, rfl⟩

lemma not_matches_of_isFree {name : ShortName} {e : FatDirectoryEntry} (he : e.isFree = true) :
    e.matches name = false := by
  rw [Bool.eq_false_iff]
  intro hmt
  obtain ⟨hmk, _, _, rfl⟩ := matches_iff.mp hmt
  have : isFreeMark e.name.first = true := he
  rw [hmk] at this
  cases this

lemma LfnsCleared.matches_eq (h : LfnsCleared k S T) (name : ShortName) {p : Nat}
    (hS : p < S.length) (hT : p < T.length) : T[p].matches name = S[p].matches name := by
  rcases h.slot p hS hT with heq | ⟨_, hlg, hf⟩
  · rw [heq]
  have hnt : S[p].matches name = false := by
    rw [Bool.eq_false_iff]
    intro hmt
    have := (matches_iff.mp hmt).2.1
    rw [hlg] at this
    cases this
  rw [hnt, not_matches_of_isFree hf]

/-- **A short new name** in the old slot is found there, unless it is marked as free or an earlier
slot has that name. -/
lemma found_renamed_iff (hcl : LfnsCleared k S T) (hk : k < S.length) {old new : ShortName}
    (hold : S[k].matches old = true) : (∃ p, ∃ hp : p < (T.set k { S[k] with name := new }).length,
        firstSlot (byName new) (T.set k { S[k] with name := new }) = some p
          ∧ SameFile S[k] (T.set k { S[k] with name := new })[p])
      ↔ isFreeMark new.first = false
        ∧ ∀ m (hm : m < S.length), firstSlot (byName new) S = some m → m < k → SameFile S[k] S[m] := by
  have hln := hcl.length
  obtain ⟨_, hlg, hvl, _⟩ := matches_iff.mp hold
  constructor
  · rintro ⟨p, hp, hfs, hs⟩
    obtain ⟨_, hmt, hbf⟩ := firstSlot_eq_some.mp hfs
    refine ⟨(matches_iff.mp hmt).1, ?_⟩
    intro m hm hfirstS hmk
    obtain ⟨_, hmatchS, hbeforeS⟩ := firstSlot_eq_some.mp hfirstS
    have hTm : T[m].matches new = true := by
      rw [hcl.matches_eq new hm (by omega)]
      exact hmatchS
    -- the slot found afterwards is the slot found before
    have hpm : p = m := by
      rcases lt_trichotomy p m with hlt | heq | hgt
      · have hmc := hmt
        rw [byName, getElem_set_ne (by omega), hcl.matches_eq new (by omega) (by omega)]
          at hmc
        have := hbeforeS p hlt
        rw [byName, hmc] at this
        cases this
      · exact heq
      have := hbf m hgt
      rw [byName, getElem_set_ne (by omega), hTm] at this
      cases this
    subst hpm
    rw [getElem_set_ne (by omega)] at hs
    rcases hcl.slot p hm (by omega) with heq | ⟨_, _, hf⟩
    · rwa [heq] at hs
    · rw [not_matches_of_isFree hf] at hTm
      cases hTm
  rintro ⟨hmr, hel⟩
  have hmh : byName new (k % ENTRIES_PER_SECTOR) { S[k] with name := new } = true :=
    matches_iff.mpr ⟨hmr, hlg, hvl, rfl⟩
  cases hfs : firstSlot (byName new) (T.set k { S[k] with name := new }) with
  | none =>
    have := firstSlot_eq_none.mp hfs k (by simp; omega)
    rw [getElem_set_self, hmh] at this
    cases this
  | some p =>
    obtain ⟨hp, hmt, hbf⟩ := firstSlot_eq_some.mp hfs
    refine ⟨p, hp, rfl, ?_⟩
    have hpk : p ≤ k := by
      by_contra hgt
      have := hbf k (by omega)
      rw [getElem_set_self, hmh] at this
      cases this
    rcases lt_or_eq_of_le hpk with hlt | rfl
    · rw [getElem_set_ne (by omega)] at hmt ⊢
      have hpS : p < S.length := by omega
      have hs := hel p hpS (firstSlot_eq_some.mpr ⟨hpS, ?_, ?_⟩) hlt
      · rcases hcl.slot p hpS (by omega) with heq | ⟨_, _, hf⟩
        · rwa [heq]
        · rw [byName, not_matches_of_isFree hf] at hmt
          cases hmt
      · rwa [byName, hcl.matches_eq new hpS (by omega)] at hmt
      intro q hq
      have := hbf q hq
      rwa [getElem_set_ne (by omega), byName, hcl.matches_eq new (by omega) (by omega)]
        at this
    · rw [getElem_set_self]
      exact ⟨rfl, rfl, rfl⟩

/-- **A new entry** under a name that was not taken is found, unless it is marked as free. -/
lemma found_created_iff {L : List FatDirectoryEntry} {i j : Nat} {x : FatDirectoryEntry}
    (hn : firstSlot (byName x.name) T = none) (hi : i < T.length)
    (hf : j + L.length ≤ T.length) (hL : ∀ e ∈ L, e.isFree = true) (hlg : x.isLongName = false)
    (hvl : x.isVolumeId = false) : firstSlot (byName x.name) ((splice T j L).set i x)
      = if isFreeMark x.name.first then none else some i := by
  have hln := splice_length hf
  have hot : ∀ p (hp : p < ((splice T j L).set i x).length), p ≠ i →
      ((splice T j L).set i x)[p].matches x.name = false := by
    intro p hp hne
    rw [length_set] at hp
    have hm : (splice T j L)[p] ∈ splice T j L := getElem_mem hp
    have hT : ∀ e ∈ T, e.matches x.name = false := by
      intro e he
      obtain ⟨q, hq, rfl⟩ := getElem_of_mem he
      exact firstSlot_eq_none.mp hn q hq
    rw [getElem_set_ne (Ne.symm hne)]
    simp only [splice, mem_append] at hm
    rcases hm with (hft | hr) | hba
    · exact hT _ (mem_of_mem_take hft)
    · exact not_matches_of_isFree (hL _ hr)
    · exact hT _ (mem_of_mem_drop hba)
  cases hmk : isFreeMark x.name.first
  · refine firstSlot_eq_some.mpr ⟨by rw [length_set]; omega, ?_, ?_⟩
    · rw [getElem_set_self]
      exact matches_iff.mpr ⟨hmk, hlg, hvl, rfl⟩
    · intro p hp
      exact hot p _ (Nat.ne_of_lt hp)
  refine firstSlot_eq_none.mpr ?_
  intro p hp
  by_cases hpi : p = i
  · subst hpi
    rw [getElem_set_self]
    exact not_matches_of_isFree hmk
  · exact hot p hp hpi

end

/-! ## Renaming -/

section

variable {fs : Fat32FileSystem} {d d' : Device} {start : Nat} {l : List Nat}

/-- The clusters a first-cluster field may name: none, or one of the table's. -/
def ClusterField (fs : Fat32FileSystem) (c : Nat) : Prop :=
  c < 2 ∨ FAT32_EOC ≤ c ∨ c < fs.fatCapacity

/-- **The file survives**: no entry of the table changed, and the new name leads to the file the old
name led to. -/
def KeepsFile (fs : Fat32FileSystem) (start : Nat) (d d' : Device) (old new : ShortName) : Prop :=
  (∀ c, c < fs.fatCapacity → readFatEntry fs d' c = readFatEntry fs d c)
    ∧ ∃ before after, findDirEntryLocation fs d start old = some before
      ∧ findDirEntryLocation fs d' start new = some after
      ∧ SameFile before.2.2 after.2.2

/-- The new name can be found: it does not start with a mark of free slots, and, for a name that
fits the old slot, no earlier slot has it and another file. -/
def NameFits (S : List FatDirectoryEntry) (k : Nat) (entry : FatDirectoryEntry) (newLongName : Bytes) :
    Prop :=
  if h : newLongName.length ≤ 11 then
    isFreeMark (shortNameOf newLongName h).first = false
      ∧ ∀ m (hm : m < S.length), firstSlot (byName (shortNameOf newLongName h)) S = some m → m < k →
          SameFile entry S[m]
  else isFreeMark (newLongName.headD 0) = false

/-- When a rename keeps the file: its first cluster is none or free already, and the name fits. -/
def RenameKeeps (fs : Fat32FileSystem) (d : Device) (chain : List Nat)
    (oldLongName newLongName : Bytes) : Prop :=
  ∃ k, firstSlot (byName (oldShortName oldLongName)) (slots fs d chain) = some k
    ∧ NothingToFree fs d (slot fs d chain k).firstCluster
    ∧ NameFits (slots fs d chain) k (slot fs d chain k) newLongName

lemma firstCluster_toNat (e : FatDirectoryEntry) :
    (UInt32.ofNat e.firstCluster).toNat = e.firstCluster := by
  have hhi := e.firstClusterHigh.toNat_lt
  have hlw := e.firstClusterLow.toNat_lt
  rw [UInt32.toNat_ofNat']
  unfold firstCluster
  omega

variable (hl : Layout fs) (hd : AllOk d) (hchain : FileChain fs d (start :: l))
include hl hd hchain

lemma findDirEntryLocation_eq (name : ShortName) : findDirEntryLocation fs d start name
      = (firstSlot (byName name) (slots fs d (start :: l))).map fun i =>
        ((slotPlace fs (start :: l) i).1, (slotPlace fs (start :: l) i).2,
          slot fs d (start :: l) i) :=
  scanDir_eq hl hd hchain _

lemma found_iff {U : List FatDirectoryEntry} (hU : slots fs d (start :: l) = U)
    (name : ShortName) (entry : FatDirectoryEntry) :
    (∃ found, findDirEntryLocation fs d start name = some found ∧ SameFile entry found.2.2)
      ↔ ∃ p, ∃ hp : p < U.length, firstSlot (byName name) U = some p ∧ SameFile entry U[p] := by
  subst hU
  rw [findDirEntryLocation_eq hl hd hchain]
  constructor
  · rintro ⟨found, hfn, hs⟩
    obtain ⟨p, hp, rfl⟩ := Option.map_eq_some_iff.mp hfn
    obtain ⟨hlt, _⟩ := firstSlot_eq_some.mp hp
    exact ⟨p, hlt, hp, by rw [slots_getElem]; exact hs⟩
  rintro ⟨p, hlt, hp, hs⟩
  rw [slots_getElem] at hs
  exact ⟨_, Option.map_eq_some_iff.mpr ⟨p, hp, rfl⟩, hs⟩

lemma writeRenamed_iff {S T : List FatDirectoryEntry} {k : Nat} {marked : FatDirectoryEntry}
    (hk : k < S.length) (hcl : LfnsCleared k S T) (hss : slots fs d (start :: l) = T.set k marked)
    (hna : ∀ name, { marked with name := name } = { S[k] with name := name })
    {old new : ShortName} (hold : S[k].matches old = true) {newLongName : Bytes}
    (hok : writeRenamed fs start newLongName
      ((slotPlace fs (start :: l) k).1, (slotPlace fs (start :: l) k).2, S[k]) d = (.ok new, d')) :
    (∃ after, findDirEntryLocation fs d' start new = some after ∧ SameFile S[k] after.2.2)
      ↔ NameFits S k S[k] newLongName := by
  have hln : slotCount fs (start :: l) = S.length := by
    rw [← slots_length fs d, hss, length_set, hcl.length]
  unfold writeRenamed at hok
  unfold NameFits
  by_cases h : newLongName.length ≤ 11
  · rw [dif_pos h] at hok
    rw [dif_pos h]
    obtain ⟨_, d1, hrn, hpr⟩ := bind_eq_ok hok
    obtain ⟨rfl, rfl⟩ := pure_eq_ok hpr
    obtain ⟨d2, hr, hup⟩ := renameEntryAt_ok hl hd hchain (by omega : k < slotCount fs (start :: l))
      (shortNameOf newLongName h)
    obtain rfl : d2 = d1 := congrArg Prod.snd (hr.symm.trans hrn)
    have hsl : slot fs d (start :: l) k = marked := by
      rw [← slots_getElem (by rw [slots_length]; omega)]
      simp only [hss, getElem_set_self]
    rw [hsl, hna, hss, set_set] at hup
    rw [found_iff hl hup.allOk (hup.fileChain hchain) hup.slots]
    exact found_renamed_iff hcl hk hold
  rw [dif_neg h] at hok
  rw [dif_neg h]
  obtain ⟨i, _, hi, hj, _, hn, ⟨index, rfl⟩, hup⟩ := createLong_ok hl hd hchain (by omega) hok
  rw [findDirEntryLocation_eq hl hd hchain, Option.map_eq_none_iff] at hn
  obtain ⟨hil, _⟩ := firstSlot_eq_some.mp hi
  obtain ⟨_, hlg, hvl, _⟩ := matches_iff.mp hold
  have hft := (firstSlot_room hj).2.1
  rw [← slots_length fs d] at hft
  have hfn := found_created_iff (x := newEntry (shortNameForLong newLongName index)
    (UInt32.ofNat S[k].firstCluster) S[k].fileSize S[k].attributes)
    (L := lfnsOf newLongName (shortNameForLong newLongName index)) hn hil
    (by rw [lfnsOf, lfnRun_length]; exact hft)
    (fun e he => isFree_iff.mpr (.inl (lfnRun_end he))) hlg hvl
  have hmk : isFreeMark (shortNameForLong newLongName index).first
      = isFreeMark (newLongName.headD 0) := shortNameForLong_first (by rintro rfl; simp at h) index
  rw [found_iff hl hup.allOk (hup.fileChain hchain) hup.slots]
  change firstSlot (byName (shortNameForLong newLongName index)) _
    = if isFreeMark (shortNameForLong newLongName index).first then none else some i at hfn
  rw [hfn, hmk]
  constructor
  · rintro ⟨_, _, hp, _⟩
    cases hf : isFreeMark (newLongName.headD 0)
    · rfl
    · rw [hf] at hp
      cases hp
  intro hf
  rw [hf]
  refine ⟨i, by rw [length_set, splice_length (by rw [lfnsOf, lfnRun_length]; exact hft)]; omega,
    rfl, ?_⟩
  rw [getElem_set_self]
  refine ⟨?_, rfl, rfl⟩
  rw [newEntry_firstCluster]
  exact (firstCluster_toNat _).symm

/-- **Renaming a file.** When `rename_file_in_dir_long` returns, no entry of the table has changed
and the new name leads to the same file if and only if `RenameKeeps` held before. -/
theorem renameFileInDirLong_keeps_iff {oldLongName newLongName : Bytes}
    (hfield : ∀ found, findDirEntryLocation fs d start (oldShortName oldLongName) = some found →
      ClusterField fs found.2.2.firstCluster) {new : ShortName}
    (hok : renameFileInDirLong fs start oldLongName newLongName d = (.ok new, d')) :
    KeepsFile fs start d d' (oldShortName oldLongName) new
      ↔ RenameKeeps fs d (start :: l) oldLongName newLongName := by
  obtain ⟨_, _, hrd, hrest1⟩ := bind_eq_ok hok
  cases hrd
  obtain ⟨found, d0, hot, hrest2⟩ := bind_eq_ok hrest1
  obtain ⟨hfn, rfl⟩ := ofOption_eq_ok hot
  have hcu := hfield found hfn
  have hfi := hfn
  rw [findDirEntryLocation_eq hl hd hchain] at hfi
  obtain ⟨k, hk, rfl⟩ := Option.map_eq_some_iff.mp hfi
  obtain ⟨hkl, hold, _⟩ := firstSlot_eq_some.mp hk
  have hkc : k < slotCount fs (start :: l) := by rwa [slots_length] at hkl
  -- the long-name entries, then the mark on the old slot
  obtain ⟨_, d1, hlf, hrest3⟩ := bind_eq_ok hrest2
  obtain ⟨d1', T, hrun1, hup1, hcl⟩ := deleteLfnEntries_ok hl hd hchain hkc
    (oldShortName oldLongName)
  obtain rfl : d1' = d1 := congrArg Prod.snd (hrun1.symm.trans hlf)
  have hchain1 := hup1.fileChain hchain
  obtain ⟨d2, _, hdl, hup2, _, hmk⟩ := deleteFileEntry_eq hl hup1.allOk hchain1 hkc
  have hsl : slot fs d1' (start :: l) k = slot fs d0 (start :: l) k := by
    have hTlen : k < T.length := by rw [hcl.length]; exact hkl
    rw [← slots_getElem (by rw [slots_length]; exact hkc), ← slots_getElem hkl]
    simp only [hup1.slots]
    exact (hcl.slot k hkl hTlen).resolve_right fun h => h.1 rfl
  rw [hsl] at hdl hmk
  rw [hup1.slots] at hup2
  obtain ⟨_, d3, hfd, hrest4⟩ := bind_eq_ok hrest3
  replace hfd := hdl.symm.trans hfd
  have hup := hup1.trans hup2
  have htb : ∀ c, c < fs.fatCapacity → AllOk d3 → readFatEntry fs d' c = readFatEntry fs d3 c := by
    intro c hc hd3
    have hvw : tableView fs (writeRenamed fs start newLongName ((slotPlace fs (start :: l) k).1,
        (slotPlace fs (start :: l) k).2, slot fs d0 (start :: l) k) d3).2 = tableView fs d3 :=
      writeRenamed_silent _ _ _ d3
    rw [hrest4] at hvw
    exact readFatEntry_of_tableView hl hd3 hvw hc
  have hkp : NothingToFree fs d2 (slot fs d0 (start :: l) k).firstCluster
      ↔ NothingToFree fs d0 (slot fs d0 (start :: l) k).firstCluster := by
    unfold NothingToFree
    rcases hcu with hlw | hhi | hin
    · exact ⟨fun _ => .inl hlw, fun _ => .inl hlw⟩
    · exact ⟨fun _ => .inr (.inl hhi), fun _ => .inr (.inl hhi)⟩
    · rw [hup.fat _ hin]
  by_cases hf : NothingToFree fs d2 (slot fs d0 (start :: l) k).firstCluster
  · -- nothing is freed: the rest is about the directory
    obtain ⟨d3', hrun3, hup3⟩ := freeClusterChain_kept hl hup2.allOk (start :: l) hcu hf
    obtain rfl : d3' = d3 := congrArg Prod.snd (hrun3.symm.trans hfd)
    rw [hup2.slots] at hup3
    have ha := hup.trans hup3
    have hrn := writeRenamed_iff hl hup3.allOk (ha.fileChain hchain) hkl hcl hup3.slots
      (by rw [slots_getElem]; exact hmk) hold (by rw [slots_getElem]; exact hrest4)
    rw [slots_getElem] at hrn
    constructor
    · rintro ⟨_, _, after, hbf, haf, hs⟩
      rw [hfn] at hbf
      cases hbf
      exact ⟨k, hk, hkp.mp hf, hrn.mp ⟨after, haf, hs⟩⟩
    rintro ⟨k', hk', _, hft⟩
    rw [hk] at hk'
    cases hk'
    obtain ⟨after, haf, hs⟩ := hrn.mpr hft
    refine ⟨?_, _, after, hfn, haf, hs⟩
    intro c hc
    rw [htb c hc hup3.allOk, ha.fat c hc]
  -- the file's first cluster is freed
  obtain ⟨d3', hrun3, hd3ok, hin, hch⟩ := freeClusterChain_changes hl hup2.allOk hcu hf
  obtain rfl : d3' = d3 := congrArg Prod.snd (hrun3.symm.trans hfd)
  constructor
  · rintro ⟨hs, _⟩
    apply absurd (hs _ hin)
    rw [htb _ hin hd3ok, ← hup.fat _ hin]
    exact hch
  rintro ⟨k', hk', hnt, _⟩
  rw [hk] at hk'
  cases hk'
  exact absurd (hkp.mpr hnt) hf

end

lemma ascii_A_le : (ascii "A").length ≤ 11 := by decide

/-- A directory in cluster 2 with one file `A`; cluster 3 is the last one of a file. -/
def oneFile (cluster : UInt32) : Device :=
  imageOf [0, 0, FAT32_EOC, FAT32_EOC]
    (ofBytes (newEntry (shortNameOf (ascii "A") ascii_A_le) cluster 10 0x20).toBytes)

theorem renameFileInDirLong_keeps_empty :
    RenameKeeps (smallVolume 0) (oneFile 0) [2] (ascii "A") (ascii "B")
      ∧ KeepsFile (smallVolume 0) 2 (oneFile 0)
          (renameFileInDirLong (smallVolume 0) 2 (ascii "A") (ascii "B") (oneFile 0)).2
          (oldShortName (ascii "A")) (shortNameOf (ascii "B") (by decide)) := by
  have hkp : RenameKeeps (smallVolume 0) (oneFile 0) [2] (ascii "A") (ascii "B") := by
    refine ⟨0, by decide +kernel, .inl (by decide +kernel), ?_⟩
    exact ⟨by decide +kernel, fun m _ _ hlt => absurd hlt (by omega)⟩
  have hchain : FileChain (smallVolume 0) (oneFile 0) [2] :=
    ⟨by show readFatEntry _ _ 2 = _; decide +kernel, by decide, by decide⟩
  have hw : (renameFileInDirLong (smallVolume 0) 2 (ascii "A") (ascii "B") (oneFile 0)).1
      = .ok (shortNameOf (ascii "B") (by decide)) := by decide +kernel
  have hd : AllOk (oneFile 0) := imageOf_allOk _ _
  have hok := Prog.eq_ok_of_fst hw
  refine ⟨hkp, (renameFileInDirLong_keeps_iff (smallVolume_layout 0) hd hchain ?_ hok).mpr hkp⟩
  intro found hfn
  have h0 : (findDirEntryLocation (smallVolume 0) (oneFile 0) 2 (oldShortName (ascii "A"))).map
      (fun found => found.2.2.firstCluster) = some 0 := by decide +kernel
  rw [hfn] at h0
  have hfs : found.2.2.firstCluster = 0 := Option.some.inj h0
  exact .inl (by rw [hfs]; decide)

/-- A file of one cluster is renamed, and its cluster is free. -/
theorem renameFileInDirLong_frees :
    let renamed := renameFileInDirLong (smallVolume 0) 2 (ascii "A") (ascii "B") (oneFile 3)
    (findDirEntryLocation (smallVolume 0) (oneFile 3) 2 (oldShortName (ascii "A"))).map
        (fun found => found.2.2.firstCluster) = some 3
      ∧ renamed.1 = .ok (shortNameOf (ascii "B") (by decide))
      ∧ readFatEntry (smallVolume 0) (oneFile 3) 3 = FAT32_EOC
      ∧ readFatEntry (smallVolume 0) renamed.2 3 = FAT32_FREE := by
  refine ⟨by decide +kernel, by decide +kernel, by decide +kernel, by decide +kernel⟩

end Nt61.Fat32
