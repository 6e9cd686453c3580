/-
Volume — sectors and the file allocation table of `fs/fat32/mod.rs`.

The device is a byte store with, per sector, whether reading and writing it succeeds; a subtraction
of the source that could underflow is checked. The table is a function from clusters to 28-bit
entries (`fat`): a successful `update_fat_entry` changes it at one point (`updateFatEntry_ok`), and
allocation takes the first free cluster (`allocateCluster_ok`).
-/
import Nt61.Lib.Prog
import Nt61.Lib.Store
import Nt61.Lib.Chain

namespace Nt61.Fat32

open Lib Prog Function List Store

/-! ## Volumes and devices -/

def SECTOR_SIZE : Nat := 512
def FAT32_EOC : Nat := 0x0FFFFFFF
def FAT32_BAD : Nat := 0x0FFFFFF7
def FAT32_FREE : Nat := 0

/-- A cluster is a positive number of whole sectors. -/
structure Fat32FileSystem where
  clusterSize : Nat
  totalClusters : Nat
  fatStartSector : Nat
  dataStartSector : Nat
  numFats : Nat
  sectorsPerFat32 : Nat
  clusterSize_pos : 0 < clusterSize
  clusterSize_dvd : SECTOR_SIZE ∣ clusterSize

structure Device where
  bytes : Store
  readable : Nat → Bool
  writable : Nat → Bool

/-- How an operation ends early: with `STATUS_UNSUCCESSFUL`, or with a panic. -/
inductive Fault where
  | unsuccessful
  | panic
  deriving DecidableEq

abbrev FatProg := Prog Device Fault

/-- A subtraction of the source: an underflow is a panic. -/
def checkedSub (a b : Nat) : Option Nat := if b ≤ a then some (a - b) else none

lemma checkedSub_of_le {a b : Nat} (h : b ≤ a) : checkedSub a b = some (a - b) := if_pos h

lemma ofOption_checkedSub {a b : Nat} (h : b ≤ a) (d : Device) :
    (ofOption .panic (checkedSub a b) : FatProg Nat) d = (.ok (a - b), d) := by
  rw [checkedSub_of_le h]
  rfl

def readSector (sector : Nat) : FatProg Store := fun d =>
  if d.readable sector then (.ok (d.bytes.window (sector * SECTOR_SIZE)), d)
  else (.error .unsuccessful, d)

def writeSector (sector : Nat) (buffer : Store) : FatProg Unit := fun d =>
  if d.writable sector then
    (.ok (), { d with bytes := d.bytes.blit (sector * SECTOR_SIZE) SECTOR_SIZE buffer })
  else (.error .unsuccessful, d)

/-! ## The file allocation table -/

/-- The 28-bit cluster number of a raw entry (`raw & 0x0FFF_FFFF`). -/
def decodeFatEntry (raw : Nat) : Nat := raw % 2 ^ 28

variable (fs : Fat32FileSystem)

/-- The entry of a cluster; an unreadable table sector reads as end of chain. -/
def readFatEntry (d : Device) (cluster : Nat) : Nat :=
  let entryOffset := cluster * 4
  let fatSector := fs.fatStartSector + entryOffset / SECTOR_SIZE
  let offsetInSector := entryOffset % SECTOR_SIZE
  if d.readable fatSector then
    if offsetInSector + 4 > SECTOR_SIZE then FAT32_EOC
    else decodeFatEntry ((d.bytes.window (fatSector * SECTOR_SIZE)).readLe offsetInSector 4)
  else FAT32_EOC

/-- The high four bits of the entry stay. A failed write of the backup table is ignored. -/
def updateFatEntry (cluster value : Nat) : FatProg Unit := do
  let entryOffset := cluster * 4
  let fatSector := fs.fatStartSector + entryOffset / SECTOR_SIZE
  let offsetInSector := entryOffset % SECTOR_SIZE
  let buffer ← readSector fatSector
  if offsetInSector + 4 > SECTOR_SIZE then fail .unsuccessful
  else do
    let oldValue := buffer.readLe offsetInSector 4
    let newValue := oldValue / 2 ^ 28 * 2 ^ 28 + value % 2 ^ 28
    let buffer := buffer.blit offsetInSector 4 (ofBytes (leBytes 4 newValue))
    writeSector fatSector buffer
    if fs.numFats > 1 then
      rescue (writeSector (fatSector + fs.sectorsPerFat32) buffer) fun _ => pure ()
    else pure ()

def allocateFrom (fs : Fat32FileSystem) (current : Nat) : Nat → Nat → FatProg Nat
  | 0, _ => fail .unsuccessful
  | n + 1, cluster => fun d =>
    if readFatEntry fs d cluster = FAT32_FREE then
      match updateFatEntry fs cluster FAT32_EOC d with
      | (.error .panic, d) => (.error .panic, d)
      | (.error .unsuccessful, d) => allocateFrom fs current n (cluster + 1) d
      | (.ok (), d) =>
        if current ≥ 2 then
          match updateFatEntry fs current cluster d with
          | (.error .panic, d) => (.error .panic, d)
          | (.error .unsuccessful, d) =>
            -- roll back; the outcome of the roll back is ignored
            allocateFrom fs current n (cluster + 1) (updateFatEntry fs cluster FAT32_FREE d).2
          | (.ok (), d) => (.ok cluster, d)
        else (.ok cluster, d)
    else allocateFrom fs current n (cluster + 1) d

/-- Take the first free cluster, mark it end of chain and link it from `current`. -/
def allocateCluster (current : Nat) : FatProg Nat :=
  let totalClusters := fs.totalClusters % 2 ^ 32
  if totalClusters = 0 then fail .unsuccessful
  else allocateFrom fs current (totalClusters - 2) 2

/-- The corruption test comes after `current` was overwritten by `next`. -/
def freeLoop (fs : Fat32FileSystem) : Nat → Nat → FatProg Unit
  | 0, _ => pure ()
  | n + 1, current =>
    if 2 ≤ current ∧ current < FAT32_EOC then do
      let d ← read
      let next := readFatEntry fs d current
      updateFatEntry fs current FAT32_FREE
      let current := next
      if next = current then pure () else freeLoop fs n current
    else pure ()

def freeClusterChain (startCluster : Nat) : FatProg Unit :=
  if startCluster < 2 then pure () else freeLoop fs fs.totalClusters startCluster

/-! ## What the table is -/

def Fat32FileSystem.fatCapacity : Nat :=
  128 * (if fs.numFats > 1 then fs.sectorsPerFat32 else fs.dataStartSector - fs.fatStartSector)

structure Layout (fs : Fat32FileSystem) : Prop where
  regions : fs.fatStartSector + (if fs.numFats > 1 then 2 * fs.sectorsPerFat32 else 0)
    ≤ fs.dataStartSector
  total_le : fs.totalClusters ≤ fs.fatCapacity
  capacity_le : fs.fatCapacity ≤ FAT32_BAD

structure AllOk (d : Device) : Prop where
  readable : ∀ s, d.readable s = true
  writable : ∀ s, d.writable s = true

variable {d : Device}

lemma AllOk.of_bytes (h : AllOk d) (bytes : Store) : AllOk { d with bytes := bytes } :=
  ⟨h.readable, h.writable⟩

lemma readSector_ok (h : AllOk d) (s : Nat) :
    readSector s d = (.ok (d.bytes.window (s * SECTOR_SIZE)), d) := by
  unfold readSector
  rw [if_pos (h.readable s)]

lemma writeSector_ok (h : AllOk d) (s : Nat) (buffer : Store) : writeSector s buffer d
      = (.ok (), { d with bytes := d.bytes.blit (s * SECTOR_SIZE) SECTOR_SIZE buffer }) := by
  unfold writeSector
  rw [if_pos (h.writable s)]

def entryAddress (cluster : Nat) : Nat := fs.fatStartSector * SECTOR_SIZE + cluster * 4

lemma entryAddress_eq (cluster : Nat) :
    (fs.fatStartSector + cluster * 4 / SECTOR_SIZE) * SECTOR_SIZE + cluster * 4 % SECTOR_SIZE
      = entryAddress fs cluster := by
  unfold entryAddress SECTOR_SIZE
  omega

lemma entry_in_sector (cluster : Nat) : ¬ cluster * 4 % SECTOR_SIZE + 4 > SECTOR_SIZE := by
  unfold SECTOR_SIZE
  omega

lemma window_readLe (m : Store) (a off n : Nat) :
    (m.window a).readLe off n = m.readLe (a + off) n := by
  unfold Store.readLe Store.slice window
  simp only [Nat.add_assoc]

lemma readFatEntry_eq (h : AllOk d) (fs : Fat32FileSystem) (cluster : Nat) :
    readFatEntry fs d cluster = d.bytes.readLe (entryAddress fs cluster) 4 % 2 ^ 28 := by
  unfold readFatEntry
  rw [if_pos (h.readable _), if_neg (entry_in_sector cluster), window_readLe, entryAddress_eq]
  rfl

variable {cluster : Nat}

lemma readFatEntry_congr {d d' : Device} (h : AllOk d) (h' : AllOk d') (fs : Fat32FileSystem)
    (hby : ∀ i, i < 4 →
      d'.bytes (entryAddress fs cluster + i) = d.bytes (entryAddress fs cluster + i)) :
    readFatEntry fs d' cluster = readFatEntry fs d cluster := by
  rw [readFatEntry_eq h, readFatEntry_eq h', readLe_congr hby]

def dataAddress : Nat := fs.dataStartSector * SECTOR_SIZE

variable {fs : Fat32FileSystem}

lemma entryAddress_lt_data (hl : Layout fs)
    (hc : cluster < fs.fatCapacity) : entryAddress fs cluster + 4 ≤ dataAddress fs := by
  have hr := hl.regions
  unfold Fat32FileSystem.fatCapacity at hc
  unfold entryAddress dataAddress SECTOR_SIZE
  by_cases hn : fs.numFats > 1
  · rw [if_pos hn] at hr hc
    omega
  · rw [if_neg hn] at hr hc
    omega

lemma backup_before_data (hl : Layout fs) (hn : fs.numFats > 1) (hc : cluster < fs.fatCapacity) :
    (fs.fatStartSector + cluster * 4 / SECTOR_SIZE + fs.sectorsPerFat32) * SECTOR_SIZE + SECTOR_SIZE
      ≤ dataAddress fs := by
  have hr := hl.regions
  unfold Fat32FileSystem.fatCapacity at hc
  rw [if_pos hn] at hr hc
  unfold dataAddress SECTOR_SIZE
  omega

/-- What a write to the table may do: the entry of `cluster` becomes `value`, no other entry and no
data byte changes, and the device keeps succeeding. -/
structure FatWritten (fs : Fat32FileSystem) (cluster value : Nat) (d d' : Device) : Prop where
  allOk : AllOk d'
  entry : ∀ c, c < fs.fatCapacity →
    readFatEntry fs d' c = Function.update (readFatEntry fs d) cluster value c
  data : ∀ p, dataAddress fs ≤ p → d'.bytes p = d.bytes p

def patchedEntry (fs : Fat32FileSystem) (m : Store) (cluster value : Nat) : Store :=
  m.blit (entryAddress fs cluster) 4
    (ofBytes (leBytes 4 (m.readLe (entryAddress fs cluster) 4 / 2 ^ 28 * 2 ^ 28 + value % 2 ^ 28)))

lemma patchedEntry_readLe (fs : Fat32FileSystem) (m : Store) (cluster : Nat) {value : Nat}
    (hv : value < 2 ^ 28) (c : Nat) :
    (patchedEntry fs m cluster value).readLe (entryAddress fs c) 4 % 2 ^ 28
      = Function.update (fun c => m.readLe (entryAddress fs c) 4 % 2 ^ 28) cluster value c := by
  unfold patchedEntry
  by_cases hc : c = cluster
  · subst hc
    rw [readLe_blit_same, update_self]
    omega
  rw [update_of_ne hc, readLe_blit_disjoint]
  unfold entryAddress
  omega

lemma patchedEntry_eq (fs : Fat32FileSystem) (m : Store) (cluster value : Nat) :
    m.blit ((fs.fatStartSector + cluster * 4 / SECTOR_SIZE) * SECTOR_SIZE) SECTOR_SIZE
      ((m.window ((fs.fatStartSector + cluster * 4 / SECTOR_SIZE) * SECTOR_SIZE)).blit
        (cluster * 4 % SECTOR_SIZE) 4 (ofBytes (leBytes 4
          ((m.window ((fs.fatStartSector + cluster * 4 / SECTOR_SIZE) * SECTOR_SIZE)).readLe
            (cluster * 4 % SECTOR_SIZE) 4 / 2 ^ 28 * 2 ^ 28 + value % 2 ^ 28))))
      = patchedEntry fs m cluster value := by
  rw [window_readLe, blit_blit_window, entryAddress_eq]
  · rfl
  · have := entry_in_sector cluster
    omega

lemma updateFatEntry_ok (hl : Layout fs) (hd : AllOk d)
    {cluster value : Nat} (hc : cluster < fs.fatCapacity) (hv : value < 2 ^ 28) :
    ∃ d', updateFatEntry fs cluster value d = (.ok (), d') ∧ FatWritten fs cluster value d d' := by
  have hcd := entryAddress_lt_data hl hc
  have hen : ∀ c, readFatEntry fs { d with bytes := patchedEntry fs d.bytes cluster value } c
      = Function.update (readFatEntry fs d) cluster value c := by
    intro c
    rw [readFatEntry_eq (hd.of_bytes _), patchedEntry_readLe fs d.bytes cluster hv,
      show readFatEntry fs d = _ from funext (readFatEntry_eq hd fs)]
  have hda : ∀ p, dataAddress fs ≤ p → patchedEntry fs d.bytes cluster value p = d.bytes p := by
    intro p hp
    exact blit_outside _ _ (by omega)
  unfold updateFatEntry
  rw [bind_of_ok (readSector_ok hd _), if_neg (entry_in_sector cluster),
    bind_of_ok (writeSector_ok hd _ _), patchedEntry_eq]
  by_cases hn : fs.numFats > 1
  · -- the backup table lies between the primary table and the data
    rw [if_pos hn]
    refine ⟨_, by unfold rescue; rw [writeSector_ok (hd.of_bytes _)], (hd.of_bytes _).of_bytes _,
      ?_, ?_⟩
    · intro c hc'
      rw [← hen c]
      refine readFatEntry_congr (hd.of_bytes _) ((hd.of_bytes _).of_bytes _) fs ?_
      intro i hi
      refine blit_outside _ _ (Or.inl ?_)
      unfold Fat32FileSystem.fatCapacity at hc'
      rw [if_pos hn] at hc'
      unfold entryAddress SECTOR_SIZE
      omega
    intro p hp
    rw [← hda p hp]
    exact blit_outside _ _ (Or.inr (Nat.le_trans (backup_before_data hl hn hc) hp))
  · rw [if_neg hn]
    exact ⟨_, rfl, hd.of_bytes _, fun c _ => hen c, hda⟩

/-! ## Allocation -/

/-- In the order `allocate_cluster` finds them. -/
def freeClusters (fs : Fat32FileSystem) (d : Device) : List Nat :=
  (range' 2 (fs.totalClusters - 2)).filter fun c => readFatEntry fs d c = FAT32_FREE

structure Linked (fs : Fat32FileSystem) (current cluster : Nat) (d d' : Device) : Prop where
  allOk : AllOk d'
  entry : ∀ c, c < fs.fatCapacity → readFatEntry fs d' c
    = Function.update (Function.update (readFatEntry fs d) cluster FAT32_EOC) current cluster c
  data : ∀ p, dataAddress fs ≤ p → d'.bytes p = d.bytes p

lemma FatWritten.linked {current cluster : Nat} {d d1 d2 : Device}
    (h1 : FatWritten fs cluster FAT32_EOC d d1) (h₂ : FatWritten fs current cluster d1 d2) :
    Linked fs current cluster d d2 where
  allOk := h₂.allOk
  entry := by
    intro c hc
    rw [h₂.entry c hc]
    by_cases hcr : c = current
    · subst hcr
      rw [update_self, update_self]
    · rw [update_of_ne hcr, update_of_ne hcr, h1.entry c hc]
  data := fun p hp => (h₂.data p hp).trans (h1.data p hp)

variable {current : Nat}

lemma allocateFrom_ok (hl : Layout fs) (hd : AllOk d)
    (hcr : 2 ≤ current ∧ current < fs.fatCapacity) (n cluster : Nat)
    (hn : cluster + n ≤ fs.fatCapacity) :
    match (range' cluster n).find? (fun c => readFatEntry fs d c = FAT32_FREE) with
    | none => allocateFrom fs current n cluster d = (.error .unsuccessful, d)
    | some c => ∃ d', allocateFrom fs current n cluster d = (.ok c, d')
        ∧ Linked fs current c d d' := by
  induction n generalizing cluster with
  | zero => rfl
  | succ n ih =>
    have hcp := hl.capacity_le
    unfold allocateFrom
    rw [range'_succ, find?_cons]
    by_cases hf : readFatEntry fs d cluster = FAT32_FREE
    · have hlt : cluster < fs.fatCapacity := by omega
      have hec : FAT32_EOC < 2 ^ 28 := by decide
      have hvl : cluster < 2 ^ 28 := by unfold FAT32_BAD at hcp; omega
      obtain ⟨_, hup1, hw1⟩ := updateFatEntry_ok hl hd hlt hec
      obtain ⟨d2, hup2, hw2⟩ := updateFatEntry_ok hl hw1.allOk hcr.2 hvl
      simp only [hf, hup1, hup2, hcr.1]
      exact ⟨d2, rfl, hw1.linked hw2⟩
    · simp only [hf]
      exact ih (cluster + 1) (by omega)

lemma totalClusters_mod (hl : Layout fs) : fs.totalClusters % 2 ^ 32 = fs.totalClusters := by
  have htt := hl.total_le
  have hcp := hl.capacity_le
  unfold FAT32_BAD at hcp
  exact Nat.mod_eq_of_lt (by omega)

lemma freeClusters_find (fs : Fat32FileSystem) (d : Device) :
    (range' 2 (fs.totalClusters - 2)).find? (fun c => readFatEntry fs d c = FAT32_FREE)
      = (freeClusters fs d).head? := by
  rw [freeClusters, head?_filter]

lemma allocateCluster_full (hl : Layout fs) (hd : AllOk d)
    (hcr : 2 ≤ current ∧ current < fs.fatCapacity) (hf : freeClusters fs d = []) :
    allocateCluster fs current d = (.error .unsuccessful, d) := by
  unfold allocateCluster
  rw [totalClusters_mod hl]
  by_cases h0 : fs.totalClusters = 0
  · rw [if_pos h0]
    rfl
  rw [if_neg h0]
  by_cases h2 : fs.totalClusters < 2
  · have hz : fs.totalClusters - 2 = 0 := by omega
    rw [hz]
    rfl
  have hsc := allocateFrom_ok hl hd hcr (fs.totalClusters - 2) 2 (by have := hl.total_le; omega)
  rw [freeClusters_find, hf] at hsc
  exact hsc

variable {c : Nat}

lemma allocateCluster_ok (hl : Layout fs) (hd : AllOk d)
    (hcr : 2 ≤ current ∧ current < fs.fatCapacity) {rest : List Nat}
    (hf : freeClusters fs d = c :: rest) :
    ∃ d', allocateCluster fs current d = (.ok c, d') ∧ Linked fs current c d d' := by
  have h2 : 2 ≤ fs.totalClusters := by
    by_contra hlt
    have h0 : fs.totalClusters - 2 = 0 := by omega
    rw [freeClusters, h0] at hf
    simp at hf
  unfold allocateCluster
  rw [totalClusters_mod hl, if_neg (by omega)]
  have hsc := allocateFrom_ok hl hd hcr (fs.totalClusters - 2) 2 (by have := hl.total_le; omega)
  rw [freeClusters_find, hf] at hsc
  exact hsc

/-! ## Freeing -/

/-- The clusters of a file: an acyclic chain of the table that ends in `FAT32_EOC`. -/
structure FileChain (fs : Fat32FileSystem) (d : Device) (l : List Nat) : Prop where
  chain : Chain (readFatEntry fs d) FAT32_EOC l
  nodup : l.Nodup
  range : ∀ c ∈ l, 2 ≤ c ∧ c < fs.fatCapacity

variable {l : List Nat}

lemma FileChain.next_ne {c c' : Nat} (h : FileChain fs d (c :: c' :: l)) : c' ≠ c := by
  rintro rfl
  exact (nodup_cons.mp h.nodup).1 mem_cons_self

lemma FileChain.tail {c c' : Nat} (h : FileChain fs d (c :: c' :: l)) : FileChain fs d (c' :: l) :=
  ⟨h.chain.2, (nodup_cons.mp h.nodup).2, fun x hx => h.range x (mem_cons_of_mem c hx)⟩

lemma lt_eoc (hl : Layout fs) (hc : c < fs.fatCapacity) : c < FAT32_BAD ∧ c < FAT32_EOC := by
  have hcp := hl.capacity_le
  unfold FAT32_BAD at hcp
  unfold FAT32_BAD FAT32_EOC
  omega

lemma FileChain.not_free
    (h : FileChain fs d l) (hc : c ∈ l) : readFatEntry fs d c ≠ FAT32_FREE := by
  obtain ⟨i, _, rfl⟩ := getElem_of_mem hc
  by_cases hla : i + 1 < l.length
  · rw [h.chain.next_getElem hla]
    have hrg := (h.range _ (getElem_mem hla)).1
    unfold FAT32_FREE
    omega
  · rw [h.chain.next_getLast (by omega : i + 1 = l.length)]
    decide

/-- The loop stops after ONE cluster: its corruption test compares `next` with the variable `next`
was just assigned to. -/
lemma freeClusterChain_ok (hl : Layout fs) (hd : AllOk d)
    (hc : 2 ≤ c ∧ c < fs.fatCapacity) (htt : 0 < fs.totalClusters) :
    ∃ d', freeClusterChain fs c d = (.ok (), d') ∧ FatWritten fs c FAT32_FREE d d' := by
  obtain ⟨n, hn⟩ : ∃ n, fs.totalClusters = n + 1 := ⟨fs.totalClusters - 1, by omega⟩
  obtain ⟨d', hup, hw⟩ := updateFatEntry_ok hl hd hc.2 (by decide : FAT32_FREE < 2 ^ 28)
  refine ⟨d', ?_, hw⟩
  unfold freeClusterChain
  rw [if_neg (by omega), hn]
  unfold freeLoop
  rw [if_pos ⟨hc.1, (lt_eoc hl hc.2).2⟩]
  show (updateFatEntry fs c FAT32_FREE >>= _) d = _
  rw [bind_of_ok hup, if_pos rfl]
  rfl

/-- **Freeing a chain** frees exactly its clusters if and only if the chain has one cluster: of a
longer chain only the first cluster is freed. -/
theorem freeClusterChain_frees_iff {fs : Fat32FileSystem} (hl : Layout fs) {d d' : Device}
    (hd : AllOk d) {start : Nat} {l : List Nat} (hchain : FileChain fs d (start :: l))
    (hlen : (start :: l).length ≤ fs.totalClusters)
    (hok : freeClusterChain fs start d = (.ok (), d')) :
    ((∀ c ∈ start :: l, readFatEntry fs d' c = FAT32_FREE)
      ∧ ∀ c, c < fs.fatCapacity → c ∉ start :: l → readFatEntry fs d' c = readFatEntry fs d c)
      ↔ l = [] := by
  have hs0 := hchain.range start mem_cons_self
  obtain ⟨_, hf, hw⟩ := freeClusterChain_ok hl hd hs0 (Nat.lt_of_lt_of_le (by simp) hlen)
  rw [hf] at hok
  injection hok with _ hd'
  subst hd'
  constructor
  · rintro ⟨ha, _⟩
    -- the second cluster keeps its entry, and that is not the free mark
    cases l with
    | nil => rfl
    | cons c l =>
      have hm : c ∈ start :: c :: l := by simp
      have hne := hchain.next_ne
      have hkp := hw.entry c (hchain.range c hm).2
      rw [update_of_ne hne, ha c hm] at hkp
      exact absurd hkp.symm (hchain.not_free hm)
  rintro rfl
  refine ⟨?_, ?_⟩
  · intro c hc
    rw [mem_singleton.mp hc, hw.entry start hs0.2, update_self]
  · intro c hc hnt
    rw [hw.entry c hc, update_of_ne (fun h => hnt (by simp [h]))]

/-! ### A small volume -/

/-- A volume with one table of 128 entries and clusters of `n + 1` sectors. -/
def smallVolume (n : Nat) : Fat32FileSystem :=
  { clusterSize := 512 * (n + 1), totalClusters := 8, fatStartSector := 1, dataStartSector := 2,
    numFats := 1, sectorsPerFat32 := 1, clusterSize_pos := by omega,
    clusterSize_dvd := ⟨n + 1, rfl⟩ }

lemma smallVolume_layout (n : Nat) : Layout (smallVolume n) :=
  ⟨by show 1 + 0 ≤ 2; decide, by show 8 ≤ 128; decide, by show 128 ≤ FAT32_BAD; decide⟩

def imageOf (entries : List Nat) (data : Store) : Device :=
  { bytes := fun p =>
      if p < 1024 then (leBytes 4 (entries.getD ((p - 512) / 4) 0)).getD (p % 4) 0
      else data (p - 1024)
    readable := fun _ => true
    writable := fun _ => true }

lemma imageOf_allOk (entries : List Nat) (data : Store) : AllOk (imageOf entries data) :=
  ⟨fun _ => rfl, fun _ => rfl⟩

theorem freeClusterChain_frees_one : readFatEntry (smallVolume 0)
      (freeClusterChain (smallVolume 0) 2 (imageOf [0, 0, FAT32_EOC] fun _ => 0)).2 2 = FAT32_FREE := by
  have hch : FileChain (smallVolume 0) (imageOf [0, 0, FAT32_EOC] fun _ => 0) [2] :=
    ⟨by show readFatEntry _ _ 2 = _; decide +kernel, by decide, by decide⟩
  exact ((freeClusterChain_frees_iff (smallVolume_layout 0) (imageOf_allOk _ _) hch
    (by decide) (by rfl)).mpr rfl).1 2 mem_cons_self

/-- Of a file of two clusters the second one stays allocated. -/
theorem freeClusterChain_leaks :
    FileChain (smallVolume 0) (imageOf [0, 0, 3, FAT32_EOC] fun _ => 0) [2, 3]
      ∧ (freeClusterChain (smallVolume 0) 2 (imageOf [0, 0, 3, FAT32_EOC] fun _ => 0)).1 = .ok ()
      ∧ readFatEntry (smallVolume 0)
          (freeClusterChain (smallVolume 0) 2 (imageOf [0, 0, 3, FAT32_EOC] fun _ => 0)).2 3
        ≠ FAT32_FREE := by
  refine ⟨⟨⟨by decide +kernel, by show readFatEntry _ _ 3 = _; decide +kernel⟩, by decide, by decide⟩,
    by decide +kernel, by decide +kernel⟩

end Nt61.Fat32
