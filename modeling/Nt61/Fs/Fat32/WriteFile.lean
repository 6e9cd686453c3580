/-
WriteFile — `write_file`, and what `read_file` reads afterwards.

`write_file` computes the first sector of the target cluster ONCE, before its cluster loop. The loop
walks the chain and grows it, but every round writes to that one cluster: of data longer than a
cluster only the last piece survives, in the wrong place. The file's chain is
always a `take` of one fixed list (`Grown`).
-/
import Mathlib.Data.List.Nodup
import Nt61.Fs.Fat32.ReadFile

namespace Nt61.Fat32

open Lib Prog Function List Store Nat

/-! ## The code -/

/-- The next cluster of the chain, or a new one at its end; `none` if there is none left. -/
def nextCluster (fs : Fat32FileSystem) (current : Nat) : FatProg (Option Nat) := fun d =>
  let next := readFatEntry fs d current
  if next ≥ FAT32_EOC then
    match allocateCluster fs current d with
    | (.error .panic, d) => (.error .panic, d)
    | (.error .unsuccessful, d) => (.ok none, d)
    | (.ok newCluster, d) => (.ok (some newCluster), d)
  else (.ok (some next), d)

/-- Seek `n` clusters further along the chain, `c` being passed already; the chain grows on demand. -/
def seekCluster (fs : Fat32FileSystem) : Nat → Nat → Nat → FatProg Nat
  | 0, _, current => pure current
  | n + 1, c, current => do
    match ← nextCluster fs current with
    | none => if c = 0 then fail .unsuccessful else pure current
    | some next => if c + 1 > 1000 then fail .unsuccessful else seekCluster fs n (c + 1) next

/-- Write `n` sectors from the `s`-th on, with the data from `bytesWritten` on. -/
def writeSectors (data : Bytes) (firstSector bytesWritten : Nat) : Nat → Nat → FatProg Unit
  | 0, _ => pure ()
  | n + 1, s => do
    let srcOffset := bytesWritten + s * SECTOR_SIZE
    let rest ← ofOption .panic (checkedSub data.length srcOffset)
    let copyLen := min SECTOR_SIZE rest
    let sectorBuf := blit (fun _ => 0) 0 copyLen ((ofBytes data).window srcOffset)
    writeSector (firstSector + s) sectorBuf
    writeSectors data firstSector bytesWritten n (s + 1)

/-- The loop over whole clusters; `firstSector` is the same in every round. -/
def writeClusters (fs : Fat32FileSystem) (data : Bytes) (firstSector : Nat) :
    Nat → Nat → Nat → FatProg Nat
  | 0, bytesWritten, _ => pure bytesWritten
  | clustersNeeded + 1, bytesWritten, current =>
    if bytesWritten < data.length then do
      writeSectors data firstSector bytesWritten fs.sectorsPerCluster 0
      let bytesWritten := bytesWritten + fs.clusterSize
      if clustersNeeded > 0 ∧ bytesWritten < data.length then
        match ← nextCluster fs current with
        | none => pure bytesWritten
        | some next => writeClusters fs data firstSector clustersNeeded bytesWritten next
      else writeClusters fs data firstSector clustersNeeded bytesWritten current
    else pure bytesWritten

/-- The branch for less than a cluster, or for the middle of one: read, modify and write one sector. -/
def writePartial (data : Bytes) (firstSector byteOffset : Nat) : FatProg Nat := do
  let sectorNum := firstSector + byteOffset / SECTOR_SIZE
  let sectorOffset := byteOffset % SECTOR_SIZE
  let sectorBuf ← readSector sectorNum
  let copyLen := min data.length (SECTOR_SIZE - sectorOffset)
  writeSector sectorNum (sectorBuf.blit sectorOffset copyLen (ofBytes data))
  pure copyLen

def writeFile (fs : Fat32FileSystem) (startCluster offset : Nat) (data : Bytes) : FatProg Nat := do
  let clusterOffset := offset / fs.clusterSize
  let byteOffset := offset % fs.clusterSize
  let currentCluster ← seekCluster fs clusterOffset 0 startCluster
  let index ← ofOption .panic (checkedSub currentCluster 2)
  let firstSector := fs.dataStartSector + index * fs.sectorsPerCluster
  if byteOffset = 0 ∧ data.length ≥ fs.clusterSize then
    let clustersNeeded := (data.length + fs.clusterSize - 1) / fs.clusterSize
    writeClusters fs data firstSector clustersNeeded 0 currentCluster
  else writePartial data firstSector byteOffset

/-! ## One cluster -/

lemma sectorBuf_eq (data : Bytes) {srcOffset i : Nat} :
    blit (fun _ => 0) 0 (min SECTOR_SIZE (data.length - srcOffset))
        ((ofBytes data).window srcOffset) i
      = if i < SECTOR_SIZE then (ofBytes data).window srcOffset i else 0 := by
  by_cases hi : i < min SECTOR_SIZE (data.length - srcOffset)
  · have hin := blit_inside (fun _ => 0) 0 _ ((ofBytes data).window srcOffset) hi
    rw [zero_add] at hin
    rw [hin, if_pos (by omega)]
  rw [blit_outside _ _ (Or.inr (by omega))]
  by_cases hs : i < SECTOR_SIZE
  · rw [if_pos hs]
    show 0 = data.getD (srcOffset + i) 0
    rw [getD_eq_default _ _ (by omega)]
  · rw [if_neg hs]

variable {data : Bytes}

/-- **The sectors of a cluster**: one block write of the data from `written` on, and zeros behind
its end. -/
lemma writeSectors_ok {first written : Nat} (n s : Nat) {d d' : Device}
    (hd : AllOk d) (hok : writeSectors data first written n s d = (.ok (), d')) :
    d' = d.patch ((first + s) * SECTOR_SIZE) (n * SECTOR_SIZE)
      ((ofBytes data).window (written + s * SECTOR_SIZE)) := by
  induction n generalizing s d with
  | zero =>
    injection hok with _ hd'
    rw [← hd', Device.patch, zero_mul, blit_zero]
  | succ n ih =>
    obtain ⟨_, _, hsb, hok⟩ := bind_eq_ok hok
    unfold checkedSub at hsb
    split_ifs at hsb with hle
    · injection hsb with hr hd1
      injection hr with hr
      subst hr hd1
      rw [bind_of_ok (writeSector_ok hd _ _)] at hok
      have hr := ih (s + 1) (hd.of_bytes _) hok
      have hbf : ∀ i, i < SECTOR_SIZE →
          blit (fun _ => 0) 0 (min SECTOR_SIZE (data.length - (written + s * SECTOR_SIZE)))
            ((ofBytes data).window (written + s * SECTOR_SIZE)) i
          = (ofBytes data).window (written + s * SECTOR_SIZE) i := by
        intro i hi
        rw [sectorBuf_eq, if_pos hi]
      have hsr : (ofBytes data).window (written + (s + 1) * SECTOR_SIZE)
          = ((ofBytes data).window (written + s * SECTOR_SIZE)).window SECTOR_SIZE := by
        rw [window_window, succ_mul, add_assoc]
      have had : (first + (s + 1)) * SECTOR_SIZE = (first + s) * SECTOR_SIZE + SECTOR_SIZE := by
        rw [← add_assoc, succ_mul]
      rw [hr]
      unfold Device.patch
      rw [blit_congr _ hbf, hsr, had, blit_blit_adjacent, succ_mul, add_comm SECTOR_SIZE]
    · cases hsb

/-! ## Clusters and the table -/

variable {fs : Fat32FileSystem} {d d' : Device}

lemma mem_freeClusters {c : Nat} :
    c ∈ freeClusters fs d ↔ (2 ≤ c ∧ c < fs.totalClusters) ∧ readFatEntry fs d c = FAT32_FREE := by
  unfold freeClusters
  rw [mem_filter, mem_range'_1, decide_eq_true_iff]
  refine and_congr_left fun _ => ?_
  omega

lemma freeClusters_nodup (fs : Fat32FileSystem) (d : Device) : (freeClusters fs d).Nodup :=
  List.Nodup.filter _ nodup_range'

lemma freeClusters_congr (hl : Layout fs)
    (h : ∀ c, c < fs.fatCapacity → readFatEntry fs d' c = readFatEntry fs d c) :
    freeClusters fs d' = freeClusters fs d := by
  refine filter_congr ?_
  intro c hc
  have htt := hl.total_le
  rw [mem_range'_1] at hc
  rw [h c (by omega)]

lemma Linked.freeClusters_eq {current cluster : Nat} {rest : List Nat} (hl : Layout fs)
    (h : Linked fs current cluster d d') (hcr : readFatEntry fs d current ≠ FAT32_FREE)
    (hf : freeClusters fs d = cluster :: rest) : freeClusters fs d' = rest := by
  have hm : cluster ∈ freeClusters fs d := by simp [hf]
  have htw := (mem_freeClusters.mp hm).1.1
  have hnodup := freeClusters_nodup fs d
  have hfl : freeClusters fs d' = (freeClusters fs d).filter fun c => c ≠ cluster := by
    unfold freeClusters
    rw [filter_filter]
    refine filter_congr ?_
    intro c hc
    have htt := hl.total_le
    rw [mem_range'_1] at hc
    rw [h.entry c (by omega), ← Bool.decide_and, decide_eq_decide]
    by_cases h1 : c = current
    · subst h1
      rw [update_self]
      unfold FAT32_FREE at *
      omega
    rw [update_of_ne h1]
    by_cases h2 : c = cluster
    · subst h2
      simp [FAT32_EOC, FAT32_FREE]
    · simp [h2]
  rw [hf] at hfl hnodup
  have hnt := (nodup_cons.mp hnodup).1
  rw [hfl, filter_cons_of_neg (by simp), filter_eq_self]
  intro c hc
  rw [decide_eq_true_iff]
  rintro rfl
  exact hnt hc

/-! ## The chain through the loop -/

/-- The clusters a file may use: those of its chain, then the free ones in the order they are taken. -/
def pool (fs : Fat32FileSystem) (d : Device) (chain : List Nat) : List Nat :=
  chain ++ freeClusters fs d

lemma pool_nodup {chain : List Nat} (h : FileChain fs d chain) : (pool fs d chain).Nodup := by
  refine nodup_append.mpr ⟨h.nodup, freeClusters_nodup fs d, ?_⟩
  rintro c hc c' hc' rfl
  exact h.not_free hc (mem_freeClusters.mp hc').2

lemma pool_range (hl : Layout fs) {chain : List Nat} (h : FileChain fs d chain) :
    ∀ c ∈ pool fs d chain, 2 ≤ c ∧ c < fs.fatCapacity := by
  intro c hc
  rcases mem_append.mp hc with hm | hm
  · exact h.range c hm
  have := (mem_freeClusters.mp hm).1
  have htt := hl.total_le
  omega

/-- The file's chain is the first `m` clusters of the pool, the others are free, and only the file's
first cluster has been written to. -/
structure Grown (fs : Fat32FileSystem) (d₀ : Device) (start : Nat) (cl : List Nat) (m : Nat)
    (d : Device) : Prop where
  allOk : AllOk d
  chain : Chain (readFatEntry fs d) FAT32_EOC (cl.take m)
  free : freeClusters fs d = cl.drop m
  data : ∀ p, dataAddress fs ≤ p → ¬ InCluster fs start p → d.bytes p = d₀.bytes p

section

variable {d₀ : Device} {start : Nat} {cl : List Nat} {m : Nat}

lemma Grown.fileChain (h : Grown fs d₀ start cl m d) (hnodup : cl.Nodup)
    (hrange : ∀ c ∈ cl, 2 ≤ c ∧ c < fs.fatCapacity) : FileChain fs d (cl.take m) :=
  ⟨h.chain, hnodup.sublist (take_sublist m cl), fun c hc => hrange c (mem_of_mem_take hc)⟩

lemma Grown.patch (hl : Layout fs) (h : Grown fs d₀ start cl m d)
    (hrange : ∀ c ∈ cl, 2 ≤ c ∧ c < fs.fatCapacity) (src : Store) :
    Grown fs d₀ start cl m (d.patch (clusterAddress fs start) fs.clusterSize src) where
  allOk := h.allOk.patch _ _ _
  chain := h.chain.congr fun c hc => readFatEntry_patch hl h.allOk src
    (dataAddress_le_cluster fs start) (hrange c (mem_of_mem_take hc)).2
  free := by
    rw [← h.free]
    exact freeClusters_congr hl fun c hc =>
      readFatEntry_patch hl h.allOk src (dataAddress_le_cluster fs start) hc
  data := by
    intro p hp ho
    rw [← h.data p hp ho]
    refine blit_outside _ _ ?_
    unfold InCluster at ho
    omega

variable {i : Nat}

lemma Grown.next (h : Grown fs d₀ start cl m d) (hi : i + 1 < m) (hm : m ≤ cl.length) :
    readFatEntry fs d cl[i] = cl[i + 1] := by
  have hs := h.chain.next_getElem (i := i) (by rw [length_take]; omega)
  rwa [getElem_take, getElem_take] at hs

lemma Grown.last (h : Grown fs d₀ start cl m d) (hi : i + 1 = m) (hm : m ≤ cl.length) :
    readFatEntry fs d cl[i] = FAT32_EOC := by
  have hs := h.chain.next_getLast (i := i) (by rw [length_take]; omega)
  rwa [getElem_take] at hs

section

variable (hl : Layout fs) (hnodup : cl.Nodup) (hrange : ∀ c ∈ cl, 2 ≤ c ∧ c < fs.fatCapacity)
include hl hnodup hrange

lemma Grown.allocate (h : Grown fs d₀ start cl (i + 1) d) (hi : i + 1 < cl.length) :
    ∃ d', allocateCluster fs cl[i] d = (.ok cl[i + 1], d') ∧ Grown fs d₀ start cl (i + 2) d' := by
  have hcr := hrange cl[i] (getElem_mem _)
  have hf : freeClusters fs d = cl[i + 1] :: cl.drop (i + 2) := by
    rw [h.free, drop_eq_getElem_cons hi]
  obtain ⟨d', hok, hlk⟩ := allocateCluster_ok hl h.allOk hcr hf
  have hla : readFatEntry fs d cl[i] = FAT32_EOC := h.last rfl (by omega)
  refine ⟨d', hok, hlk.allOk, ?_, ?_, ?_⟩
  · -- the chain: the old last cluster now points to the new one
    have hta : cl.take (i + 1) = cl.take i ++ [cl[i]] := take_succ_eq_append_getElem (by omega)
    have hta' : cl.take (i + 2) = cl.take i ++ [cl[i], cl[i + 1]] := by
      rw [take_succ_eq_append_getElem hi, hta, append_assoc]
      rfl
    have hch := h.chain
    have hsb := hnodup.sublist (take_sublist (i + 2) cl)
    rw [hta] at hch
    rw [hta'] at hsb
    have hsp : cl.take i ++ [cl[i], cl[i + 1]] = (cl.take i ++ [cl[i]]) ++ [cl[i + 1]] := by
      rw [append_assoc]
      rfl
    rw [hsp] at hsb
    have hw : cl[i + 1] ∉ cl.take i ++ [cl[i]] := fun hm =>
      (nodup_append.mp hsb).2.2 _ hm _ (mem_singleton.mpr rfl) rfl
    have hsn := hch.snoc (nodup_append.mp hsb).1 hw
    rw [hta']
    refine hsn.congr ?_
    intro c hc
    rw [← hta'] at hc
    exact hlk.entry c (hrange c (mem_of_mem_take hc)).2
  · exact hlk.freeClusters_eq hl (by rw [hla]; decide) hf
  intro p hp ho
  rw [hlk.data p hp]
  exact h.data p hp ho

lemma Grown.nextCluster_some (h : Grown fs d₀ start cl m d) (him : i + 1 ≤ m) (hm : m ≤ cl.length)
    (hi : i + 1 < cl.length) : ∃ d', nextCluster fs cl[i] d = (.ok (some cl[i + 1]), d')
      ∧ Grown fs d₀ start cl (max m (i + 2)) d' := by
  unfold nextCluster
  rcases lt_or_eq_of_le him with hlt | rfl
  · have hnx := lt_eoc hl (hrange cl[i + 1] (getElem_mem hi)).2
    rw [h.next hlt hm, if_neg (by omega), show max m (i + 2) = m by omega]
    exact ⟨d, rfl, h⟩
  obtain ⟨d', hok, hg⟩ := h.allocate hl hnodup hrange hi
  rw [h.last rfl hm, hok, show max (i + 1) (i + 2) = i + 2 by omega]
  exact ⟨d', rfl, hg⟩

end

lemma Grown.nextCluster_none (hl : Layout fs)
    (hrange : ∀ c ∈ cl, 2 ≤ c ∧ c < fs.fatCapacity) (h : Grown fs d₀ start cl m d)
    (him : i + 1 = m) (hi : i + 1 = cl.length) : nextCluster fs cl[i] d = (.ok none, d) := by
  have hcr := hrange cl[i] (getElem_mem _)
  have hf : freeClusters fs d = [] := by
    rw [h.free]
    exact drop_eq_nil_of_le (by omega)
  unfold nextCluster
  rw [h.last him (by omega), if_pos (le_refl _), allocateCluster_full hl h.allOk hcr hf]

lemma writeSectors_cluster {written : Nat} (hd : AllOk d)
    (hok : writeSectors data (fs.firstSector start) written fs.sectorsPerCluster 0 d = (.ok (), d')) :
    d' = d.patch (clusterAddress fs start) fs.clusterSize ((ofBytes data).window written) := by
  have had := firstSector_address fs start 0
  have hwr := writeSectors_ok _ _ hd hok
  rwa [had, ← clusterSize_eq, zero_mul, add_zero] at hwr

lemma writeClusters_ok (hl : Layout fs) (hnodup : cl.Nodup)
    (hrange : ∀ c ∈ cl, 2 ≤ c ∧ c < fs.fatCapacity) {k w : Nat} (hk : k ≤ cl.length)
    (n i : Nat) (hi : i < cl.length) (hn : 0 < n)
    (hnd : ∀ j, j < i + n ↔ j * fs.clusterSize < data.length)
    (hg : Grown fs d₀ start cl (max k (i + 1)) d)
    (hok : writeClusters fs data (fs.firstSector start) n (i * fs.clusterSize) cl[i] d
      = (.ok w, d')) : w = min (i + n) cl.length * fs.clusterSize
      ∧ Grown fs d₀ start cl (max k (min (i + n) cl.length)) d'
      ∧ ∀ b, b < fs.clusterSize → d'.bytes (clusterAddress fs start + b)
          = ofBytes data ((min (i + n) cl.length - 1) * fs.clusterSize + b) := by
  induction n generalizing i d with
  | zero => exact absurd hn (lt_irrefl 0)
  | succ n ih =>
    unfold writeClusters at hok
    rw [if_pos ((hnd i).mp (by omega))] at hok
    obtain ⟨_, d1, hwr, hok⟩ := bind_eq_ok hok
    have hd1 := writeSectors_cluster hg.allOk hwr
    have hg1 := hg.patch hl hrange ((ofBytes data).window (i * fs.clusterSize))
    have hpc : ∀ b, b < fs.clusterSize → d1.bytes (clusterAddress fs start + b)
        = ofBytes data (i * fs.clusterSize + b) := by
      intro b hb
      rw [hd1]
      exact blit_inside _ _ _ _ hb
    rw [← hd1] at hg1
    have hsu : i * fs.clusterSize + fs.clusterSize = (i + 1) * fs.clusterSize := (succ_mul _ _).symm
    rw [hsu] at hok
    by_cases hmo : n > 0 ∧ (i + 1) * fs.clusterSize < data.length
    · rw [if_pos hmo] at hok
      by_cases hla : i + 1 < cl.length
      · obtain ⟨_, hnx, hg2⟩ := hg1.nextCluster_some hl hnodup hrange (by omega) (by omega) hla
        rw [bind_of_ok hnx] at hok
        rw [show max (max k (i + 1)) (i + 2) = max k (i + 2) by omega] at hg2
        rw [show i + (n + 1) = i + 1 + n by omega] at hnd ⊢
        exact ih (i + 1) hla hmo.1 hnd hg2 hok
      have he : max k (i + 1) = i + 1 := by omega
      rw [he] at hg1
      rw [bind_of_ok (hg1.nextCluster_none hl hrange rfl (by omega))] at hok
      injection hok with hw hd'
      injection hw with hw
      have hmn : min (i + (n + 1)) cl.length = i + 1 := by omega
      rw [hmn, he, ← hd', ← hw]
      exact ⟨rfl, hg1, hpc⟩
    -- the last piece
    have h0 : n = 0 := by
      by_contra hp
      exact hmo ⟨by omega, (hnd (i + 1)).mp (by omega)⟩
    subst h0
    injection hok with hw hd'
    injection hw with hw
    have hmn : min (i + 1) cl.length = i + 1 := by omega
    rw [hmn, ← hd', ← hw]
    exact ⟨rfl, hg1, hpc⟩

end

/-! ## Reading what was written -/

/-- **Read after write**: the number returned is at most the length of the data, reading that many
bytes gives them back, and the data of clusters that are not the file's did not change. -/
structure ReadAfterWrite (fs : Fat32FileSystem) (start : Nat) (data : Bytes) (d : Device) (n : Nat)
    (d' : Device) : Prop where
  bounded : n ≤ data.length
  reads : ∀ outLen out, n ≤ outLen → ∃ out', readFile fs d' start n outLen out = some (n, out')
    ∧ ∀ p, p < n → out' p = ofBytes data p
  frame : ∃ l, FileChain fs d' (start :: l) ∧ ∀ c, 2 ≤ c → c ∉ start :: l → ∀ b, b < fs.clusterSize →
    d'.bytes (clusterAddress fs c + b) = d.bytes (clusterAddress fs c + b)

/-- How many clusters the loop of `write_file` goes through. -/
def clustersWritten (fs : Fat32FileSystem) (d : Device) (chain : List Nat) (data : Bytes) : Nat :=
  min ((data.length + fs.clusterSize - 1) / fs.clusterSize) (pool fs d chain).length

/-- When writing at the start of a file can be read back. Less than a cluster: nothing, at least a
sector (of which one sector is written), or clusters of one sector. More: the clusters gone through
are all filled by the data, their number is one `read_file` can follow, the last piece of the data
equals the first, and the other clusters held their pieces before. -/
def WritesBack (fs : Fat32FileSystem) (d : Device) (chain : List Nat) (data : Bytes) : Prop :=
  if data.length < fs.clusterSize then
    data.length = 0 ∨ SECTOR_SIZE ≤ data.length ∨ fs.clusterSize = SECTOR_SIZE
  else
    let j := clustersWritten fs d chain data
    j * fs.clusterSize ≤ data.length ∧ j ≤ 65536
      ∧ (∀ b, b < fs.clusterSize → ofBytes data ((j - 1) * fs.clusterSize + b) = ofBytes data b)
      ∧ ∀ i, 0 < i → i < j → ∀ b, b < fs.clusterSize →
          d.bytes (clusterAddress fs ((pool fs d chain).getD i 0) + b)
            = ofBytes data (i * fs.clusterSize + b)

variable {start : Nat} {l : List Nat}

lemma FileChain.walk_eq (h : FileChain fs d (start :: l)) {i : Nat}
    (hi : i < (start :: l).length) : walk fs d start i = (start :: l)[i] :=
  h.chain.iterate hi

lemma FileChain.reaches_iff (hl : Layout fs) (h : FileChain fs d (start :: l)) {k : Nat}
    (hk : k < (start :: l).length) : Reaches fs d start k ↔ k < 65536 := by
  refine ⟨fun hrc => hrc.limit, fun hlm => ⟨?_, ?_, hlm⟩⟩
  · intro i hi
    have hrange := h.range _ (getElem_mem (lt_of_le_of_lt hi hk))
    rw [h.walk_eq (lt_of_le_of_lt hi hk)]
    exact ⟨hrange.1, (lt_eoc hl hrange.2).2⟩
  intro i hi
  have hln : i + 1 < (start :: l).length := by omega
  have hrange := h.range _ (getElem_mem hln)
  rw [h.walk_eq hln, h.walk_eq (Nat.lt_of_succ_lt hln)]
  refine ⟨?_, Nat.ne_of_lt (lt_eoc hl hrange.2).1⟩
  intro heq
  have := (h.nodup.getElem_inj_iff).mp heq
  omega

lemma FileChain.reads_iff (hl : Layout fs) (hd : AllOk d) (h : FileChain fs d (start :: l))
    {n : Nat} (src : Store) (hsz : n ≤ (start :: l).length * fs.clusterSize)
    (hea : ¬ EndsEarly fs d start n) :
    (∀ outLen out, n ≤ outLen → ∃ out', readFile fs d start n outLen out = some (n, out')
        ∧ ∀ p, p < n → out' p = src p)
      ↔ n ≤ 65536 * fs.clusterSize ∧ ∀ p, p < n → chainBytes fs d start p = src p := by
  have hcp : ∀ (out : Store) (p : Nat), p < n →
      out.blit 0 n (chainBytes fs d start) p = chainBytes fs d start p := by
    intro out p hp
    have hin := blit_inside out 0 n (chainBytes fs d start) hp
    rwa [zero_add] at hin
  constructor
  · intro hrs
    obtain ⟨out', hrd, hsr⟩ := hrs n (fun _ => 0) (le_refl n)
    have hsc := (readFile_spec fs start hd.readable n n fun _ => 0).2
    rw [min_self] at hsc
    obtain ⟨w, hrd', _, hrc, _⟩ := hsc hea
    rw [hrd] at hrd'
    injection hrd' with hpr
    injection hpr with hw ho
    subst hw ho
    refine ⟨?_, fun p hp => (hcp _ p hp).symm.trans (hsr p hp)⟩
    by_contra hbg
    exact absurd (hrc 65536 (by omega)).limit (lt_irrefl _)
  rintro ⟨hsm, hsr⟩ outLen out hln
  have hsc := (readFile_spec fs start hd.readable n outLen out).2
  rw [min_eq_left hln] at hsc
  obtain ⟨w, hrd, _, _, hso⟩ := hsc hea
  have hw : w = n := by
    by_contra hne
    obtain ⟨k, rfl, hnt⟩ := hso (by omega)
    have hkn : k * fs.clusterSize < n := by omega
    have hkl : k < (start :: l).length := Nat.lt_of_mul_lt_mul_right (Nat.lt_of_lt_of_le hkn hsz)
    have hk : k < 65536 := Nat.lt_of_mul_lt_mul_right (Nat.lt_of_lt_of_le hkn hsm)
    exact hnt ((h.reaches_iff hl hkl).mpr hk)
  subst hw
  exact ⟨_, hrd, fun p hp => (hcp out p hp).trans (hsr p hp)⟩

lemma writeFile_zero (hs0 : 2 ≤ start) (data : Bytes) : writeFile fs start 0 data d
      = if data.length ≥ fs.clusterSize then writeClusters fs data (fs.firstSector start)
            ((data.length + fs.clusterSize - 1) / fs.clusterSize) 0 start d
        else writePartial data (fs.firstSector start) 0 d := by
  have hsk : seekCluster fs 0 0 start d = (.ok start, d) := rfl
  unfold writeFile
  rw [Nat.zero_div, bind_of_ok hsk, bind_of_ok (ofOption_checkedSub hs0 d)]
  by_cases hlg : data.length ≥ fs.clusterSize
  · rw [if_pos hlg, if_pos ⟨rfl, hlg⟩]
    rfl
  · rw [if_neg hlg, if_neg (fun h => hlg h.2)]
    rfl

/-! ### Less than a cluster -/

lemma writePartial_zero (hd : AllOk d) (data : Bytes) :
    writePartial data (fs.firstSector start) 0 d = (.ok (min data.length SECTOR_SIZE),
          d.patch (clusterAddress fs start) (min data.length SECTOR_SIZE) (ofBytes data)) := by
  have had := firstSector_address fs start 0
  rw [Nat.add_zero, Nat.zero_mul] at had
  unfold writePartial
  rw [Nat.zero_div, Nat.zero_mod, Nat.add_zero, bind_of_ok (readSector_ok hd _),
    bind_of_ok (writeSector_ok hd _ _), had, blit_blit_window _ _ (by omega), Nat.add_zero]
  rfl

lemma readAfterWrite_small_iff (hl : Layout fs) (hd : AllOk d)
    (hch : FileChain fs d (start :: l)) (hsm : data.length < fs.clusterSize) :
    ReadAfterWrite fs start data d (min data.length SECTOR_SIZE)
        (d.patch (clusterAddress fs start) (min data.length SECTOR_SIZE) (ofBytes data))
      ↔ data.length = 0 ∨ SECTOR_SIZE ≤ data.length ∨ fs.clusterSize = SECTOR_SIZE := by
  have hs0 := (hch.range start mem_cons_self).1
  have hch' := hch.patch hl hd (min data.length SECTOR_SIZE) (ofBytes data)
    (dataAddress_le_cluster fs start)
  have hd' := hd.patch (clusterAddress fs start) (min data.length SECTOR_SIZE) (ofBytes data)
  generalize hpt : d.patch (clusterAddress fs start) (min data.length SECTOR_SIZE)
    (ofBytes data) = d' at *
  generalize hn : min data.length SECTOR_SIZE = n at *
  have hlt : n < fs.clusterSize := by omega
  have hrc : Reaches fs d' start (n / fs.clusterSize) := by
    rw [div_eq_of_lt hlt]
    exact (hch'.reaches_iff hl (by simp)).mpr (by decide)
  have hea : EndsEarly fs d' start n ↔ n % SECTOR_SIZE ≠ 0 ∧ n + SECTOR_SIZE < fs.clusterSize := by
    unfold EndsEarly
    rw [mod_eq_of_lt hlt]
    exact ⟨fun h => ⟨h.1, h.2.1⟩, fun h => ⟨h.1, h.2, hrc⟩⟩
  constructor
  · intro hba
    by_contra hcd
    obtain ⟨_, _⟩ := fs.clusterSize_dvd
    have hno := (readFile_spec fs start hd'.readable n n fun _ => 0).1
    rw [min_self, hea] at hno
    obtain ⟨_, hrd, _⟩ := hba.reads n (fun _ => 0) (le_refl n)
    rw [hno (by unfold SECTOR_SIZE at *; omega)] at hrd
    cases hrd
  intro hcd
  have hnt : ¬ EndsEarly fs d' start n := by
    rw [hea]
    unfold SECTOR_SIZE at *
    omega
  have hon : fs.clusterSize ≤ (start :: l).length * fs.clusterSize :=
    Nat.le_mul_of_pos_left _ (by simp)
  refine ⟨by omega, ?_, l, hch', ?_⟩
  · refine (hch'.reads_iff hl hd' _ (by omega) hnt).mpr ⟨by omega, ?_⟩
    intro p hp
    have hby := chainBytes_cluster fs d' start 0 (lt_trans hp hlt)
    rw [zero_mul, zero_add] at hby
    rw [hby, ← hpt]
    exact blit_inside _ _ _ _ hp
  intro c hc hnn b hb
  have hne : c ≠ start := fun h => hnn (by simp [h])
  have hap := clusters_apart hc hs0 hne hb
  unfold InCluster at hap
  rw [← hpt]
  exact blit_outside _ _ (by omega)

/-! ### A cluster and more -/

lemma lt_clustersNeeded_iff (fs : Fat32FileSystem) (n j : Nat) :
    j < (n + fs.clusterSize - 1) / fs.clusterSize ↔ j * fs.clusterSize < n := by
  have hp := fs.clusterSize_pos
  rw [lt_div_iff_mul_lt hp]
  omega

lemma grown_start (hd : AllOk d) (hch : FileChain fs d (start :: l)) :
    Grown fs d start (pool fs d (start :: l)) (start :: l).length d where
  allOk := hd
  chain := by
    unfold pool
    rw [take_left]
    exact hch.chain
  free := by
    unfold pool
    rw [drop_left]
  data := fun _ _ _ => rfl

lemma writeClusters_start (hl : Layout fs) (hd : AllOk d) (hch : FileChain fs d (start :: l))
    {n : Nat} (hlg : fs.clusterSize ≤ data.length)
    (hok : writeClusters fs data (fs.firstSector start)
      ((data.length + fs.clusterSize - 1) / fs.clusterSize) 0 start d = (.ok n, d')) :
    n = clustersWritten fs d (start :: l) data * fs.clusterSize
      ∧ Grown fs d start (pool fs d (start :: l))
          (max (start :: l).length (clustersWritten fs d (start :: l) data)) d'
      ∧ ∀ b, b < fs.clusterSize → d'.bytes (clusterAddress fs start + b)
          = ofBytes data ((clustersWritten fs d (start :: l) data - 1) * fs.clusterSize + b) := by
  have hnd : ∀ j, j < 0 + (data.length + fs.clusterSize - 1) / fs.clusterSize
      ↔ j * fs.clusterSize < data.length := by
    intro j
    rw [zero_add]
    exact lt_clustersNeeded_iff fs data.length j
  have hp : 0 < (data.length + fs.clusterSize - 1) / fs.clusterSize := by
    rw [lt_clustersNeeded_iff, zero_mul]
    exact lt_of_lt_of_le fs.clusterSize_pos hlg
  have hln : (start :: l).length ≤ (pool fs d (start :: l)).length := by
    unfold pool
    rw [length_append]
    exact le_add_right _ _
  have hg := grown_start hd hch
  have hon : max (start :: l).length (0 + 1) = (start :: l).length := by
    rw [length_cons]
    omega
  have hsc := writeClusters_ok hl (pool_nodup hch) (pool_range hl hch) hln _ 0
    (lt_of_lt_of_le (by simp) hln) hp hnd (by rw [hon]; exact hg)
    (by rw [zero_mul]; exact hok)
  rw [zero_add] at hsc
  exact hsc

lemma Grown.chainBytes_eq {cl : List Nat} {m : Nat} (hnodup : (start :: cl).Nodup)
    (hrange : ∀ c ∈ start :: cl, 2 ≤ c ∧ c < fs.fatCapacity)
    (hg : Grown fs d start (start :: cl) (m + 1) d') (hm : m ≤ cl.length) {i b : Nat}
    (hi : 0 < i) (him : i < m + 1) (hb : b < fs.clusterSize) :
    chainBytes fs d' start (i * fs.clusterSize + b)
      = d.bytes (clusterAddress fs ((start :: cl).getD i 0) + b) := by
  have hln : i < (start :: cl).length := by
    rw [length_cons]
    omega
  have hwl : walk fs d' start i = (start :: cl)[i] := by
    have hfi := hg.fileChain hnodup hrange
    rw [hfi.walk_eq (by rw [length_cons, length_take]; omega)]
    simp only [← take_succ_cons, getElem_take]
  have hne : (start :: cl)[i] ≠ start := by
    intro heq
    have h0 : (start :: cl)[i] = (start :: cl)[0] := heq
    have := hnodup.getElem_inj_iff.mp h0
    omega
  rw [chainBytes_cluster fs d' start i hb, hwl, getD_eq_getElem _ _ hln]
  refine hg.data _ (le_trans (dataAddress_le_cluster fs _) (le_add_right _ _)) ?_
  exact clusters_apart (hrange _ (getElem_mem hln)).1 (hrange start mem_cons_self).1 hne hb

lemma Grown.readAfterWrite_iff (hl : Layout fs) {cl : List Nat} {m j : Nat}
    (hnodup : (start :: cl).Nodup) (hrange : ∀ c ∈ start :: cl, 2 ≤ c ∧ c < fs.fatCapacity)
    (hg : Grown fs d start (start :: cl) (m + 1) d') (hm : m ≤ cl.length) (hj : 0 < j)
    (hjm : j ≤ m + 1) (hpc : ∀ b, b < fs.clusterSize → d'.bytes (clusterAddress fs start + b)
      = ofBytes data ((j - 1) * fs.clusterSize + b)) :
    ReadAfterWrite fs start data d (j * fs.clusterSize) d'
      ↔ j * fs.clusterSize ≤ data.length ∧ j ≤ 65536
        ∧ (∀ b, b < fs.clusterSize → ofBytes data ((j - 1) * fs.clusterSize + b) = ofBytes data b)
        ∧ ∀ i, 0 < i → i < j → ∀ b, b < fs.clusterSize →
            d.bytes (clusterAddress fs ((start :: cl).getD i 0) + b)
              = ofBytes data (i * fs.clusterSize + b) := by
  have hps := fs.clusterSize_pos
  have hfi := hg.fileChain hnodup hrange
  have hln : (start :: cl.take m).length = m + 1 := by rw [length_cons, length_take, min_eq_left hm]
  have hrs := hfi.reads_iff hl hg.allOk (ofBytes data)
    (by rw [hln]; exact mul_le_mul_right _ hjm) (not_endsEarly_mul j)
  have hfs : ∀ b, b < fs.clusterSize →
      chainBytes fs d' start b = ofBytes data ((j - 1) * fs.clusterSize + b) := by
    intro b hb
    have hbt := chainBytes_cluster fs d' start 0 hb
    rw [zero_mul, zero_add] at hbt
    rw [hbt]
    exact hpc b hb
  have hin : ∀ i b, i < j → b < fs.clusterSize → i * fs.clusterSize + b < j * fs.clusterSize := by
    intro i b hi hb
    have hs : (i + 1) * fs.clusterSize ≤ j * fs.clusterSize := mul_le_mul_right _ hi
    rw [succ_mul] at hs
    omega
  constructor
  · rintro ⟨hbd, hrd, _⟩
    obtain ⟨hlm, hby⟩ := hrs.mp hrd
    refine ⟨hbd, le_of_mul_le_mul_right hlm hps, ?_, ?_⟩
    · intro b hb
      have hb0 := hin 0 b hj hb
      rw [zero_mul, zero_add] at hb0
      rw [← hfs b hb, hby b hb0]
    intro i hi hij b hb
    rw [← hg.chainBytes_eq hnodup hrange hm hi (by omega) hb]
    exact hby _ (hin i b hij hb)
  rintro ⟨hbd, hlm, hla, hold⟩
  refine ⟨hbd, hrs.mpr ⟨mul_le_mul_right _ hlm, ?_⟩, cl.take m, hfi, ?_⟩
  · intro p hp
    -- split the position into cluster and offset
    have hsp : p / fs.clusterSize * fs.clusterSize + p % fs.clusterSize = p := by
      rw [mul_comm]
      exact div_add_mod p fs.clusterSize
    have hmd := mod_lt p hps
    have hdv : p / fs.clusterSize < j := (div_lt_iff_lt_mul hps).mpr hp
    by_cases h0 : p / fs.clusterSize = 0
    · rw [h0, zero_mul, zero_add] at hsp
      rw [← hsp, hfs _ hmd]
      exact hla _ hmd
    have hp' := pos_of_ne_zero h0
    rw [← hsp, hg.chainBytes_eq hnodup hrange hm hp' (lt_of_lt_of_le hdv hjm) hmd]
    exact hold _ hp' hdv _ hmd
  intro c hc hnt b hb
  have hne : c ≠ start := fun h => hnt (by simp [h])
  refine hg.data _ (le_trans (dataAddress_le_cluster fs c) (le_add_right _ _)) ?_
  exact clusters_apart hc (hrange start mem_cons_self).1 hne hb

/-- **Read after write.** When `write_file(start, 0, data)` returns, what it returns can be read
back and nothing else changed if and only if `WritesBack` held before. -/
theorem writeFile_reads_back_iff (hl : Layout fs) (hd : AllOk d)
    (hchain : FileChain fs d (start :: l)) {data : Bytes} {n : Nat}
    (hok : writeFile fs start 0 data d = (.ok n, d')) :
    ReadAfterWrite fs start data d n d' ↔ WritesBack fs d (start :: l) data := by
  rw [writeFile_zero (hchain.range start mem_cons_self).1] at hok
  unfold WritesBack
  by_cases hsm : data.length < fs.clusterSize
  · rw [if_neg (by omega), writePartial_zero hd] at hok
    injection hok with hn hd'
    injection hn with hn
    rw [if_pos hsm, ← hn, ← hd']
    exact readAfterWrite_small_iff hl hd hchain hsm
  rw [if_pos (by omega)] at hok
  rw [if_neg hsm]
  have hlg : fs.clusterSize ≤ data.length := by omega
  obtain ⟨hn, hg, hpc⟩ := writeClusters_start hl hd hchain hlg hok
  have hne : 0 < (data.length + fs.clusterSize - 1) / fs.clusterSize := by
    rw [lt_clustersNeeded_iff, zero_mul]
    exact Nat.lt_of_lt_of_le fs.clusterSize_pos hlg
  have hj : 0 < clustersWritten fs d (start :: l) data := Nat.lt_min.mpr ⟨hne, by simp [pool]⟩
  have hjp : clustersWritten fs d (start :: l) data ≤ (pool fs d (start :: l)).length :=
    Nat.min_le_right _ _
  have hpl : pool fs d (start :: l) = start :: (l ++ freeClusters fs d) := rfl
  have hnodup := pool_nodup hchain
  have hrange := pool_range hl hchain
  rw [hn]
  generalize clustersWritten fs d (start :: l) data = j at *
  rw [hpl] at *
  obtain ⟨m, hm⟩ : ∃ m, max (start :: l).length j = m + 1 := ⟨max (start :: l).length j - 1, by omega⟩
  rw [hm] at hg
  have hml : m ≤ (l ++ freeClusters fs d).length := by
    simp only [length_cons, length_append] at hm hjp ⊢
    omega
  exact hg.readAfterWrite_iff hl hnodup hrange hml hj (by omega) hpc

/-! ### Runs -/

theorem writeFile_reads_back_short :
    WritesBack (smallVolume 0) (imageOf [0, 0, FAT32_EOC] fun _ => 0) [2] [7, 8, 9]
      ∧ ReadAfterWrite (smallVolume 0) 2 [7, 8, 9] (imageOf [0, 0, FAT32_EOC] fun _ => 0) 3
          (writeFile (smallVolume 0) 2 0 [7, 8, 9] (imageOf [0, 0, FAT32_EOC] fun _ => 0)).2 := by
  have hch : FileChain (smallVolume 0) (imageOf [0, 0, FAT32_EOC] fun _ => 0) [2] :=
    ⟨by show readFatEntry _ _ 2 = _; decide +kernel, by decide, by decide⟩
  have hba : WritesBack (smallVolume 0) (imageOf [0, 0, FAT32_EOC] fun _ => 0) [2] [7, 8, 9] := by
    exact Or.inr (Or.inr rfl)
  refine ⟨hba, (writeFile_reads_back_iff (smallVolume_layout 0) (imageOf_allOk _ _) hch ?_).mpr hba⟩
  exact Prod.ext (by decide +kernel) rfl

theorem writeFile_overwrites : let d := imageOf [0, 0, 3, FAT32_EOC] fun _ => 0
    let data := List.replicate 512 1 ++ List.replicate 512 2
    let written := writeFile (smallVolume 0) 2 0 data d
    FileChain (smallVolume 0) d [2, 3] ∧ written.1 = .ok 1024
      ∧ (readFile (smallVolume 0) written.2 2 1024 1024 fun _ => 0).map (fun r => (r.1, r.2 0))
        = some (1024, 2)
      ∧ data.head? = some 1 := by
  refine ⟨⟨⟨by decide +kernel, by show readFatEntry _ _ 3 = _; decide +kernel⟩, by decide, by decide⟩,
    by decide +kernel, by decide +kernel, by decide⟩

end Nt61.Fat32
