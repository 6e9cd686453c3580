/-
ReadFile — `read_file`: the bytes of a file along its cluster chain.

`out` has no end and `outLen` is the buffer's length: a raw-pointer write past it would change the
bytes behind it. Whole clusters are always copied right; the last, partial one is copied sector by
sector with `to_copy - s * 512`, which UNDERFLOWS as soon as a sector starts behind the end of the
data (`copySectors_none`).
-/
import Nt61.Fs.Fat32.Cluster
import Nt61.Lib.Scan

namespace Nt61.Fat32

open Lib Nat Option

/-! ## The code -/

/-- `n` sectors from the `s`-th on. A sector that cannot be read is skipped. -/
def copySectors (d : Device) (firstSector toCopy written : Nat) : Nat → Nat → Store → Option Store
  | 0, _, out => some out
  | n + 1, s, out =>
    if d.readable (firstSector + s) then do
      let rest ← checkedSub toCopy (s * SECTOR_SIZE)
      let copy := min SECTOR_SIZE rest
      if copy = 0 then some out
      else
        copySectors d firstSector toCopy written n (s + 1)
          (out.blit (written + s * SECTOR_SIZE) copy
            (d.bytes.window ((firstSector + s) * SECTOR_SIZE)))
    else copySectors d firstSector toCopy written n (s + 1) out

/-- The cluster loop, for at most `n` more clusters. -/
def readLoop (fs : Fat32FileSystem) (d : Device) (fileSize outLen : Nat) :
    Nat → Nat → Nat → Store → Option (Nat × Store)
  | 0, _, written, out => some (written, out)
  | n + 1, current, written, out =>
    if 2 ≤ current ∧ current < FAT32_EOC ∧ written < fileSize then do
      let left ← checkedSub fileSize written
      let room ← checkedSub outLen written
      let toCopy := min (min fs.clusterSize left) room
      if toCopy = 0 then some (written, out)
      else do
        let out ← copySectors d (fs.firstSector current) toCopy written fs.sectorsPerCluster 0 out
        let written := written + toCopy
        if fileSize ≤ fs.clusterSize then some (written, out)
        else
          let next := readFatEntry fs d current
          if next = current ∨ next = FAT32_BAD then some (written, out)
          else readLoop fs d fileSize outLen n next written out
    else some (written, out)

/-- Read a file into `out`: the number of bytes reported as read, and the memory afterwards. -/
def readFile (fs : Fat32FileSystem) (d : Device) (startCluster fileSize outLen : Nat) (out : Store) :
    Option (Nat × Store) :=
  let maxIterations := min (fileSize / fs.clusterSize + 1) 65536
  readLoop fs d fileSize outLen maxIterations startCluster 0 out

/-! ## Whole and partial clusters -/

lemma window_next_sector (m : Store) (first s : Nat) :
    (m.window ((first + s) * SECTOR_SIZE)).window SECTOR_SIZE
      = m.window ((first + (s + 1)) * SECTOR_SIZE) := by
  rw [Store.window_window, ← add_assoc, succ_mul]

lemma copySectors_some {d : Device} (hd : ∀ s, d.readable s = true) {first t written : Nat}
    (n s : Nat) (out : Store) (hs : s * SECTOR_SIZE ≤ t) (hft : t ≤ (s + n) * SECTOR_SIZE)
    (he : t % SECTOR_SIZE = 0 ∨ (s + n) * SECTOR_SIZE < t + SECTOR_SIZE) :
    copySectors d first t written n s out
      = some (out.blit (written + s * SECTOR_SIZE) (t - s * SECTOR_SIZE)
          (d.bytes.window ((first + s) * SECTOR_SIZE))) := by
  induction n generalizing s out with
  | zero =>
    have h0 : t - s * SECTOR_SIZE = 0 := Nat.sub_eq_zero_of_le hft
    rw [h0, Store.blit_zero]
    rfl
  | succ n ih =>
    unfold copySectors
    rw [if_pos (hd _), checkedSub_of_le hs]
    simp only [bind_eq_bind, bind_some]
    by_cases h0 : t - s * SECTOR_SIZE = 0
    · rw [h0, Store.blit_zero, if_pos (by simp)]
    by_cases hwh : SECTOR_SIZE ≤ t - s * SECTOR_SIZE
    · -- a whole sector, and the rest of the cluster after it
      have hst : (s + 1) * SECTOR_SIZE = s * SECTOR_SIZE + SECTOR_SIZE := succ_mul _ _
      have hmn : min SECTOR_SIZE (t - s * SECTOR_SIZE) = SECTOR_SIZE := min_eq_left hwh
      have hsm : (s + 1 + n) * SECTOR_SIZE = (s + (n + 1)) * SECTOR_SIZE := by
        rw [Nat.add_assoc, Nat.add_comm 1 n]
      rw [hmn, if_neg (by decide), ih (s + 1) _ (by omega) (by omega) (by rw [hsm]; exact he),
        ← window_next_sector, hst, ← Nat.add_assoc, Store.blit_blit_adjacent, ← Nat.sub_sub,
        Nat.add_sub_cancel' hwh]
    -- a partial sector: it is the last one
    have hn : n = 0 := by
      unfold SECTOR_SIZE at *
      omega
    have hmn : min SECTOR_SIZE (t - s * SECTOR_SIZE) = t - s * SECTOR_SIZE :=
      min_eq_right (by omega)
    subst hn
    rw [hmn, if_neg h0]
    rfl

lemma copySectors_none {d : Device} (hd : ∀ s, d.readable s = true) {first t written : Nat}
    (n s : Nat) (out : Store) (hs : s * SECTOR_SIZE < t + SECTOR_SIZE) (hpt : t % SECTOR_SIZE ≠ 0)
    (hbh : t + SECTOR_SIZE < (s + n) * SECTOR_SIZE) :
    copySectors d first t written n s out = none := by
  induction n generalizing s out with
  | zero => exact absurd hs (not_lt_of_ge (le_of_lt hbh))
  | succ n ih =>
    unfold copySectors
    rw [if_pos (hd _)]
    by_cases hle : s * SECTOR_SIZE ≤ t
    · have hlt : s * SECTOR_SIZE < t := by
        refine lt_of_le_of_ne hle ?_
        rintro rfl
        exact hpt (mul_mod_left s SECTOR_SIZE)
      have hp : 0 < SECTOR_SIZE := by decide
      have hne : min SECTOR_SIZE (t - s * SECTOR_SIZE) ≠ 0 := by omega
      have hst : (s + 1) * SECTOR_SIZE = s * SECTOR_SIZE + SECTOR_SIZE := succ_mul _ _
      rw [checkedSub_of_le hle]
      simp only [bind_eq_bind, bind_some]
      rw [if_neg hne]
      refine ih (s + 1) _ (by omega) ?_
      rw [add_assoc, add_comm 1 n]
      exact hbh
    have hsb : checkedSub t (s * SECTOR_SIZE) = none := if_neg hle
    rw [hsb]
    rfl

/-! ## The walk along the table -/

section

variable (fs : Fat32FileSystem) (d : Device) (start : Nat)

def walk (i : Nat) : Nat := (readFatEntry fs d)^[i] start

/-- The byte of the cluster chain at a file position. -/
def chainBytes : Store := fun p =>
  d.bytes (clusterAddress fs (walk fs d start (p / fs.clusterSize)) + p % fs.clusterSize)

/-- The walk gets to its `k`-th cluster: so far every cluster number is a data cluster, no step
stays on its cluster or hits a bad one, and the limit on iterations is not reached. -/
structure Reaches (k : Nat) : Prop where
  cluster : ∀ i, i ≤ k → 2 ≤ walk fs d start i ∧ walk fs d start i < FAT32_EOC
  step : ∀ i, i < k →
    walk fs d start (i + 1) ≠ walk fs d start i ∧ walk fs d start (i + 1) ≠ FAT32_BAD
  limit : k < 65536

/-- Reading `m` bytes ends inside a cluster, inside a sector, with a whole sector of the cluster to
come after it. -/
def EndsEarly (m : Nat) : Prop :=
  m % fs.clusterSize % SECTOR_SIZE ≠ 0 ∧ m % fs.clusterSize + SECTOR_SIZE < fs.clusterSize
    ∧ Reaches fs d start (m / fs.clusterSize)

end

variable {fs : Fat32FileSystem} {d : Device} {start : Nat}

lemma walk_succ (i : Nat) : walk fs d start (i + 1) = readFatEntry fs d (walk fs d start i) :=
  Function.iterate_succ_apply' _ _ _

lemma chainBytes_cluster (fs : Fat32FileSystem) (d : Device) (start i : Nat) {j : Nat}
    (hj : j < fs.clusterSize) : chainBytes fs d start (i * fs.clusterSize + j)
      = d.bytes (clusterAddress fs (walk fs d start i) + j) := by
  unfold chainBytes
  rw [row_div hj, row_mod hj]

lemma blit_chain_cluster (out : Store) {i t : Nat} (ht : t ≤ fs.clusterSize) :
    (out.blit 0 (i * fs.clusterSize) (chainBytes fs d start)).blit (i * fs.clusterSize) t
        (d.bytes.window (clusterAddress fs (walk fs d start i)))
      = out.blit 0 (i * fs.clusterSize + t) (chainBytes fs d start) := by
  have hsr : ∀ j, j < t → d.bytes.window (clusterAddress fs (walk fs d start i)) j
      = (chainBytes fs d start).window (i * fs.clusterSize) j := by
    intro j hj
    exact (chainBytes_cluster fs d start i (lt_of_lt_of_le hj ht)).symm
  rw [Store.blit_congr _ hsr]
  have hjo := Store.blit_blit_adjacent out 0 (i * fs.clusterSize) t (chainBytes fs d start)
  rwa [zero_add] at hjo

lemma copySectors_cluster (hd : ∀ s, d.readable s = true) (out : Store) {i t : Nat}
    (ht : t ≤ fs.clusterSize) (he : t % SECTOR_SIZE = 0 ∨ fs.clusterSize < t + SECTOR_SIZE) :
    copySectors d (fs.firstSector (walk fs d start i)) t (i * fs.clusterSize) fs.sectorsPerCluster 0
        (out.blit 0 (i * fs.clusterSize) (chainBytes fs d start))
      = some (out.blit 0 (i * fs.clusterSize + t) (chainBytes fs d start)) := by
  have hsz : (0 + fs.sectorsPerCluster) * SECTOR_SIZE = fs.clusterSize := by
    rw [Nat.zero_add, ← clusterSize_eq]
  rw [copySectors_some hd _ 0 _ (by simp) (by rw [hsz]; exact ht) (by rw [hsz]; exact he),
    firstSector_address, ← blit_chain_cluster out ht]
  simp only [Nat.zero_mul, Nat.add_zero, Nat.sub_zero]

/-! ## The loop -/

lemma readLoop_full (fileSize outLen n current : Nat) (out : Store) :
    readLoop fs d fileSize outLen n current (min fileSize outLen) out
      = some (min fileSize outLen, out) := by
  cases n with
  | zero => rfl
  | succ n =>
    unfold readLoop
    by_cases hgd : 2 ≤ current ∧ current < FAT32_EOC ∧ min fileSize outLen < fileSize
    · have hl : min fileSize outLen = outLen := min_eq_right (by omega)
      rw [hl, checkedSub_of_le (by omega), checkedSub_of_le (le_refl _)]
      simp
    · rw [if_neg hgd]

lemma toCopy_eq (cs fileSize outLen written : Nat) :
    min (min cs (fileSize - written)) (outLen - written)
      = min cs (min fileSize outLen - written) := by
  omega

lemma readLoop_step {fileSize outLen n current written : Nat} (out : Store)
    (hcr : 2 ≤ current ∧ current < FAT32_EOC) (hlf : written < min fileSize outLen) :
    readLoop fs d fileSize outLen (n + 1) current written out
      = (copySectors d (fs.firstSector current)
          (min fs.clusterSize (min fileSize outLen - written)) written fs.sectorsPerCluster 0
          out).bind fun out =>
        let written := written + min fs.clusterSize (min fileSize outLen - written)
        if fileSize ≤ fs.clusterSize then some (written, out)
        else
          let next := readFatEntry fs d current
          if next = current ∨ next = FAT32_BAD then some (written, out)
          else readLoop fs d fileSize outLen n next written out := by
  have hp := fs.clusterSize_pos
  rw [readLoop, if_pos ⟨hcr.1, hcr.2, by omega⟩, checkedSub_of_le (by omega),
    checkedSub_of_le (by omega)]
  simp only [bind_eq_bind, bind_some]
  rw [toCopy_eq, if_neg (by omega)]

/-- What reading `m` bytes comes to: `w` of them are copied, from clusters the walk reaches, and
fewer than `m` only when the walk ends first. -/
def ReadsTo (fs : Fat32FileSystem) (d : Device) (start m : Nat) (out : Store)
    (result : Option (Nat × Store)) : Prop :=
  ∃ w, result = some (w, out.blit 0 w (chainBytes fs d start)) ∧ w ≤ m
    ∧ (∀ k, k * fs.clusterSize < w → Reaches fs d start k)
    ∧ (w < m → ∃ k, w = k * fs.clusterSize ∧ ¬ Reaches fs d start k)

/-- Panics exactly when the data ends early in a cluster, and reads otherwise. -/
def Outcome (fs : Fat32FileSystem) (d : Device) (start m : Nat) (out : Store)
    (result : Option (Nat × Store)) : Prop :=
  (EndsEarly fs d start m → result = none)
    ∧ (¬ EndsEarly fs d start m → ReadsTo fs d start m out result)

lemma Reaches.mono {k q : Nat} (h : Reaches fs d start q) (hk : k ≤ q) : Reaches fs d start k :=
  ⟨fun i hi => h.cluster i (le_trans hi hk), fun i hi => h.step i (lt_of_lt_of_le hi hk),
    lt_of_le_of_lt hk h.limit⟩

variable {out : Store}

lemma Outcome.of_stopped {m k : Nat} (hk : k * fs.clusterSize ≤ m)
    (hpv : ∀ j, j < k → Reaches fs d start j) (hso : ¬ Reaches fs d start k) :
    Outcome fs d start m out
      (some (k * fs.clusterSize, out.blit 0 (k * fs.clusterSize) (chainBytes fs d start))) := by
  refine ⟨?_, fun _ => ⟨_, rfl, hk, ?_, fun _ => ⟨k, rfl, hso⟩⟩⟩
  · intro hea
    have hle : k ≤ m / fs.clusterSize := (le_div_iff_mul_le fs.clusterSize_pos).mpr hk
    exact absurd (hea.2.2.mono hle) hso
  · intro j hj
    exact hpv j (Nat.lt_of_mul_lt_mul_right hj)

lemma Outcome.of_full {m k : Nat} (h : ¬ EndsEarly fs d start m)
    (hm : m ≤ k * fs.clusterSize) (hpv : ∀ j, j < k → Reaches fs d start j) :
    Outcome fs d start m out (some (m, out.blit 0 m (chainBytes fs d start))) := by
  refine ⟨fun hea => absurd hea h, fun _ => ⟨m, rfl, Nat.le_refl m, ?_, ?_⟩⟩
  · intro j hj
    exact hpv j (Nat.lt_of_mul_lt_mul_right (Nat.lt_of_lt_of_le hj hm))
  · intro hlt
    exact absurd hlt (Nat.lt_irrefl m)

lemma not_endsEarly_mul (k : Nat) : ¬ EndsEarly fs d start (k * fs.clusterSize) := by
  intro h
  apply h.1
  rw [mul_mod_left, zero_mod]

lemma sector_end_of_not_endsEarly {m : Nat} (hrc : Reaches fs d start (m / fs.clusterSize))
    (h : ¬ EndsEarly fs d start m) :
    m % fs.clusterSize % SECTOR_SIZE = 0 ∨ fs.clusterSize < m % fs.clusterSize + SECTOR_SIZE := by
  by_cases hmd : m % fs.clusterSize % SECTOR_SIZE = 0
  · exact Or.inl hmd
  have hge : fs.clusterSize ≤ m % fs.clusterSize + SECTOR_SIZE := by
    by_contra hlt
    exact h ⟨hmd, by omega, hrc⟩
  have hne : fs.clusterSize ≠ m % fs.clusterSize + SECTOR_SIZE := by
    intro heq
    have hdv := fs.clusterSize_dvd
    rw [heq] at hdv
    exact hmd (Nat.mod_eq_zero_of_dvd ((Nat.dvd_add_left (Nat.dvd_refl _)).mp hdv))
  exact Or.inr (Nat.lt_of_le_of_ne hge hne)

open Outcome

/-- The walk is at the cluster the data ends in. -/
lemma readLoop_partial (hd : ∀ s, d.readable s = true) {fileSize outLen n i : Nat}
    (hrc : Reaches fs d start i) (hlf : i * fs.clusterSize < min fileSize outLen)
    (hpt : min fileSize outLen < (i + 1) * fs.clusterSize) :
    Outcome fs d start (min fileSize outLen) out
      (readLoop fs d fileSize outLen (n + 1) (walk fs d start i) (i * fs.clusterSize)
        (out.blit 0 (i * fs.clusterSize) (chainBytes fs d start))) := by
  rw [readLoop_step _ (hrc.cluster i (le_refl i)) hlf]
  generalize hm : min fileSize outLen = m at *
  have hsu : (i + 1) * fs.clusterSize = i * fs.clusterSize + fs.clusterSize := Nat.succ_mul _ _
  have hqu : m / fs.clusterSize = i := Nat.div_eq_of_lt_le (Nat.le_of_lt hlf) hpt
  have hrm : m % fs.clusterSize = m - i * fs.clusterSize := by
    have := Nat.div_add_mod m fs.clusterSize
    rw [hqu, mul_comm] at this
    omega
  have hcp : min fs.clusterSize (m - i * fs.clusterSize) = m % fs.clusterSize := by omega
  have hwt : i * fs.clusterSize + m % fs.clusterSize = m := by omega
  have hlt := mod_lt m fs.clusterSize_pos
  rw [hcp]
  by_cases hea : EndsEarly fs d start m
  · rw [copySectors_none hd _ 0 _ (by simp [SECTOR_SIZE]) hea.1
      (by rw [zero_add, ← clusterSize_eq]; exact hea.2.1)]
    exact ⟨fun _ => rfl, fun hnt => absurd hea hnt⟩
  have he := sector_end_of_not_endsEarly (by rw [hqu]; exact hrc) hea
  rw [copySectors_cluster hd out (le_of_lt hlt) he]
  simp only [bind_some, hwt]
  -- all is copied; wherever the walk goes from here, the loop stops
  have hdn : Outcome fs d start m out (some (m, out.blit 0 m (chainBytes fs d start))) :=
    of_full hea (le_of_lt hpt) fun j hj => hrc.mono (by omega)
  split_ifs
  · exact hdn
  · exact hdn
  · rw [← hm, readLoop_full, hm]
    exact hdn

/-- Entered at the `i`-th cluster with `i` whole clusters copied. -/
lemma readLoop_spec (fs : Fat32FileSystem) (start : Nat) (hd : ∀ s, d.readable s = true)
    (fileSize outLen : Nat) (out : Store) (n i : Nat)
    (hn : i + n = min (fileSize / fs.clusterSize + 1) 65536)
    (hi : i * fs.clusterSize ≤ min fileSize outLen) (hpv : ∀ k, k < i → Reaches fs d start k)
    (hs : ∀ k, k < i →
      walk fs d start (k + 1) ≠ walk fs d start k ∧ walk fs d start (k + 1) ≠ FAT32_BAD) :
    Outcome fs d start (min fileSize outLen) out
      (readLoop fs d fileSize outLen n (walk fs d start i) (i * fs.clusterSize)
        (out.blit 0 (i * fs.clusterSize) (chainBytes fs d start))) := by
  induction n generalizing i with
  | zero =>
    -- the iteration limit: the size is used up first, or 65536 clusters were read
    refine of_stopped hi hpv ?_
    intro hrc
    have hlm := hrc.limit
    have hsz : fileSize / fs.clusterSize < i := by omega
    rw [div_lt_iff_lt_mul fs.clusterSize_pos] at hsz
    omega
  | succ n ih =>
    by_cases hrc : Reaches fs d start i
    · have hcr := hrc.cluster i (le_refl i)
      have hsu : (i + 1) * fs.clusterSize = i * fs.clusterSize + fs.clusterSize := succ_mul _ _
      have hup : ∀ k, k < i + 1 → Reaches fs d start k := fun k hk => hrc.mono (by omega)
      by_cases hlf : i * fs.clusterSize < min fileSize outLen
      · by_cases hpt : min fileSize outLen < (i + 1) * fs.clusterSize
        · exact readLoop_partial hd hrc hlf hpt
        -- a whole cluster, and on along the table
        have hcp : min fs.clusterSize (min fileSize outLen - i * fs.clusterSize)
            = fs.clusterSize := by omega
        have hmd : fs.clusterSize % SECTOR_SIZE = 0 := mod_eq_zero_of_dvd fs.clusterSize_dvd
        rw [readLoop_step _ hcr hlf, hcp,
          copySectors_cluster hd out (le_refl _) (Or.inl hmd), ← hsu, ← walk_succ]
        simp only [bind_some]
        split_ifs with hsm hbd
        · have hm : min fileSize outLen = (i + 1) * fs.clusterSize := by omega
          rw [hm]
          exact of_full (not_endsEarly_mul (i + 1)) (le_refl _) hup
        · refine of_stopped (by omega) hup ?_
          intro hnx
          have := hnx.step i (lt_succ_self i)
          tauto
        refine ih (i + 1) (by omega) (by omega) hup ?_
        intro k hk
        by_cases hki : k < i
        · exact hs k hki
        have : k = i := by omega
        subst this
        tauto
      have hm : min fileSize outLen = i * fs.clusterSize := by omega
      rw [← hm, readLoop_full, hm]
      exact of_full (not_endsEarly_mul i) (le_refl _) hpv
    -- the walk has left the data clusters
    have ho : ¬ (2 ≤ walk fs d start i ∧ walk fs d start i < FAT32_EOC) := by
      intro hcr
      refine hrc ⟨?_, hs, by omega⟩
      intro k hk
      rcases lt_or_eq_of_le hk with hlt | rfl
      · exact (hpv k hlt).cluster k (le_refl k)
      · exact hcr
    rw [readLoop, if_neg (fun hgd => ho ⟨hgd.1, hgd.2.1⟩)]
    exact of_stopped hi hpv hrc

lemma readFile_spec (fs : Fat32FileSystem) (start : Nat) (hd : ∀ s, d.readable s = true)
    (fileSize outLen : Nat) (out : Store) :
    Outcome fs d start (min fileSize outLen) out (readFile fs d start fileSize outLen out) := by
  have hsc := readLoop_spec fs start hd fileSize outLen out
    (min (fileSize / fs.clusterSize + 1) 65536) 0 (by omega) (by simp)
    (fun k hk => absurd hk (not_lt_zero k)) (fun k hk => absurd hk (not_lt_zero k))
  rw [zero_mul] at hsc
  exact hsc

/-- **Reading stays in its buffer** without underflow, and reports only bytes of the cluster chain,
if and only if the data does not end early in a cluster the walk reaches. -/
theorem readFile_safe_iff (hd : ∀ s, d.readable s = true) (fileSize outLen : Nat) (out : Store) :
    (∃ w out', readFile fs d start fileSize outLen out = some (w, out') ∧ w ≤ min fileSize outLen
      ∧ (∀ p, min fileSize outLen ≤ p → out' p = out p)
      ∧ (∀ p, p < w → out' p = chainBytes fs d start p))
      ↔ ¬ EndsEarly fs d start (min fileSize outLen) := by
  have hsc := readFile_spec fs start hd fileSize outLen out
  constructor
  · rintro ⟨w, out', hrd, _⟩ hea
    rw [hsc.1 hea] at hrd
    cases hrd
  intro hea
  obtain ⟨w, hrd, hle, _⟩ := hsc.2 hea
  refine ⟨w, _, hrd, hle, ?_, ?_⟩
  · intro p hp
    exact Store.blit_outside _ _ (by omega)
  intro p hp
  have := Store.blit_inside out 0 w (chainBytes fs d start) hp
  rwa [zero_add] at this

theorem readFile_safe_whole :
    ¬ EndsEarly (smallVolume 1) (imageOf [0, 0, FAT32_EOC] fun _ => 7) 2 1024
      ∧ ∃ w out', readFile (smallVolume 1) (imageOf [0, 0, FAT32_EOC] fun _ => 7) 2 1024 2000
          (fun _ => 0) = some (w, out') ∧ w ≤ 1024 ∧ (∀ p, 1024 ≤ p → out' p = 0)
        ∧ (∀ p, p < w → out' p
            = chainBytes (smallVolume 1) (imageOf [0, 0, FAT32_EOC] fun _ => 7) 2 p) := by
  have hwh : ¬ EndsEarly (smallVolume 1) (imageOf [0, 0, FAT32_EOC] fun _ => 7) 2 1024 :=
    fun h => h.1 (by decide)
  exact ⟨hwh, (readFile_safe_iff (fun _ => rfl) 1024 2000 fun _ => 0).mpr hwh⟩

/-- A file of 100 bytes in a cluster of two sectors: `100 - 512` underflows. -/
theorem readFile_underflows :
    readFile (smallVolume 1) (imageOf [0, 0, FAT32_EOC] fun _ => 7) 2 100 100 (fun _ => 0) = none := by
  decide +kernel

end Nt61.Fat32
