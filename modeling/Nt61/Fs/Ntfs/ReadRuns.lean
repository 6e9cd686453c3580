/-
ReadRuns — `read_from_run_list`: the bytes of a file along its run list.

The file is the concatenation of the clusters of its runs, with zeros for a hole. The code gives it
back unless a record is a hole (it is read as data at the cluster of the run before it), a distance
is negative and of a width whose sign is not extended, or a number leaves its 64 bits.
-/
import Nt61.Fs.Ntfs.RunList
import Mathlib.Algebra.Order.BigOperators.Group.List

namespace Nt61.Ntfs

open Lib List Option Checked Nat

/-! ## The code -/

/-- A mounted volume, as far as the reads of file data go. -/
structure NtfsVolume where
  clusterSize : Nat
  pos : 0 < clusterSize
  lt : clusterSize < 2 ^ 32
  sectors : 512 ∣ clusterSize

def clusterToSector (cluster bytesPerCluster : Nat) : Option Nat :=
  mul 64 cluster (bytesPerCluster / 512)

section

variable (vol : NtfsVolume)

/-- The offset in the run that holds it, and the runs from it on. -/
def findRun (offset : Nat) : Nat → List ClusterRun → Option (Option (Nat × List ClusterRun))
  | _, [] => some none
  | filePos, run :: runs =>
    (mul 64 run.2.toNat vol.clusterSize).bind fun size =>
    (add 64 filePos size).bind fun runEnd =>
    if offset < runEnd then
      (sub offset filePos).map fun runOffset => some (runOffset, run :: runs)
    else findRun offset runEnd runs

/-- One sector of a run, the offset being inside it; `none` is an overflow. -/
def sectorAt (startCluster currentOffset : Nat) : Option Nat :=
  let clusterOffset := currentOffset % vol.clusterSize
  (add 64 startCluster (currentOffset / vol.clusterSize)).bind fun cluster =>
  (clusterToSector cluster vol.clusterSize).bind fun sector =>
  add 64 sector (clusterOffset / 512)

variable (read : Nat → Option Bytes)

/-- Every round takes a byte of the buffer or a run, which is what the first argument counts. -/
def readLoop : Nat → List ClusterRun → Nat → Nat → Bytes → Option (Nat × Bytes)
  | 0, _, bytesRead, _, buffer => some (bytesRead, buffer)
  | _ + 1, [], bytesRead, _, buffer => some (bytesRead, buffer)
  | left + 1, run :: runs, bytesRead, currentOffset, buffer =>
    if bytesRead < buffer.length then
      (mul 64 run.2.toNat vol.clusterSize).bind fun runSize =>
      if currentOffset ≥ runSize then readLoop left runs bytesRead 0 buffer
      else
        (sectorAt vol run.1.toNat currentOffset).bind fun sector =>
        match read sector with
        | none => some (bytesRead, buffer)
        | some sectorBuf =>
          let copyStart := currentOffset % vol.clusterSize % 512
          let copyLen := min (512 - copyStart) (buffer.length - bytesRead)
          let buffer := buffer.take bytesRead ++ (sectorBuf.drop copyStart).take copyLen
            ++ buffer.drop (bytesRead + copyLen)
          (add 64 currentOffset copyLen).bind fun currentOffset =>
          if currentOffset ≥ runSize then readLoop left runs (bytesRead + copyLen) 0 buffer
          else readLoop left (run :: runs) (bytesRead + copyLen) currentOffset buffer
    else some (bytesRead, buffer)

def readFound (buffer : Bytes) : Option (Nat × List ClusterRun) → Option (Nat × Bytes)
  | none => some (0, buffer)
  | some (runOffset, runs) =>
    readLoop vol read (runs.length + buffer.length) runs 0 runOffset buffer

def readFromRunList (runList : Bytes) (offset : Nat) (buffer : Bytes) : Option (Nat × Bytes) :=
  (parseRunList runList (replicate 64 (0, 0))).bind fun (numRuns, runs) =>
  if numRuns = 0 then some (0, buffer)
  else (findRun vol offset 0 (runs.take numRuns)).bind (readFound vol read buffer)

end

/-! ## Disks and files -/

def sectorOf (disk : Nat → UInt8) (sector : Nat) : Bytes := (range' (sector * 512) 512).map disk

def readDisk (disk : Nat → UInt8) (sector : Nat) : Option Bytes := some (sectorOf disk sector)

variable (vol : NtfsVolume) (disk : Nat → UInt8)

def clusterBytes (start length : Nat) : Bytes :=
  (range' (start * vol.clusterSize) (length * vol.clusterSize)).map disk

lemma clusterBytes_length (start length : Nat) :
    (clusterBytes vol disk start length).length = length * vol.clusterSize := by
  rw [clusterBytes, length_map, length_range']

lemma clusterBytes_getElem? {start length o : Nat} (ho : o < length * vol.clusterSize) :
    (clusterBytes vol disk start length)[o]? = some (disk (start * vol.clusterSize + o)) := by
  rw [clusterBytes, getElem?_map, getElem?_range' ho, one_mul]
  rfl

def dataOf (runs : List ClusterRun) : Bytes :=
  runs.flatMap fun run => clusterBytes vol disk run.1.toNat run.2.toNat

@[simp] lemma dataOf_cons (run : ClusterRun) (runs : List ClusterRun) :
    dataOf vol disk (run :: runs)
      = clusterBytes vol disk run.1.toNat run.2.toNat ++ dataOf vol disk runs := rfl

lemma window_eq {a n j k : Nat} (h : j + k ≤ n) :
    (((range' a n).map disk).drop j).take k = (range' (a + j) k).map disk := by
  rw [← map_drop, ← map_take, drop_range', mul_one, take_range'_of_length_ge (by omega)]

/-- What a read leaves: as much of the data as the buffer holds from `bytesRead` on. -/
def filled (buffer : Bytes) (bytesRead : Nat) (bytes : Bytes) : Nat × Bytes :=
  let chunk := bytes.take (buffer.length - bytesRead)
  (bytesRead + chunk.length,
    buffer.take bytesRead ++ chunk ++ buffer.drop (bytesRead + chunk.length))

lemma filled_of_full {buffer : Bytes} {bytesRead : Nat} (h : buffer.length ≤ bytesRead)
    (bytes : Bytes) : filled buffer bytesRead bytes = (bytesRead, buffer) := by
  unfold filled
  rw [Nat.sub_eq_zero_of_le h]
  simp

lemma filled_nil (buffer : Bytes) (bytesRead : Nat) :
    filled buffer bytesRead [] = (bytesRead, buffer) := by
  unfold filled
  simp

section

variable {buffer bytes : Bytes} {bytesRead k : Nat}

lemma overwrite_start (hbytes : k ≤ bytes.length) (hread : bytesRead ≤ buffer.length) :
    (buffer.take bytesRead ++ bytes.take k).length = bytesRead + k := by
  rw [length_append, length_take, length_take, min_eq_left hread, min_eq_left hbytes]

section

variable (hk : k ≤ buffer.length - bytesRead) (hbytes : k ≤ bytes.length)
  (hread : bytesRead ≤ buffer.length)
include hk hbytes hread

lemma overwrite_length :
    (buffer.take bytesRead ++ bytes.take k ++ buffer.drop (bytesRead + k)).length
      = buffer.length := by
  rw [length_append, overwrite_start hbytes hread, length_drop]
  omega

lemma filled_step :
    filled (buffer.take bytesRead ++ bytes.take k ++ buffer.drop (bytesRead + k)) (bytesRead + k)
        (bytes.drop k) = filled buffer bytesRead bytes := by
  have hl := @overwrite_start buffer bytes bytesRead k hbytes hread
  have hpr : (buffer.take bytesRead ++ bytes.take k ++ buffer.drop (bytesRead + k)).take
      (bytesRead + k) = buffer.take bytesRead ++ bytes.take k := take_left' hl
  have hps : ∀ m, (buffer.take bytesRead ++ bytes.take k ++ buffer.drop (bytesRead + k)).drop
      (bytesRead + k + m) = buffer.drop (bytesRead + k + m) := by
    intro m
    rw [← drop_drop, drop_left' hl, drop_drop]
  have hch : bytes.take (buffer.length - bytesRead)
      = bytes.take k ++ (bytes.drop k).take (buffer.length - (bytesRead + k)) := by
    rw [← take_add]
    congr 1
    omega
  have hta : (bytes.take k).length = k := by
    rw [length_take]
    exact min_eq_left hbytes
  unfold filled
  dsimp only
  rw [overwrite_length hk hbytes hread, hpr, hps, hch, length_append, hta, ← add_assoc]
  simp only [append_assoc]

end

end

/-! ## Reading runs -/

structure Fits (run : ClusterRun) : Prop where
  size : run.2.toNat * vol.clusterSize < 2 ^ 64
  last : (run.1.toNat + run.2.toNat) * (vol.clusterSize / 512) ≤ 2 ^ 64

lemma sector_value (start offset : Nat) :
    ((start + offset / vol.clusterSize) * (vol.clusterSize / 512)
        + offset % vol.clusterSize / 512) * 512 + offset % vol.clusterSize % 512
      = start * vol.clusterSize + offset := by
  have hdv := div_add_mod offset vol.clusterSize
  have hml : (start + offset / vol.clusterSize) * (vol.clusterSize / 512) * 512
      = start * vol.clusterSize + vol.clusterSize * (offset / vol.clusterSize) := by
    rw [Nat.mul_assoc, Nat.div_mul_cancel vol.sectors]
    ring
  rw [Nat.add_mul, hml]
  omega

lemma sectorAt_eq {start length offset : Nat} (hof : offset < length * vol.clusterSize)
    (hla : (start + length) * (vol.clusterSize / 512) ≤ 2 ^ 64) :
    sectorAt vol start offset = some ((start * vol.clusterSize + offset) / 512) := by
  have hp := vol.pos
  have hsp : 0 < vol.clusterSize / 512 := div_pos (le_of_dvd hp vol.sectors) (by decide)
  have hq : offset / vol.clusterSize < length := (div_lt_iff_lt_mul hp).mpr hof
  have hr : offset % vol.clusterSize / 512 < vol.clusterSize / 512 :=
    div_lt_div_of_lt_of_dvd vol.sectors (mod_lt _ hp)
  have hv := sector_value vol start offset
  unfold sectorAt clusterToSector
  generalize vol.clusterSize / 512 = spc at hla hsp hr hv ⊢
  -- whole clusters up to the one that holds the byte
  have hwh : (start + offset / vol.clusterSize) * spc + spc ≤ 2 ^ 64 := by
    calc (start + offset / vol.clusterSize) * spc + spc
        = (start + offset / vol.clusterSize + 1) * spc := (succ_mul _ _).symm
      _ ≤ (start + length) * spc := mul_le_mul_right _ (by omega)
      _ ≤ 2 ^ 64 := hla
  have hcl : start + offset / vol.clusterSize ≤ (start + offset / vol.clusterSize) * spc :=
    Nat.le_mul_of_pos_right _ hsp
  rw [add_eq (by omega), bind_some, mul_eq (by omega), bind_some, add_eq (by omega)]
  congr 1
  omega

lemma sector_chunk {start length offset k : Nat} (hof : offset < length * vol.clusterSize)
    (hk : k ≤ 512 - offset % vol.clusterSize % 512) : offset + k ≤ length * vol.clusterSize
      ∧ ((sectorOf disk ((start * vol.clusterSize + offset) / 512)).drop
          (offset % vol.clusterSize % 512)).take k
        = ((clusterBytes vol disk start length).drop offset).take k := by
  obtain ⟨spc, hsp⟩ := vol.sectors
  have hmd : offset % vol.clusterSize % 512 = offset % 512 := mod_mod_of_dvd _ vol.sectors
  have hsz : length * vol.clusterSize = 512 * (length * spc) := by
    rw [hsp]
    ring
  have hs0 : start * vol.clusterSize = 512 * (start * spc) := by
    rw [hsp]
    ring
  have hin : offset + k ≤ length * vol.clusterSize := by omega
  refine ⟨hin, ?_⟩
  unfold sectorOf clusterBytes
  rw [window_eq disk (by omega), window_eq disk hin]
  congr 2
  omega

variable {runs : List ClusterRun}

lemma readLoop_eq (hfi : ∀ run ∈ runs, Fits vol run) :
    ∀ (left bytesRead currentOffset : Nat) (buffer : Bytes),
      runs.length + (buffer.length - bytesRead) ≤ left → bytesRead ≤ buffer.length →
      (∀ run ∈ runs.head?, currentOffset ≤ run.2.toNat * vol.clusterSize) →
      readLoop vol (readDisk disk) left runs bytesRead currentOffset buffer
        = some (filled buffer bytesRead ((dataOf vol disk runs).drop currentOffset)) := by
  induction runs with
  | nil =>
    intro left bytesRead currentOffset buffer _ _ _
    have hnl : (dataOf vol disk []).drop currentOffset = [] := drop_nil
    rw [hnl, filled_nil]
    cases left <;> rfl
  | cons run runs ih =>
    have hrn := hfi run mem_cons_self
    replace ih := ih fun r hr => hfi r (mem_cons_of_mem _ hr)
    -- when the run is used up the next one is read from its start
    have hnx : ∀ left bytesRead buffer, runs.length + (buffer.length - bytesRead) ≤ left →
        bytesRead ≤ buffer.length →
        readLoop vol (readDisk disk) left runs bytesRead 0 buffer = some (filled buffer bytesRead
              ((dataOf vol disk (run :: runs)).drop (run.2.toNat * vol.clusterSize))) := by
      intro left bytesRead buffer hlf hread
      rw [ih left bytesRead 0 buffer hlf hread fun _ _ => zero_le _, dataOf_cons,
        ← clusterBytes_length vol disk run.1.toNat, drop_left, drop_zero]
    intro left
    induction left with
    | zero =>
      intro bytesRead currentOffset buffer hlf
      rw [length_cons] at hlf
      omega
    | succ left ihleft =>
      intro bytesRead currentOffset buffer hlf hread hof
      rw [length_cons] at hlf
      replace hof : currentOffset ≤ run.2.toNat * vol.clusterSize := hof run rfl
      unfold readLoop
      split
      · rw [mul_eq hrn.size, bind_some]
        split
        · rename_i hdn
          rw [hnx left bytesRead buffer (by omega) hread, Nat.le_antisymm hof hdn]
        rename_i hin
        replace hin : currentOffset < run.2.toNat * vol.clusterSize := Nat.lt_of_not_le hin
        rw [sectorAt_eq vol hin hrn.last, bind_some]
        dsimp only [readDisk]
        generalize hk : min (512 - currentOffset % vol.clusterSize % 512)
          (buffer.length - bytesRead) = k
        have hk512 : k ≤ 512 - currentOffset % vol.clusterSize % 512 := hk ▸ min_le_left _ _
        have hkr : k ≤ buffer.length - bytesRead := hk ▸ min_le_right _ _
        have hkp : 0 < k := by omega
        obtain ⟨hend, hch⟩ := @sector_chunk vol disk run.1.toNat _ _ _ hin hk512
        have hl := clusterBytes_length vol disk run.1.toNat run.2.toNat
        -- the bytes copied are the next ones of the data
        have hd : ((dataOf vol disk (run :: runs)).drop currentOffset).take k
            = ((clusterBytes vol disk run.1.toNat run.2.toNat).drop currentOffset).take k := by
          rw [dataOf_cons, drop_append_of_le_length (by omega),
            take_append_of_le_length (by rw [length_drop]; omega)]
        have hbytes : k ≤ ((dataOf vol disk (run :: runs)).drop currentOffset).length := by
          rw [length_drop, dataOf_cons, length_append]
          omega
        rw [hch, ← hd, add_eq (lt_of_le_of_lt hend hrn.size), bind_some,
          ← filled_step hkr hbytes hread, drop_drop]
        have hln := overwrite_length hkr hbytes hread
        split
        · rename_i hdn
          rw [hnx _ _ _ (by rw [hln]; omega) (by rw [hln]; omega), le_antisymm hend hdn]
        · exact ihleft _ _ _ (by rw [length_cons]; omega) (by rw [hln]; omega)
            (fun r hr => by cases hr; exact hend)
      · rename_i hfl
        rw [filled_of_full (not_lt.mp hfl)]

section

variable {vol} {offset filePos : Nat} {run : ClusterRun} {runs : List ClusterRun}

lemma findRun_cons (hp : filePos ≤ offset)
    (hend : filePos + run.2.toNat * vol.clusterSize < 2 ^ 64) :
    findRun vol offset filePos (run :: runs)
      = if offset < filePos + run.2.toNat * vol.clusterSize then
          some (some (offset - filePos, run :: runs))
        else findRun vol offset (filePos + run.2.toNat * vol.clusterSize) runs := by
  rw [findRun, mul_eq (by omega), bind_some, add_eq hend, sub_eq hp]
  rfl

lemma findRun_overflow (hend : ¬ filePos + run.2.toNat * vol.clusterSize < 2 ^ 64) :
    findRun vol offset filePos (run :: runs) = none := by
  rw [findRun]
  unfold mul
  split
  · rw [bind_some]
    unfold add
    rw [if_neg hend]
    rfl
  · rfl

end

lemma read_eq (hfi : ∀ run ∈ runs, Fits vol run) {filePos offset : Nat}
    (htt : filePos + (dataOf vol disk runs).length < 2 ^ 64) (hp : filePos ≤ offset)
    (buffer : Bytes) : (findRun vol offset filePos runs).bind (readFound vol (readDisk disk) buffer)
      = some (filled buffer 0 ((dataOf vol disk runs).drop (offset - filePos))) := by
  induction runs generalizing filePos with
  | nil =>
    have hnl : (dataOf vol disk []).drop (offset - filePos) = [] := drop_nil
    rw [hnl, filled_nil]
    rfl
  | cons run runs ih =>
    have hl := clusterBytes_length vol disk run.1.toNat run.2.toNat
    rw [dataOf_cons, length_append] at htt
    rw [findRun_cons hp (by omega)]
    split
    · exact readLoop_eq vol disk hfi _ _ _ _ (le_refl _) (zero_le _)
        (fun r hr => by cases hr; omega)
    rename_i hbh
    have hdr : (dataOf vol disk (run :: runs)).drop (offset - filePos)
        = (dataOf vol disk runs).drop (offset - (filePos + run.2.toNat * vol.clusterSize)) := by
      have hsm : offset - filePos = (clusterBytes vol disk run.1.toNat run.2.toNat).length
          + (offset - (filePos + run.2.toNat * vol.clusterSize)) := by omega
      rw [dataOf_cons, hsm, ← drop_drop, drop_left]
    rw [ih (fun r hr => hfi r (mem_cons_of_mem _ hr)) (by omega) (not_lt.mp hbh), hdr]

/-! ## A byte at a time -/

lemma sectorAt_some {start offset sector : Nat} (h : sectorAt vol start offset = some sector) :
    sector * 512 + offset % vol.clusterSize % 512 = start * vol.clusterSize + offset
      ∧ sector < 2 ^ 64 := by
  obtain ⟨_, hcl, h⟩ := bind_eq_some_iff.mp h
  obtain ⟨_, hfs, h⟩ := bind_eq_some_iff.mp h
  obtain ⟨-, rfl⟩ := add_eq_some_iff.mp hcl
  obtain ⟨-, rfl⟩ := mul_eq_some_iff.mp hfs
  obtain ⟨hlt, rfl⟩ := add_eq_some_iff.mp h
  exact ⟨sector_value vol start offset, hlt⟩

lemma read_one {run : ClusterRun} (runs : List ClusterRun) {filePos o : Nat} (b : UInt8)
    (hend : filePos + run.2.toNat * vol.clusterSize < 2 ^ 64)
    (ho : o < run.2.toNat * vol.clusterSize) {result : Nat × Bytes}
    (h : (findRun vol (filePos + o) filePos (run :: runs)).bind (readFound vol (readDisk disk) [b])
      = some result) : ∃ sector, sectorAt vol run.1.toNat o = some sector
      ∧ result = (1, [disk (run.1.toNat * vol.clusterSize + o)]) := by
  rw [findRun_cons (Nat.le_add_right _ _) hend, if_pos (by omega), Nat.add_sub_cancel_left] at h
  replace h : readLoop vol (readDisk disk) (runs.length + 1 + 1) (run :: runs) 0 o [b] = some result := h
  unfold readLoop at h
  rw [mul_eq (by omega), bind_some, if_neg (not_le.mpr ho)] at h
  obtain ⟨sector, hsc, h⟩ := bind_eq_some_iff.mp h
  refine ⟨sector, hsc, ?_⟩
  have hv := (sectorAt_some vol hsc).1
  have hmn : min (512 - o % vol.clusterSize % 512) ([b].length - 0) = 1 :=
    min_eq_right (show 1 ≤ _ by omega)
  -- one byte is taken from the sector
  have hby : ((sectorOf disk sector).drop (o % vol.clusterSize % 512)).take 1
      = [disk (run.1.toNat * vol.clusterSize + o)] := by
    unfold sectorOf
    rw [window_eq disk (by omega), hv]
    rfl
  dsimp only [readDisk] at h
  rw [hmn, hby, add_eq (by omega), bind_some] at h
  -- the buffer is full, so the next round ends the loop
  have hend : ∀ runs' o', readLoop vol (readDisk disk) (runs.length + 1) runs' 1 o'
      [disk (run.1.toNat * vol.clusterSize + o)]
        = some (1, [disk (run.1.toNat * vol.clusterSize + o)]) := by
    intro runs' o'
    cases runs' with
    | nil => rfl
    | cons run' runs' => exact if_neg (lt_irrefl 1)
  split at h
  · exact (some.inj ((hend _ _).symm.trans h)).symm
  · exact (some.inj ((hend _ _).symm.trans h)).symm

/-! ## Well-formed run lists -/

/-- A record of a run list. Without a location it is a hole; with one, it has the width of the
distance and the distance from the data run before it. -/
structure Record where
  lengthSize : Nat
  length : Nat
  location : Option (Nat × Int)
  lengthSize_range : 1 ≤ lengthSize ∧ lengthSize ≤ 8
  length_range : 1 ≤ length ∧ length < 256 ^ lengthSize
  location_range : ∀ p ∈ location,
    (1 ≤ p.1 ∧ p.1 ≤ 8) ∧ -2 ^ (8 * p.1 - 1) ≤ p.2 ∧ p.2 < 2 ^ (8 * p.1 - 1)

namespace Record

variable (r : Record)

def offsetBytes : Bytes :=
  match r.location with
  | none => []
  | some (size, delta) => leBytes size (delta % 2 ^ 64).toNat

def bytes : Bytes :=
  header r.offsetBytes.length r.lengthSize :: (leBytes r.lengthSize r.length ++ r.offsetBytes)

/-- The distance that the parser reads. -/
def readDelta : Int := signExtend r.offsetBytes.length (leValue r.offsetBytes)

/-- A data run whose distance is read as it was written. -/
def Plain : Prop :=
  ∃ size delta, r.location = some (size, delta) ∧ (0 ≤ delta ∨ size ∈ [1, 2, 4, 8])

lemma offsetBytes_length_le : r.offsetBytes.length ≤ 8 := by
  have hrg := r.location_range
  unfold offsetBytes
  split
  · exact zero_le _
  rename_i size delta heq
  rw [leBytes_length]
  exact (hrg (size, delta) heq).1.2

lemma length_lt : r.length < 2 ^ 64 := by
  have hpw : 256 ^ r.lengthSize ≤ 256 ^ 8 := Nat.pow_le_pow_right (by decide) r.lengthSize_range.2
  exact Nat.lt_of_lt_of_le r.length_range.2 hpw

lemma readDelta_eq {size : Nat} {delta : Int} (h : r.location = some (size, delta)) :
    r.readDelta = if 0 ≤ delta ∨ size ∈ [1, 2, 4, 8] then delta else delta + 2 ^ (8 * size) := by
  obtain ⟨⟨hp, hle⟩, hlo, hhi⟩ := r.location_range (size, delta) h
  unfold readDelta offsetBytes
  rw [h]
  rw [leBytes_length, leValue_leBytes]
  exact signExtend_deltaBits hp hle hlo hhi

end Record

/-- The runs of a file: where the data is, none for a hole, and how many clusters. -/
def mapRuns (prev : Int) : List Record → List (Option Int × Nat)
  | [] => []
  | r :: rs =>
    match r.location with
    | none => (none, r.length) :: mapRuns prev rs
    | some (_, delta) => (some (prev + delta), r.length) :: mapRuns (prev + delta) rs

def fileOf (mapped : List (Option Int × Nat)) : Bytes :=
  mapped.flatMap fun m =>
    match m.1 with
    | none => replicate (m.2 * vol.clusterSize) 0
    | some start => clusterBytes vol disk start.toNat m.2

def decodeFrom (prev : UInt64) : List Record → Option (List ClusterRun)
  | [] => some []
  | r :: rs =>
    (addSigned 64 (asI64 prev) r.readDelta).bind fun cluster =>
    (decodeFrom (UInt64.ofInt cluster) rs).map fun runs =>
      (UInt64.ofInt cluster, UInt64.ofNat r.length) :: runs

variable {records : List Record} {prev : UInt64}

lemma decodeFrom_length
    (h : decodeFrom prev records = some runs) : runs.length = records.length := by
  induction records generalizing prev runs with
  | nil =>
    cases h
    rfl
  | cons r rs ih =>
    obtain ⟨_, _, h⟩ := bind_eq_some_iff.mp h
    obtain ⟨runs, hrs, rfl⟩ := map_eq_some_iff.mp h
    rw [length_cons, length_cons, ih hrs]

variable {tail : Bytes}

section

variable (htail : tail = [] ∨ ∃ rest, tail = 0 :: rest)
include htail

lemma parseFrom_stop (room : Nat) (prev : UInt64) (count : Nat) (output : List ClusterRun) :
    parseFrom room tail prev count output = some (count, output) := by
  cases room with
  | zero => rfl
  | succ room =>
    rcases htail with rfl | ⟨_, rfl⟩
    · rfl
    · rfl

lemma parseFrom_records
    (records : List Record) {room count : Nat} {output : List ClusterRun} (prev : UInt64)
    (hro : records.length ≤ room) (hot : count + room = output.length) :
    parseFrom room (records.flatMap Record.bytes ++ tail) prev count output
      = (decodeFrom prev records).map fun runs => (count + records.length,
            output.take count ++ runs ++ output.drop (count + records.length)) := by
  induction records generalizing prev room count output with
  | nil =>
    rw [flatMap_nil, nil_append, parseFrom_stop htail]
    simp [decodeFrom]
  | cons r rs ih =>
    obtain ⟨room, rfl⟩ := Nat.exists_eq_add_of_le' (Nat.le_trans (Nat.le_add_left 1 _) hro)
    have hl : (leBytes r.lengthSize r.length).length = r.lengthSize := leBytes_length _ _
    have hv : leValue (leBytes r.lengthSize r.length) = r.length := by
      rw [leValue_leBytes, mod_eq_of_lt r.length_range.2]
    have hrc := @parseFrom_record (leBytes r.lengthSize r.length) r.offsetBytes
      (by rw [hl]; exact r.lengthSize_range.1) (by rw [hl]; exact r.lengthSize_range.2)
      r.offsetBytes_length_le (by rw [hv]; exact ne_of_gt r.length_range.1) room
      (rs.flatMap Record.bytes ++ tail) prev count output
    have hdl : signExtend r.offsetBytes.length (leValue r.offsetBytes) = r.readDelta := rfl
    rw [hl, hv, hdl] at hrc
    rw [flatMap_cons, Record.bytes, cons_append, cons_append, append_assoc]
    rw [hrc, decodeFrom]
    -- both sides add the distance first
    cases addSigned 64 (asI64 prev) r.readDelta with
    | none => rfl
    | some cluster =>
      rw [Option.bind_some, Option.bind_some, ih _ (le_of_succ_le_succ hro)
        (by rw [length_set]; omega), Option.map_map]
      congr 1
      funext runs
      show (_, _) = (_, _)
      rw [take_set_drop (by omega), length_cons, add_assoc, add_comm 1]

lemma readFromRunList_eq (hcn : records.length ≤ 64) (read : Nat → Option Bytes) (offset : Nat)
    (buffer : Bytes) : readFromRunList vol read (records.flatMap Record.bytes ++ tail) offset buffer
      = (decodeFrom 0 records).bind fun runs =>
        (findRun vol offset 0 runs).bind (readFound vol read buffer) := by
  have hpr := @parseFrom_records tail htail records 64 0 (replicate 64 (0, 0)) 0 hcn rfl
  unfold readFromRunList parseRunList
  rw [length_replicate, hpr]
  cases hdc : decodeFrom 0 records with
  | none => rfl
  | some runs =>
    have hl := decodeFrom_length hdc
    rw [map_some, bind_some]
    dsimp only
    rw [take_zero, nil_append, zero_add, take_left' hl]
    split
    · rename_i h0
      rw [h0] at hl
      rw [eq_nil_of_length_eq_zero hl]
      rfl
    · rfl

end

def asMapped (run : ClusterRun) : Option Int × Nat := (some run.1.toNat, run.2.toNat)

lemma fileOf_asMapped (runs : List ClusterRun) :
    fileOf vol disk (runs.map asMapped) = dataOf vol disk runs := by
  unfold fileOf
  rw [flatMap_map]
  rfl

lemma fileOf_length (mapped : List (Option Int × Nat)) :
    (fileOf vol disk mapped).length = (mapped.map Prod.snd).sum * vol.clusterSize := by
  induction mapped with
  | nil => rw [map_nil, sum_nil, zero_mul]; rfl
  | cons m mapped ih =>
    rw [map_cons, sum_cons, add_mul, ← ih]
    show (_ ++ fileOf vol disk mapped).length = _
    rw [length_append]
    obtain ⟨start, length⟩ := m
    cases start with
    | none => rw [length_replicate]
    | some start => rw [clusterBytes_length]

lemma decodeFrom_plain (hpv : prev.toNat < 2 ^ 63) (hpn : ∀ r ∈ records, r.Plain)
    (hs0 : ∀ m ∈ mapRuns prev.toNat records, ∀ s ∈ m.1, 0 ≤ s ∧ s < 2 ^ 63) :
    ∃ runs, decodeFrom prev records = some runs
      ∧ mapRuns prev.toNat records = runs.map asMapped := by
  induction records generalizing prev with
  | nil => exact ⟨[], rfl, rfl⟩
  | cons r rs ih =>
    obtain ⟨_, delta, hlc, hsg⟩ := hpn r mem_cons_self
    have hmp : mapRuns prev.toNat (r :: rs)
        = (some (prev.toNat + delta), r.length) :: mapRuns (prev.toNat + delta) rs := by
      rw [mapRuns, hlc]
    rw [hmp] at hs0
    obtain ⟨_, _⟩ : 0 ≤ prev.toNat + delta ∧ prev.toNat + delta < 2 ^ 63 :=
      hs0 _ mem_cons_self _ rfl
    have had : addSigned 64 (asI64 prev) r.readDelta = some (prev.toNat + delta) := by
      rw [asI64_eq hpv, r.readDelta_eq hlc, if_pos hsg]
      exact if_pos (by omega)
    have hcl : ((UInt64.ofInt (prev.toNat + delta)).toNat : Int) = prev.toNat + delta := by
      unfold UInt64.ofInt
      rw [UInt64.toNat_ofNat']
      omega
    obtain ⟨runs, hdc, hmd⟩ := @ih (UInt64.ofInt (prev.toNat + delta)) (by omega)
      (fun r hr => hpn r (mem_cons_of_mem _ hr))
      (fun m hm => hs0 m (mem_cons_of_mem _ (by rw [hcl] at hm; exact hm)))
    refine ⟨(UInt64.ofInt (prev.toNat + delta), UInt64.ofNat r.length) :: runs, ?_, ?_⟩
    · rw [decodeFrom, had, bind_some, hdc]
      rfl
    rw [hcl] at hmd
    have hhd : asMapped (UInt64.ofInt (prev.toNat + delta), UInt64.ofNat r.length)
        = (some (prev.toNat + delta), r.length) := by
      unfold asMapped
      rw [hcl, UInt64.toNat_ofNat_of_lt' r.length_lt]
    rw [hmp, hmd, map_cons, hhd]

lemma plain_of_decodeFrom (hpv : prev.toNat < 2 ^ 63) (hdc : decodeFrom prev records = some runs)
    (hmp : mapRuns prev.toNat records = runs.map asMapped) :
    (∀ r ∈ records, r.Plain) ∧ ∀ run ∈ runs, run.1.toNat < 2 ^ 63 := by
  induction records generalizing prev runs with
  | nil =>
    cases hdc
    exact ⟨nofun, nofun⟩
  | cons r rs ih =>
    obtain ⟨cluster, had, h⟩ := bind_eq_some_iff.mp hdc
    obtain ⟨runs, hrs, rfl⟩ := map_eq_some_iff.mp h
    rw [asI64_eq hpv] at had
    cases hlc : r.location with
    | none =>
      rw [mapRuns, hlc] at hmp
      cases hmp
    | some location =>
      obtain ⟨size, delta⟩ := location
      rw [mapRuns, hlc] at hmp
      obtain ⟨hhd, htail⟩ := cons.inj hmp
      have hs0 : prev.toNat + delta = (UInt64.ofInt cluster).toNat :=
        some.inj (congrArg Prod.fst hhd)
      obtain ⟨_, _, hcl⟩ : -2 ^ 63 ≤ cluster ∧ cluster < 2 ^ 63
          ∧ prev.toNat + r.readDelta = cluster := by
        unfold addSigned at had
        split at had
        · rename_i hrg
          cases had
          exact ⟨hrg.1, hrg.2, rfl⟩
        · cases had
      have hv : ((UInt64.ofInt cluster).toNat : Int) = cluster % 2 ^ 64 := by
        unfold UInt64.ofInt
        rw [UInt64.toNat_ofNat']
        omega
      rw [r.readDelta_eq hlc] at hcl
      -- a distance read wrong would be too large by less than 2^64
      have hsg : 0 ≤ delta ∨ size ∈ [1, 2, 4, 8] := by
        by_contra hbd
        rw [if_neg hbd] at hcl
        have hp : (0 : Int) < 2 ^ (8 * size) := pow_pos (by decide) _
        omega
      have hnx : (UInt64.ofInt cluster).toNat < 2 ^ 63 := by omega
      obtain ⟨hpn, hst⟩ := ih hnx hrs (by rw [← hs0]; exact htail)
      exact ⟨forall_mem_cons.mpr ⟨⟨size, delta, hlc, hsg⟩, hpn⟩, forall_mem_cons.mpr ⟨hnx, hst⟩⟩

lemma decodeFrom_lengths (h : decodeFrom prev records = some runs) (start : Int) :
    List.Forall₂ (fun run m => run.2.toNat = m.2 ∧ 0 < m.2) runs (mapRuns start records) := by
  induction records generalizing prev runs start with
  | nil =>
    cases h
    exact List.Forall₂.nil
  | cons r rs ih =>
    obtain ⟨_, _, h⟩ := bind_eq_some_iff.mp h
    obtain ⟨runs, hrs, rfl⟩ := map_eq_some_iff.mp h
    have hl : (UInt64.ofNat r.length).toNat = r.length := UInt64.toNat_ofNat_of_lt' r.length_lt
    rw [mapRuns]
    split
    · exact List.Forall₂.cons ⟨hl, r.length_range.1⟩ (ih hrs _)
    · exact List.Forall₂.cons ⟨hl, r.length_range.1⟩ (ih hrs _)

/-! ## Reads that are right -/

/-- All reads from `filePos` on give the file, whatever the disk holds. -/
def ReadsRight (filePos : Nat) (runs : List ClusterRun) (mapped : List (Option Int × Nat)) : Prop :=
  ∀ (disk : Nat → UInt8) (offset : Nat) (buffer : Bytes), filePos ≤ offset → offset < 2 ^ 64 →
    (findRun vol offset filePos runs).bind (readFound vol (readDisk disk) buffer)
      = some (filled buffer 0 ((fileOf vol disk mapped).drop (offset - filePos)))

variable {vol} {filePos : Nat} {run : ClusterRun} {runs : List ClusterRun}
  {m : Option Int × Nat} {mapped : List (Option Int × Nat)}

section

variable (h : ReadsRight vol filePos (run :: runs) (m :: mapped))
include h

lemma ReadsRight.end_lt
    (hp : filePos < 2 ^ 64) : filePos + run.2.toNat * vol.clusterSize < 2 ^ 64 := by
  by_contra hend
  have hread := h (fun _ => 0) filePos [] (le_refl _) hp
  rw [findRun_overflow hend] at hread
  cases hread

variable (hend : filePos + run.2.toNat * vol.clusterSize < 2 ^ 64)
include hend

lemma ReadsRight.byte {o : Nat} (ho : o < run.2.toNat * vol.clusterSize) (disk : Nat → UInt8) :
    (∃ sector, sectorAt vol run.1.toNat o = some sector)
      ∧ (fileOf vol disk (m :: mapped))[o]? = some (disk (run.1.toNat * vol.clusterSize + o)) := by
  have hread := h disk (filePos + o) [0] (le_add_right _ _) (by omega)
  obtain ⟨sector, hsc, hrs⟩ := read_one vol disk runs 0 hend ho hread
  refine ⟨⟨sector, hsc⟩, ?_⟩
  rw [Nat.add_sub_cancel_left] at hrs
  -- the only byte of the buffer is the first one from `o` on
  rw [← head?_drop]
  cases hr : (fileOf vol disk (m :: mapped)).drop o with rw [hr] at hrs
  | nil => cases congrArg Prod.fst hrs
  | cons x rest => exact congrArg head? (congrArg Prod.snd hrs)

lemma ReadsRight.start (hl : run.2.toNat = m.2)
    (hp : 0 < m.2) : ∃ start, m.1 = some start ∧ start.toNat = run.1.toNat := by
  have hsz : 0 < run.2.toNat * vol.clusterSize := by
    rw [hl]
    exact mul_pos hp vol.pos
  have h0 : ∀ disk, (fileOf vol disk (m :: mapped))[0]?
      = some (disk (run.1.toNat * vol.clusterSize)) := fun disk => (h.byte hend hsz disk).2
  obtain ⟨location, length⟩ := m
  replace hl : run.2.toNat = length := hl
  cases location with
  | none =>
    -- a disk full of ones, and a hole that should be read as zeros
    have hby := h0 fun _ => 1
    have hfi : (fileOf vol (fun _ => 1) ((none, length) :: mapped))[0]? = some 0 := by
      show (replicate (length * vol.clusterSize) 0 ++ _)[0]? = some 0
      rw [getElem?_append_left (by rw [length_replicate, ← hl]; exact hsz),
        getElem?_replicate, if_pos (by rw [← hl]; exact hsz)]
    rw [hfi] at hby
    cases hby
  | some start =>
    refine ⟨start, rfl, ?_⟩
    -- a disk with a single one, at the start of the run
    have hby := h0 fun p => if p = start.toNat * vol.clusterSize then 1 else 0
    rw [hl] at hsz
    have hfi : ∀ disk, (fileOf vol disk ((some start, length) :: mapped))[0]?
        = some (disk (start.toNat * vol.clusterSize)) := by
      intro disk
      show (clusterBytes vol disk start.toNat length ++ _)[0]? = _
      rw [getElem?_append_left (by rw [clusterBytes_length]; exact hsz),
        clusterBytes_getElem? vol disk hsz, add_zero]
    rw [hfi, if_pos rfl] at hby
    split at hby
    · rename_i heq
      exact (eq_of_mul_eq_mul_right vol.pos heq).symm
    · cases hby

lemma ReadsRight.last (hp : 0 < run.2.toNat) :
    (run.1.toNat + run.2.toNat) * (vol.clusterSize / 512) ≤ 2 ^ 64 := by
  have hsz : 0 < run.2.toNat * vol.clusterSize := mul_pos hp vol.pos
  obtain ⟨⟨_, hsc⟩, _⟩ := h.byte hend (sub_one_lt_of_lt hsz) fun _ => 0
  obtain ⟨_, _⟩ := sectorAt_some vol hsc
  have htt : (run.1.toNat + run.2.toNat) * (vol.clusterSize / 512) * 512
      = run.1.toNat * vol.clusterSize + run.2.toNat * vol.clusterSize := by
    rw [Nat.mul_assoc, Nat.div_mul_cancel vol.sectors, Nat.add_mul]
  omega

lemma ReadsRight.rest (hl : run.2.toNat = m.2) :
    ReadsRight vol (filePos + run.2.toNat * vol.clusterSize) runs mapped := by
  intro disk offset buffer hof hlt
  have hread := h disk offset buffer (by omega) hlt
  have hdr : (fileOf vol disk (m :: mapped)).drop (offset - filePos)
      = (fileOf vol disk mapped).drop (offset - (filePos + run.2.toNat * vol.clusterSize)) := by
    have hfs : (fileOf vol disk [m]).length = run.2.toNat * vol.clusterSize := by
      rw [fileOf_length, hl]
      simp
    have hsp : fileOf vol disk (m :: mapped) = fileOf vol disk [m] ++ fileOf vol disk mapped := by
      unfold fileOf
      rw [← flatMap_append]
      rfl
    have hsm : offset - filePos = (fileOf vol disk [m]).length
        + (offset - (filePos + run.2.toNat * vol.clusterSize)) := by omega
    rw [hsp, hsm, ← drop_drop, drop_left]
  rw [findRun_cons (by omega) hend, if_neg (not_lt.mpr hof), hdr] at hread
  exact hread

end

lemma ReadsRight.good (hln : List.Forall₂ (fun run m => run.2.toNat = m.2 ∧ 0 < m.2) runs mapped)
    (hnn : ∀ m ∈ mapped, ∀ s ∈ m.1, 0 ≤ s) (hp : filePos < 2 ^ 64)
    (h : ReadsRight vol filePos runs mapped) :
    mapped = runs.map asMapped ∧ (∀ run ∈ runs, Fits vol run)
      ∧ filePos + (mapped.map Prod.snd).sum * vol.clusterSize < 2 ^ 64 := by
  induction hln generalizing filePos with
  | nil =>
    refine ⟨rfl, nofun, ?_⟩
    rw [map_nil, sum_nil, zero_mul]
    exact hp
  | @cons run m runs mapped hr _ ih =>
    obtain ⟨hl, hm⟩ := hr
    have hend := h.end_lt hp
    obtain ⟨start, hlc, _⟩ := h.start hend hl hm
    have hla := h.last hend (by omega)
    obtain ⟨hmp, hfi, _⟩ := ih (fun m hm => hnn m (mem_cons_of_mem _ hm)) hend (h.rest hend hl)
    have hge := hnn m mem_cons_self start hlc
    refine ⟨?_, ?_, ?_⟩
    · have hhd : m = asMapped run := by
        refine Prod.ext ?_ hl.symm
        rw [hlc]
        exact congrArg some (by omega)
      rw [map_cons, hmp, hhd]
    · exact forall_mem_cons.mpr ⟨⟨by omega, hla⟩, hfi⟩
    · rw [map_cons, sum_cons, add_mul, ← hl]
      omega

structure FitsFile (vol : NtfsVolume) (mapped : List (Option Int × Nat)) : Prop where
  starts : ∀ m ∈ mapped, ∀ s ∈ m.1, s < 2 ^ 63
  sectors : ∀ m ∈ mapped, ∀ s ∈ m.1, (s + m.2) * (vol.clusterSize / 512 : Nat) ≤ 2 ^ 64
  total : (mapped.map Prod.snd).sum * vol.clusterSize < 2 ^ 64

lemma fits_of_fitsFile (h : FitsFile vol (runs.map asMapped)) : ∀ run ∈ runs, Fits vol run := by
  intro run hr
  have hm : asMapped run ∈ runs.map asMapped := mem_map_of_mem hr
  constructor
  · have hle : run.2.toNat ≤ ((runs.map asMapped).map Prod.snd).sum :=
      single_le_sum (fun _ _ => zero_le _) _ (mem_map_of_mem hm)
    exact lt_of_le_of_lt (mul_le_mul_right _ hle) h.total
  · have hla := h.sectors _ hm _ rfl
    exact_mod_cast hla

/-- The bytes are those of the file exactly if there are no holes, no negative distances of 3, 5, 6
or 7 bytes and no numbers that are too large. -/
theorem readFromRunList_iff (vol : NtfsVolume) {records : List Record} {tail : Bytes}
    (hcount : records.length ≤ 64) (htail : tail = [] ∨ ∃ rest, tail = 0 :: rest)
    (hnonneg : ∀ m ∈ mapRuns 0 records, ∀ s ∈ m.1, 0 ≤ s) :
    (∀ (disk : Nat → UInt8) (offset : Nat) (buffer : Bytes), offset < 2 ^ 64 →
        readFromRunList vol (readDisk disk) (records.flatMap Record.bytes ++ tail) offset buffer
          = some (filled buffer 0 ((fileOf vol disk (mapRuns 0 records)).drop offset)))
      ↔ (∀ r ∈ records, r.Plain) ∧ FitsFile vol (mapRuns 0 records) := by
  constructor
  · intro h
    -- some read succeeds, so the parser does
    obtain ⟨runs, hdc, _⟩ := bind_eq_some_iff.mp
      ((readFromRunList_eq vol htail hcount (readDisk fun _ => 0) 0 []).symm.trans
        (h (fun _ => 0) 0 [] (by decide)))
    have hrt : ReadsRight vol 0 runs (mapRuns 0 records) := by
      intro disk offset buffer _ hlt
      have hread := h disk offset buffer hlt
      rw [readFromRunList_eq vol htail hcount, hdc] at hread
      exact hread
    obtain ⟨hmp, hfi, htt⟩ := hrt.good (decodeFrom_lengths hdc 0) hnonneg (by decide)
    obtain ⟨hpn, hst⟩ := plain_of_decodeFrom (by decide) hdc hmp
    rw [zero_add] at htt
    refine ⟨hpn, ?_, ?_, htt⟩
    · intro m hm s hs
      rw [hmp] at hm
      obtain ⟨run, hr, rfl⟩ := mem_map.mp hm
      cases hs
      exact_mod_cast hst run hr
    intro m hm s hs
    rw [hmp] at hm
    obtain ⟨run, hr, rfl⟩ := mem_map.mp hm
    cases hs
    exact_mod_cast (hfi run hr).last
  rintro ⟨hpn, hfl⟩ disk offset buffer _
  obtain ⟨runs, hdc, hmp⟩ := @decodeFrom_plain records 0 (by decide) hpn
    fun m hm s hs => ⟨hnonneg m hm s hs, hfl.starts m hm s hs⟩
  replace hmp : mapRuns 0 records = runs.map asMapped := hmp
  have htt : (dataOf vol disk runs).length < 2 ^ 64 := by
    rw [← fileOf_asMapped, ← hmp, fileOf_length]
    exact hfl.total
  rw [hmp] at hfl ⊢
  rw [readFromRunList_eq vol htail hcount, hdc, bind_some,
    read_eq vol disk (fits_of_fitsFile hfl) (by rw [Nat.zero_add]; exact htt) (Nat.zero_le _),
    fileOf_asMapped, Nat.sub_zero]

def smallVolume : NtfsVolume := ⟨512, by decide, by decide, by decide⟩

def twoRuns : List Record :=
  [⟨1, 2, some (1, 9), by decide, by decide, by simp⟩, ⟨1, 3, some (1, -4), by decide, by decide, by simp⟩]

theorem readFromRunList_twoRuns :
    readFromRunList smallVolume (readDisk fun p => UInt8.ofNat (p / 512))
        (twoRuns.flatMap Record.bytes ++ [0]) 1023 [7, 7, 7] = some (3, [10, 5, 5]) := by
  have h := (@readFromRunList_iff smallVolume twoRuns [0] (by decide) (Or.inr ⟨[], rfl⟩)
    (by decide)).mpr ⟨?_, ?_, ?_, ?_⟩
  · exact (h _ 1023 [7, 7, 7] (by decide)).trans (by decide +kernel)
  · intro r hr
    rcases mem_cons.mp hr with rfl | hr
    · exact ⟨1, 9, rfl, by decide⟩
    · rw [mem_singleton.mp hr]
      exact ⟨1, -4, rfl, by decide⟩
  · decide
  · decide
  · decide

/-- A hole after a data run: on a disk full of ones a one is read from it. -/
theorem readFromRunList_hole :
    readFromRunList smallVolume (readDisk fun _ => 1) [0x11, 1, 9, 0x01, 1, 0] 512 [7]
      = some (1, [1]) := by
  rfl

end Nt61.Ntfs
