/-
RunList — `fs/ntfs/mod.rs`: the run lists of non-resident attributes.

A record has a header byte with the widths of two fields, the length of the run and the signed
distance from the run before it. `parse_run_list` extends the sign of distances of 1, 2, 4 and 8
bytes only, so a negative distance of another width comes back as a positive one.
-/
import Nt61.Lib.Bits
import Nt61.Lib.Checked
import Mathlib.Algebra.Order.Ring.Int
import Mathlib.Data.Nat.Size

namespace Nt61.Ntfs

open Lib List UInt64 Checked

/-! ## The code -/

abbrev ClusterRun := UInt64 × UInt64

def asI64 (x : UInt64) : Int := (x.toNat : Int).bmod (2 ^ 64)

/-- The loops that read a field: `value |= b << (i * 8)`. A shift by 64 bits or more panics. -/
def orBytes (value i : Nat) : Bytes → Option Nat
  | [] => some value
  | b :: bs => if i * 8 < 64 then orBytes (value ||| (b.toNat <<< (i * 8)) % 2 ^ 64) (i + 1) bs else none

/-- The distance, from the bits that were read. -/
def signExtend (offsetSize : Nat) (offsetVal : Nat) : Int :=
  match offsetSize with
  | 1 => (offsetVal : Int).bmod (2 ^ 8)
  | 2 => (offsetVal : Int).bmod (2 ^ 16)
  | 4 => (offsetVal : Int).bmod (2 ^ 32)
  | 8 => (offsetVal : Int).bmod (2 ^ 64)
  | _ => (offsetVal : Int).bmod (2 ^ 64)

/-- The loop of `parse_run_list`; `room` is what is left of the output. -/
def parseFrom (room : Nat) (runList : Bytes) (prevCluster : UInt64) (count : Nat)
    (output : List ClusterRun) : Option (Nat × List ClusterRun) :=
  match room, runList with
  | 0, _ => some (count, output)
  | _ + 1, [] => some (count, output)
  | room + 1, entry :: data =>
    let lengthSize := (entry &&& 0x0F).toNat
    let offsetSize := ((entry >>> 4) &&& 0x0F).toNat
    if lengthSize = 0 then some (count, output)
    else if lengthSize + offsetSize > data.length then some (count, output)
    else
      (orBytes 0 0 (data.take lengthSize)).bind fun length =>
      if length = 0 then some (count, output)
      else
        (orBytes 0 0 ((data.drop lengthSize).take offsetSize)).bind fun offsetVal =>
        (addSigned 64 (asI64 prevCluster) (signExtend offsetSize offsetVal)).bind fun cluster =>
        parseFrom room (data.drop (lengthSize + offsetSize)) (ofInt cluster) (count + 1)
          (output.set count (ofInt cluster, ofNat length))

def parseRunList (runList : Bytes) (output : List ClusterRun) : Option (Nat × List ClusterRun) :=
  parseFrom output.length runList 0 0 output

/-- Bytes for a length: 64 less the leading zeros is the number of bits. -/
def lengthSizeOf (length : UInt64) : Nat := max ((length.toNat.size + 7) / 8) 1

/-- The loop that looks for the width of a distance; it ends at 8. -/
def offsetSizeFrom (delta : Int) : Nat → Nat → Nat
  | 0, offsetSize => offsetSize
  | left + 1, offsetSize =>
    let bits := 8 * offsetSize
    let lo : Int := -2 ^ (bits - 1)
    let hi : Int := 2 ^ (bits - 1) - 1
    if delta ≥ lo ∧ delta ≤ hi then offsetSize else offsetSizeFrom delta left (offsetSize + 1)

variable (delta : Int)

def offsetSizeOf : Nat := offsetSizeFrom delta 7 1

def deltaBytes : Bytes := leBytes 8 (delta % 2 ^ 64).toNat

def header (offsetSize lengthSize : Nat) : UInt8 :=
  (UInt8.ofNat offsetSize <<< 4) ||| UInt8.ofNat lengthSize

def encodeFrom (prev : Int) : List ClusterRun → Bytes
  | [] => []
  | (start, length) :: runs =>
    if length = 0 then encodeFrom prev runs
    else
      let delta := (asI64 start - prev).bmod (2 ^ 64)
      let lengthSize := lengthSizeOf length
      let offsetSize := offsetSizeOf delta
      header offsetSize lengthSize
        :: ((List.range lengthSize).map fun i => UInt8.ofNat (length.toNat >>> (8 * i)))
        ++ (deltaBytes delta).take offsetSize ++ encodeFrom (asI64 start) runs

def encodeRunList (runs : List ClusterRun) : Bytes := encodeFrom 0 runs

/-! ## Fields -/

lemma orBytes_eq (bs : Bytes) {value i : Nat} (hl : i + bs.length ≤ 8)
    (hv : value < 2 ^ (i * 8)) : orBytes value i bs = some (value + 2 ^ (i * 8) * leValue bs) := by
  induction bs generalizing value i with
  | nil => rfl
  | cons b bs ih =>
    rw [length_cons] at hl
    have hb : b.toNat < 2 ^ 8 := b.toNat_lt
    have hsp : 2 ^ ((i + 1) * 8) = 2 ^ (i * 8) * 2 ^ 8 := by rw [Nat.succ_mul, Nat.pow_add]
    have hsh : b.toNat * 2 ^ (i * 8) + 2 ^ (i * 8) ≤ 2 ^ ((i + 1) * 8) := by
      rw [hsp, Nat.mul_comm]
      exact Nat.mul_le_mul_left _ hb
    have hfi : 2 ^ ((i + 1) * 8) ≤ 2 ^ 64 := Nat.pow_le_pow_right (by decide) (by omega)
    have hor : value ||| (b.toNat <<< (i * 8)) % 2 ^ 64 = value + 2 ^ (i * 8) * b.toNat := by
      rw [Nat.shiftLeft_eq, Nat.mod_eq_of_lt (by omega), Nat.mul_comm, Nat.or_comm,
        ← Nat.two_pow_add_eq_or_of_lt hv, Nat.add_comm]
    unfold orBytes
    rw [if_pos (by omega), hor, ih (by omega) (by rw [Nat.mul_comm (2 ^ (i * 8))]; omega), leValue]
    ring_nf

lemma orBytes_leValue {bs : Bytes} (hl : bs.length ≤ 8) : orBytes 0 0 bs = some (leValue bs) := by
  rw [orBytes_eq bs (by omega) (by decide)]
  congr 1
  omega

lemma leBytes_eq_map (n v : Nat) :
    ((List.range n).map fun i => UInt8.ofNat (v >>> (8 * i))) = leBytes n v := by
  induction n generalizing v with
  | zero => rfl
  | succ n ih =>
    rw [range_succ_eq_map, map_cons, map_map, leBytes, ← ih (v / 256)]
    congr 1
    · apply UInt8.toNat_inj.mp
      simp
    apply map_congr_left
    intro i _
    show UInt8.ofNat (v >>> (8 * (i + 1))) = UInt8.ofNat ((v / 256) >>> (8 * i))
    rw [Nat.mul_succ, Nat.add_comm, Nat.shiftRight_add, Nat.shiftRight_eq_div_pow v 8]

lemma take_leBytes {k n : Nat} (v : Nat) (hk : k ≤ n) : (leBytes n v).take k = leBytes k v := by
  induction n generalizing k v with
  | zero =>
    cases Nat.le_zero.mp hk
    rfl
  | succ n ih =>
    cases k with
    | zero => rfl
    | succ k => rw [leBytes, leBytes, take_succ_cons, ih _ (Nat.le_of_succ_le_succ hk)]

variable (length : UInt64)

lemma lengthSizeOf_le : lengthSizeOf length ≤ 8 := by
  have hsz : length.toNat.size ≤ 64 := Nat.size_le.mpr length.toNat_lt
  unfold lengthSizeOf
  omega

lemma lengthSizeOf_pos : 0 < lengthSizeOf length := by
  unfold lengthSizeOf
  omega

lemma leValue_lengthBytes :
    leValue (leBytes (lengthSizeOf length) length.toNat) = length.toNat := by
  have hsz : length.toNat.size ≤ 8 * lengthSizeOf length := by
    unfold lengthSizeOf
    omega
  have hlt : length.toNat < 256 ^ lengthSizeOf length := by
    have hpw := Nat.size_le.mp hsz
    rw [Nat.pow_mul] at hpw
    exact hpw
  rw [leValue_leBytes, Nat.mod_eq_of_lt hlt]

lemma header_sizes {offsetSize lengthSize : Nat} (ho : offsetSize ≤ 8) (hl : lengthSize ≤ 8) :
    (header offsetSize lengthSize &&& 0x0F).toNat = lengthSize
      ∧ ((header offsetSize lengthSize >>> 4) &&& 0x0F).toNat = offsetSize := by
  have ha : ∀ o l : Fin 9, (header o l &&& 0x0F).toNat = l
      ∧ ((header o l >>> 4) &&& 0x0F).toNat = o := by decide
  exact ha ⟨offsetSize, Nat.lt_succ_of_le ho⟩ ⟨lengthSize, Nat.lt_succ_of_le hl⟩

/-! ## Distances -/

/-- The distances that `parse_run_list` reads as they were written: all but the negative ones of 3,
5, 6 and 7 bytes. -/
def Decodable : Prop := -2 ^ 15 ≤ delta ∨ (-2 ^ 31 ≤ delta ∧ delta < -2 ^ 23) ∨ delta < -2 ^ 55

instance (delta : Int) : Decidable (Decodable delta) :=
  inferInstanceAs (Decidable (_ ∨ (_ ∧ _) ∨ _))

variable {offsetSize : Nat}

lemma leValue_deltaBytes (delta : Int) (ho : offsetSize ≤ 8) :
    leValue ((deltaBytes delta).take offsetSize) = (delta % 2 ^ 64).toNat % 256 ^ offsetSize := by
  unfold deltaBytes
  rw [take_leBytes _ ho, leValue_leBytes]

lemma offsetSizeOf_eq (delta : Int) : offsetSizeOf delta =
      if -2 ^ 7 ≤ delta ∧ delta ≤ 2 ^ 7 - 1 then 1
      else if -2 ^ 15 ≤ delta ∧ delta ≤ 2 ^ 15 - 1 then 2
      else if -2 ^ 23 ≤ delta ∧ delta ≤ 2 ^ 23 - 1 then 3
      else if -2 ^ 31 ≤ delta ∧ delta ≤ 2 ^ 31 - 1 then 4
      else if -2 ^ 39 ≤ delta ∧ delta ≤ 2 ^ 39 - 1 then 5
      else if -2 ^ 47 ≤ delta ∧ delta ≤ 2 ^ 47 - 1 then 6
      else if -2 ^ 55 ≤ delta ∧ delta ≤ 2 ^ 55 - 1 then 7 else 8 := rfl

lemma offsetSizeOf_range : 0 < offsetSizeOf delta ∧ offsetSizeOf delta ≤ 8 := by
  rw [offsetSizeOf_eq]
  split_ifs <;> decide

variable {delta : Int}

lemma offsetSizeOf_spec (hlo : -2 ^ 63 ≤ delta) (hhi : delta < 2 ^ 63) :
    -2 ^ (8 * offsetSizeOf delta - 1) ≤ delta ∧ delta < 2 ^ (8 * offsetSizeOf delta - 1)
      ∧ (Decodable delta ↔ 0 ≤ delta ∨ offsetSizeOf delta ∈ [1, 2, 4, 8]) := by
  unfold Decodable
  rw [offsetSizeOf_eq]
  -- one case for each width
  split_ifs <;> simp <;> omega

lemma cast_deltaBits (delta : Int) (ho : offsetSize ≤ 8) :
    (((delta % 2 ^ 64).toNat % 256 ^ offsetSize : Nat) : Int) = delta % 2 ^ (8 * offsetSize) := by
  have hdv : (2 : Int) ^ (8 * offsetSize) ∣ 2 ^ 64 := pow_dvd_pow 2 (by omega)
  have hpw : ((256 ^ offsetSize : Nat) : Int) = 2 ^ (8 * offsetSize) := by
    rw [pow_mul]
    norm_num
  rw [Int.natCast_mod, hpw, Int.toNat_of_nonneg (Int.emod_nonneg _ (by decide)),
    Int.emod_emod_of_dvd _ hdv]

lemma bmod_deltaBits (hp : 0 < offsetSize)
    (ho : offsetSize ≤ 8) (hlo : -2 ^ (8 * offsetSize - 1) ≤ delta)
    (hhi : delta < 2 ^ (8 * offsetSize - 1)) :
    (((delta % 2 ^ 64).toNat % 256 ^ offsetSize : Nat) : Int).bmod (2 ^ (8 * offsetSize)) = delta := by
  have hdb : (2 : Int) ^ (8 * offsetSize) = 2 * 2 ^ (8 * offsetSize - 1) := by
    rw [← pow_succ']
    congr 1
    omega
  rw [cast_deltaBits delta ho]
  have hcs : (2 : Int) ^ (8 * offsetSize) = ((2 ^ (8 * offsetSize) : Nat) : Int) := by rfl
  rw [hcs, Int.emod_bmod]
  apply Int.bmod_eq_of_le
  · omega
  · omega

lemma bmod_deltaBits_raw (delta : Int) (ho : offsetSize ≤ 7) :
    (((delta % 2 ^ 64).toNat % 256 ^ offsetSize : Nat) : Int).bmod (2 ^ 64)
      = delta % 2 ^ (8 * offsetSize) := by
  have hle : (2 : Int) ^ (8 * offsetSize) ≤ 2 ^ 56 := pow_le_pow_right₀ (by decide) (by omega)
  rw [cast_deltaBits delta (by omega)]
  apply Int.bmod_eq_of_le
  · omega
  · omega

lemma signExtend_of_mem (h : offsetSize ∈ [1, 2, 4, 8]) (bits : Nat) :
    signExtend offsetSize bits = (bits : Int).bmod (2 ^ (8 * offsetSize)) := by
  unfold signExtend
  split
  · rfl
  · rfl
  · rfl
  · rfl
  · simp_all

lemma signExtend_of_notMem (h : offsetSize ∉ [1, 2, 4, 8]) (bits : Nat) :
    signExtend offsetSize bits = (bits : Int).bmod (2 ^ 64) := by
  unfold signExtend
  split
  · simp at h
  · simp at h
  · simp at h
  · rfl
  · rfl

lemma signExtend_deltaBits (hp : 0 < offsetSize)
    (ho : offsetSize ≤ 8) (hlo : -2 ^ (8 * offsetSize - 1) ≤ delta)
    (hhi : delta < 2 ^ (8 * offsetSize - 1)) :
    signExtend offsetSize ((delta % 2 ^ 64).toNat % 256 ^ offsetSize)
      = if 0 ≤ delta ∨ offsetSize ∈ [1, 2, 4, 8] then delta else delta + 2 ^ (8 * offsetSize) := by
  by_cases hwd : offsetSize ∈ [1, 2, 4, 8]
  · rw [signExtend_of_mem hwd, if_pos (Or.inr hwd)]
    exact bmod_deltaBits hp ho hlo hhi
  have hsv : offsetSize ≤ 7 := by
    rcases Nat.lt_or_eq_of_le ho with hlt | heq
    · exact Nat.le_of_lt_succ hlt
    · rw [heq] at hwd
      exact absurd (by decide) hwd
  have hdb : (2 : Int) ^ (8 * offsetSize) = 2 * 2 ^ (8 * offsetSize - 1) := by
    rw [← pow_succ']
    congr 1
    omega
  rw [signExtend_of_notMem hwd, bmod_deltaBits_raw delta hsv]
  by_cases hng : 0 ≤ delta
  · rw [if_pos (Or.inl hng)]
    exact Int.emod_eq_of_lt hng (by omega)
  · rw [if_neg (not_or.mpr ⟨hng, hwd⟩), ← Int.add_emod_right]
    exact Int.emod_eq_of_lt (by omega) (by omega)

lemma signExtend_delta (hlo : -2 ^ 63 ≤ delta) (hhi : delta < 2 ^ 63) :
    signExtend (offsetSizeOf delta) (leValue ((deltaBytes delta).take (offsetSizeOf delta)))
      = if Decodable delta then delta else delta + 2 ^ (8 * offsetSizeOf delta) := by
  obtain ⟨hp, ho⟩ := offsetSizeOf_range delta
  obtain ⟨hfi, hfi', hdc⟩ := offsetSizeOf_spec hlo hhi
  rw [leValue_deltaBytes delta ho, signExtend_deltaBits hp ho hfi hfi', if_congr hdc rfl rfl]

/-! ## Records -/

lemma parseFrom_cons (room : Nat) (entry : UInt8) (data : Bytes) (prev : UInt64) (count : Nat)
    (output : List ClusterRun) : parseFrom (room + 1) (entry :: data) prev count output =
      let lengthSize := (entry &&& 0x0F).toNat
      let offsetSize := ((entry >>> 4) &&& 0x0F).toNat
      if lengthSize = 0 then some (count, output)
      else if lengthSize + offsetSize > data.length then some (count, output)
      else
        (orBytes 0 0 (data.take lengthSize)).bind fun length =>
        if length = 0 then some (count, output)
        else
          (orBytes 0 0 ((data.drop lengthSize).take offsetSize)).bind fun offsetVal =>
          (addSigned 64 (asI64 prev) (signExtend offsetSize offsetVal)).bind fun cluster =>
          parseFrom room (data.drop (lengthSize + offsetSize)) (ofInt cluster) (count + 1)
            (output.set count (ofInt cluster, ofNat length)) := by
  rw [parseFrom]

lemma parseFrom_record {lengthBytes offsetBytes : Bytes} (hp : 0 < lengthBytes.length)
    (hl : lengthBytes.length ≤ 8) (ho : offsetBytes.length ≤ 8) (hlg : leValue lengthBytes ≠ 0)
    (room : Nat) (rest : Bytes) (prev : UInt64) (count : Nat) (output : List ClusterRun) :
    parseFrom (room + 1)
        (header offsetBytes.length lengthBytes.length :: (lengthBytes ++ offsetBytes ++ rest))
        prev count output = (addSigned 64 (asI64 prev)
          (signExtend offsetBytes.length (leValue offsetBytes))).bind fun cluster =>
        parseFrom room rest (ofInt cluster) (count + 1)
          (output.set count (ofInt cluster, ofNat (leValue lengthBytes))) := by
  obtain ⟨hlw, hhi⟩ := header_sizes ho hl
  have hln : ¬ lengthBytes.length + offsetBytes.length
      > (lengthBytes ++ offsetBytes ++ rest).length := by
    rw [length_append, length_append]
    omega
  have hta : (lengthBytes ++ offsetBytes ++ rest).take lengthBytes.length = lengthBytes := by
    rw [append_assoc, take_left]
  have hmd : ((lengthBytes ++ offsetBytes ++ rest).drop lengthBytes.length).take
      offsetBytes.length = offsetBytes := by
    rw [append_assoc, drop_left, take_left]
  have hdr : (lengthBytes ++ offsetBytes ++ rest).drop
      (lengthBytes.length + offsetBytes.length) = rest := by
    rw [← length_append, drop_left]
  rw [parseFrom_cons]
  rw [hlw, hhi, if_neg (Nat.ne_of_gt hp), if_neg hln, hta, hmd, hdr,
    orBytes_leValue hl, Option.bind_some, if_neg hlg, orBytes_leValue ho, Option.bind_some]

lemma parseFrom_frame {room : Nat} {runList : Bytes} {prev : UInt64} {count : Nat}
    {output : List ClusterRun} {result : Nat × List ClusterRun}
    (h : parseFrom room runList prev count output = some result) :
    ∀ i < count, result.2[i]? = output[i]? := by
  induction room generalizing runList prev count output with
  | zero =>
    cases h
    exact fun _ _ => rfl
  | succ room ih =>
    cases runList with
    | nil =>
      cases h
      exact fun _ _ => rfl
    | cons entry data =>
      rw [parseFrom_cons] at h
      dsimp only at h
      split at h
      · cases h
        exact fun _ _ => rfl
      split at h
      · cases h
        exact fun _ _ => rfl
      obtain ⟨_, _, h⟩ := Option.bind_eq_some_iff.mp h
      split at h
      · cases h
        exact fun _ _ => rfl
      obtain ⟨_, _, h⟩ := Option.bind_eq_some_iff.mp h
      obtain ⟨_, _, h⟩ := Option.bind_eq_some_iff.mp h
      intro i hi
      rw [ih h i (Nat.lt_succ_of_lt hi), getElem?_set_ne (Nat.ne_of_gt hi)]

/-! ## The round trip -/

def deltas (prev : Int) : List ClusterRun → List Int
  | [] => []
  | (start, _) :: runs => (start.toNat - prev) :: deltas start.toNat runs

lemma asI64_eq {x : UInt64} (hx : x.toNat < 2 ^ 63) : asI64 x = x.toNat := by
  apply Int.bmod_eq_of_le
  · omega
  · omega

variable (runs : List ClusterRun)

lemma encodeFrom_cons {prev : Int} {start length : UInt64}
    (hpv : 0 ≤ prev) (hpv' : prev < 2 ^ 63) (hs0 : start.toNat < 2 ^ 63) (hl : length ≠ 0) :
    encodeFrom prev ((start, length) :: runs)
      = header (offsetSizeOf (start.toNat - prev)) (lengthSizeOf length)
          :: (leBytes (lengthSizeOf length) length.toNat
            ++ (deltaBytes (start.toNat - prev)).take (offsetSizeOf (start.toNat - prev))
            ++ encodeFrom start.toNat runs) := by
  have hdl : (asI64 start - prev).bmod (2 ^ 64) = start.toNat - prev := by
    rw [asI64_eq hs0]
    apply Int.bmod_eq_of_le
    · omega
    · omega
  rw [encodeFrom, if_neg hl]
  dsimp only
  rw [hdl, leBytes_eq_map, asI64_eq hs0, cons_append, cons_append]

lemma parseFrom_encodeFrom_cons {prev start length : UInt64}
    (rest : Bytes) (hpv : prev.toNat < 2 ^ 63) (hs0 : start.toNat < 2 ^ 63) (hln : length ≠ 0)
    (room count : Nat) (output : List ClusterRun) :
    parseFrom (room + 1) (encodeFrom prev.toNat ((start, length) :: runs) ++ rest) prev count output
      = (addSigned 64 prev.toNat
          (if Decodable (start.toNat - prev.toNat) then (start.toNat - prev.toNat : Int)
            else start.toNat - prev.toNat + 2 ^ (8 * offsetSizeOf (start.toNat - prev.toNat)))).bind
        fun cluster =>
          parseFrom room (encodeFrom start.toNat runs ++ rest) (UInt64.ofInt cluster) (count + 1)
            (output.set count (UInt64.ofInt cluster, length)) := by
  have hrg := offsetSizeOf_range (start.toNat - prev.toNat)
  have hv := leValue_lengthBytes length
  have hl : ((deltaBytes (start.toNat - prev.toNat)).take
      (offsetSizeOf (start.toNat - prev.toNat))).length = offsetSizeOf (start.toNat - prev.toNat) := by
    rw [length_take]
    exact Nat.min_eq_left (by unfold deltaBytes; rw [leBytes_length]; exact hrg.2)
  have hrc := @parseFrom_record (leBytes (lengthSizeOf length) length.toNat)
    ((deltaBytes (start.toNat - prev.toNat)).take (offsetSizeOf (start.toNat - prev.toNat)))
    (by rw [leBytes_length]; exact lengthSizeOf_pos length)
    (by rw [leBytes_length]; exact lengthSizeOf_le length)
    (by rw [hl]; exact hrg.2)
    (by rw [hv]; exact fun h => hln (UInt64.toNat_inj.mp h))
    room (encodeFrom start.toNat runs ++ rest) prev count output
  rw [hl, leBytes_length, hv, UInt64.ofNat_toNat, asI64_eq hpv,
    signExtend_delta (by omega) (by omega)] at hrc
  rw [encodeFrom_cons runs (by omega) (by omega) hs0 hln, ← hrc, cons_append, append_assoc]

lemma ofInt_toNat (x : UInt64) : UInt64.ofInt (x.toNat : Int) = x := by
  apply UInt64.toNat_inj.mp
  have hx := x.toNat_lt
  unfold UInt64.ofInt
  rw [UInt64.toNat_ofNat']
  omega

lemma take_set_drop {α : Type} {output : List α} {count : Nat} (hcn : count < output.length)
    (run : α) (runs : List α) (n : Nat) :
    (output.set count run).take (count + 1) ++ runs ++ (output.set count run).drop (count + 1 + n)
      = output.take count ++ run :: runs ++ output.drop (count + (n + 1)) := by
  have hst : (output.set count run).take (count + 1) = output.take count ++ [run] := by
    rw [set_eq_take_append_cons_drop, if_pos hcn, take_append, take_take, length_take]
    have hmn : min count output.length = count := Nat.min_eq_left (Nat.le_of_lt hcn)
    rw [hmn, Nat.min_eq_right (Nat.le_succ count), Nat.add_sub_cancel_left]
    rfl
  rw [hst, drop_set_of_lt (by omega), append_assoc, append_assoc, append_assoc,
    Nat.add_assoc, Nat.add_comm 1 n]
  rfl

lemma ofInt_ne_start {start prev : UInt64} (hs0 : start.toNat < 2 ^ 63)
    (hpv : prev.toNat < 2 ^ 63) (hbd : ¬ Decodable (start.toNat - prev.toNat)) :
    ofInt (prev.toNat + (start.toNat - prev.toNat
      + 2 ^ (8 * offsetSizeOf (start.toNat - prev.toNat)))) ≠ start := by
  generalize hw : offsetSizeOf (start.toNat - prev.toNat) = w
  have hsc := @offsetSizeOf_spec (start.toNat - prev.toNat) (by omega) (by omega)
  have hrg := offsetSizeOf_range (start.toNat - prev.toNat)
  rw [hw] at hsc hrg
  have hsv : w ≤ 7 := by
    rcases Nat.lt_or_eq_of_le hrg.2 with hlt | heq
    · exact Nat.le_of_lt_succ hlt
    · exact absurd (hsc.2.2.mpr (Or.inr (by rw [heq]; decide))) hbd
  have hp : (0 : Int) < 2 ^ (8 * w) := pow_pos (by decide) _
  have hle : (2 : Int) ^ (8 * w) ≤ 2 ^ 56 := pow_le_pow_right₀ (by decide) (by omega)
  intro heq
  have hnt := congrArg toNat heq
  unfold ofInt at hnt
  rw [toNat_ofNat'] at hnt
  omega

lemma parseFrom_encodeFrom_iff {prev : UInt64} {room count : Nat}
    {output : List ClusterRun} (hpv : prev.toNat < 2 ^ 63)
    (hrs : ∀ run ∈ runs, run.1.toNat < 2 ^ 63 ∧ run.2 ≠ 0) (hro : runs.length ≤ room)
    (hot : count + room = output.length) :
    parseFrom room (encodeFrom prev.toNat runs ++ [0]) prev count output
        = some (count + runs.length, output.take count ++ runs ++ output.drop (count + runs.length))
      ↔ ∀ delta ∈ deltas prev.toNat runs, Decodable delta := by
  induction runs generalizing prev room count output with
  | nil =>
    have hso : parseFrom room (encodeFrom prev.toNat [] ++ [0]) prev count output
        = some (count, output) := by
      cases room with
      | zero => rfl
      | succ room => rfl
    rw [hso, append_nil, length_nil, Nat.add_zero, take_append_drop]
    exact ⟨nofun, fun _ => rfl⟩
  | cons run runs ih =>
    obtain ⟨start, length⟩ := run
    obtain ⟨hs0, hl⟩ : start.toNat < 2 ^ 63 ∧ length ≠ 0 := hrs (start, length) mem_cons_self
    obtain ⟨room, rfl⟩ := Nat.exists_eq_add_of_le' (Nat.le_trans (Nat.le_add_left 1 _) hro)
    have hcn : count < output.length := by omega
    rw [parseFrom_encodeFrom_cons runs [0] hpv hs0 hl, deltas, forall_mem_cons]
    by_cases hgd : Decodable (start.toNat - prev.toNat)
    · -- the run comes back, and the rest decides
      have hsm : (prev.toNat : Int) + (start.toNat - prev.toNat) = start.toNat := by omega
      have had : addSigned 64 prev.toNat (start.toNat - prev.toNat : Int)
          = some (start.toNat : Int) := by
        unfold addSigned
        rw [hsm, if_pos (by omega)]
      rw [if_pos hgd, had, Option.bind_some, ofInt_toNat]
      have hih := @ih start room (count + 1) (output.set count (start, length)) hs0
        (fun run hr => hrs run (mem_cons_of_mem _ hr)) (Nat.le_of_succ_le_succ hro)
        (by rw [length_set]; omega)
      rw [take_set_drop hcn, Nat.add_assoc, Nat.add_comm 1] at hih
      rw [length_cons, hih]
      exact ⟨fun h => ⟨hgd, h⟩, And.right⟩
    -- the stored cluster is another one, and stays so
    rw [if_neg hgd]
    refine ⟨fun h => ?_, fun h => absurd h.1 hgd⟩
    obtain ⟨cluster, had, h⟩ := Option.bind_eq_some_iff.mp h
    have hst := parseFrom_frame h count (Nat.lt_succ_self count)
    have hcl : prev.toNat + (start.toNat - prev.toNat
        + 2 ^ (8 * offsetSizeOf (start.toNat - prev.toNat))) = cluster := by
      unfold addSigned at had
      split at had
      · exact Option.some.inj had
      · cases had
    have hta : (output.take count).length = count := by
      rw [length_take]
      exact Nat.min_eq_left (Nat.le_of_lt hcn)
    rw [getElem?_set_self hcn, ← hcl, append_assoc,
      getElem?_append_right (Nat.le_of_eq hta), hta, Nat.sub_self] at hst
    have heq : start = ofInt _ := congrArg Prod.fst (Option.some.inj hst)
    exact absurd heq.symm (ofInt_ne_start hs0 hpv hgd)

/-- An encoded list of runs comes back exactly if no distance between neighbours is negative and of
3, 5, 6 or 7 bytes. -/
theorem parseRunList_encodeRunList_iff {runs output : List ClusterRun}
    (hroom : runs.length ≤ output.length) (hruns : ∀ run ∈ runs, run.1.toNat < 2 ^ 63 ∧ 1 ≤ run.2) :
    parseRunList (encodeRunList runs ++ [0]) output
        = some (runs.length, runs ++ output.drop runs.length)
      ↔ ∀ delta ∈ deltas 0 runs, Decodable delta := by
  have hif := @parseFrom_encodeFrom_iff runs 0 output.length 0 output (by decide)
    (fun run hr => ⟨(hruns run hr).1, fun h0 => by
      have hp := (hruns run hr).2
      rw [h0] at hp
      exact absurd hp (by decide)⟩) hroom (Nat.zero_add _)
  rw [Nat.zero_add] at hif
  exact hif

theorem parseRunList_encodeRunList_near :
    parseRunList (encodeRunList [(1000, 3), (400, 5)] ++ [0]) [(0, 0), (0, 0), (7, 7)]
      = some (2, [(1000, 3), (400, 5), (7, 7)]) :=
  (@parseRunList_encodeRunList_iff [(1000, 3), (400, 5)] [(0, 0), (0, 0), (7, 7)] (by decide)
    (by simp)).mpr (by decide)

/-- A distance of -99999 clusters takes three bytes and is read as 16677217. -/
theorem parseRunList_encodeRunList_far :
    parseRunList (encodeRunList [(100000, 1), (1, 1)] ++ [0]) [(0, 0), (0, 0)]
      = some (2, [(100000, 1), (16777217, 1)]) := by
  decide

end Nt61.Ntfs
