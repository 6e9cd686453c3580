/-
Fields — byte strings that are written field by field.

`Spells data off bs`: the bytes `bs` stand at `off`. `patch` overwrites bytes in place and stops the
program outside the string; `patchFields` writes the fields of a record.
-/
import Nt61.Lib.Bytes

namespace Nt61.Lib

open List

/-! ## Reading -/

/-- `&data[off..off + len]`. -/
def slice (data : Bytes) (off len : Nat) : Bytes := (data.drop off).take len

def readLe (data : Bytes) (off n : Nat) : Option Nat :=
  if off + n ≤ data.length then some (leValue (slice data off n)) else none

/-- The bytes `bs` stand at `off`. -/
def Spells (data : Bytes) (off : Nat) (bs : Bytes) : Prop :=
  ∀ i < bs.length, data[off + i]? = bs[i]?

section

variable {data data' bs : Bytes} {off : Nat}

lemma getElem?_slice (data : Bytes) (off len i : Nat) :
    (slice data off len)[i]? = if i < len then data[off + i]? else none := by
  rw [slice, getElem?_take]
  split
  · rw [getElem?_drop]
  · rfl

lemma length_slice {len : Nat} (h : off + len ≤ data.length) : (slice data off len).length = len := by
  rw [slice, length_take, length_drop]
  omega

lemma Spells.slice_eq (h : Spells data off bs) : slice data off bs.length = bs := by
  apply ext_getElem?
  intro i
  rw [getElem?_slice]
  split
  · next hi => exact h i hi
  · next hi => rw [getElem?_eq_none (by omega)]

lemma Spells.length_le (h : Spells data off bs) (hp : 0 < bs.length) :
    off + bs.length ≤ data.length := by
  have hla := h (bs.length - 1) (by omega)
  rw [List.getElem?_eq_getElem (show bs.length - 1 < bs.length by omega)] at hla
  obtain ⟨_, -⟩ := List.getElem?_eq_some_iff.mp hla
  omega

lemma Spells.congr (h : Spells data off bs)
    (hs : ∀ i, off ≤ i → i < off + bs.length → data'[i]? = data[i]?) : Spells data' off bs := by
  intro i hi
  rw [hs (off + i) (by omega) (by omega)]
  exact h i hi

lemma spells_append {as : Bytes} :
    Spells data off (as ++ bs) ↔ Spells data off as ∧ Spells data (off + as.length) bs := by
  constructor
  · intro h
    constructor
    · intro i hi
      rw [h i (by rw [length_append]; omega), getElem?_append_left hi]
    intro i hi
    rw [Nat.add_assoc, h _ (by rw [length_append]; omega),
      getElem?_append_right (Nat.le_add_right _ _), Nat.add_sub_cancel_left]
  rintro ⟨has, hbs⟩ i hi
  rw [length_append] at hi
  by_cases hlt : i < as.length
  · rw [has i hlt, getElem?_append_left hlt]
  · rw [getElem?_append_right (by omega), ← hbs (i - as.length) (by omega), Nat.add_assoc,
      Nat.add_sub_cancel' (by omega)]

lemma Spells.readLe {n v : Nat} (h : Spells data off (leBytes n v)) (hn : 0 < n)
    (hv : v < 256 ^ n) : readLe data off n = some v := by
  have hle := h.length_le
  have heq := h.slice_eq
  rw [leBytes_length] at hle heq
  unfold Lib.readLe
  rw [if_pos (hle hn), heq, leValue_leBytes, Nat.mod_eq_of_lt hv]

lemma readLe_lt {n v : Nat} (h : readLe data off n = some v) : v < 256 ^ n := by
  unfold Lib.readLe at h
  split at h
  · next hle =>
    cases h
    have hlt := leValue_lt (slice data off n)
    rwa [length_slice hle] at hlt
  · cases h

end

/-! ## Writing -/

/-- `data[off..off + bs.len()].copy_from_slice(bs)`. -/
def patch (data : Bytes) (off : Nat) (bs : Bytes) : Option Bytes :=
  if off + bs.length ≤ data.length then
    some (data.take off ++ bs ++ data.drop (off + bs.length))
  else none

def patchFields (data : Bytes) (base : Nat) (fields : List (Nat × Bytes)) : Option Bytes :=
  fields.foldlM (fun data field => patch data (base + field.1) field.2) data

section

variable {data data' bs : Bytes} {off base : Nat} {fields : List (Nat × Bytes)}

lemma patch_eq_some_iff : patch data off bs = some data' ↔
    off + bs.length ≤ data.length ∧ data' = data.take off ++ bs ++ data.drop (off + bs.length) := by
  unfold patch
  split
  · next h => simp [h, eq_comm]
  · next h => simp [h]

section

variable (h : patch data off bs = some data')
include h

lemma length_patch : data'.length = data.length := by
  obtain ⟨_, rfl⟩ := patch_eq_some_iff.mp h
  rw [length_append, length_append, length_take, length_drop]
  omega

lemma getElem?_patch (i : Nat) :
    data'[i]? = if off ≤ i ∧ i < off + bs.length then bs[i - off]? else data[i]? := by
  obtain ⟨_, rfl⟩ := patch_eq_some_iff.mp h
  have hta : (data.take off).length = off := length_take_of_le (by omega)
  rw [append_assoc]
  by_cases hlw : i < off
  · rw [if_neg (by omega), getElem?_append_left (by omega), getElem?_take_of_lt hlw]
  rw [getElem?_append_right (by omega), hta]
  by_cases hmd : i < off + bs.length
  · rw [if_pos (by omega), getElem?_append_left (by omega)]
  rw [if_neg (by omega), getElem?_append_right (by omega), getElem?_drop]
  congr 1
  omega

lemma patch_spells : Spells data' off bs := by
  intro i hi
  rw [getElem?_patch h, if_pos (by omega), Nat.add_sub_cancel_left]

end

lemma patchFields_cons {field : Nat × Bytes} : patchFields data base (field :: fields)
      = (patch data (base + field.1) field.2).bind fun data => patchFields data base fields := rfl

variable (h : patchFields data base fields = some data')
include h

lemma length_patchFields : data'.length = data.length := by
  induction fields generalizing data with
  | nil =>
    cases h
    rfl
  | cons field fields ih =>
    obtain ⟨_, h1, hr⟩ := Option.bind_eq_some_iff.mp h
    rw [ih hr, length_patch h1]

lemma patchFields_outside {i : Nat}
    (hi : ∀ field ∈ fields, i < base + field.1 ∨ base + field.1 + field.2.length ≤ i) :
    data'[i]? = data[i]? := by
  induction fields generalizing data with
  | nil =>
    cases h
    rfl
  | cons field fields ih =>
    obtain ⟨_, h1, hr⟩ := Option.bind_eq_some_iff.mp h
    have hfd := hi field mem_cons_self
    rw [ih hr fun f hf => hi f (mem_cons_of_mem _ hf), getElem?_patch h1, if_neg (by omega)]

lemma patchFields_spells (hsr : fields.Pairwise fun f g => f.1 + f.2.length ≤ g.1) :
    ∀ field ∈ fields, Spells data' (base + field.1) field.2 := by
  induction fields generalizing data with
  | nil => exact fun field hfd => absurd hfd not_mem_nil
  | cons first fields ih =>
    obtain ⟨_, h1, hr⟩ := Option.bind_eq_some_iff.mp h
    obtain ⟨hfs, hsr⟩ := pairwise_cons.mp hsr
    intro field hfd
    rcases mem_cons.mp hfd with rfl | hfd
    · -- the later fields are behind the first one
      refine (patch_spells h1).congr fun i _ hi => patchFields_outside hr fun g hg => ?_
      have := hfs g hg
      omega
    · exact ih hr hsr field hfd

end

end Nt61.Lib
