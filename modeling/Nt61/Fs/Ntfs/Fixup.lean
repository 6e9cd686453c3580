/-
Fixup — the fixups of `fs/ntfs/mod.rs`.

Before a record is written, the last two bytes of each sector are saved in the update sequence array
and replaced by the update sequence number. The array may lie anywhere in the record.

Main results:
- `fixups_reversible_iff`: for which places of the array `apply_fixup` undoes the fixups;
- `torn_write_found`: a record of which only some sectors were written is refused.
-/
import Nt61.Lib.Store

namespace Nt61.Fixup

open Lib Store Option

/-! ## The two functions. A record is its length and its bytes. -/

def entry (usaOfs i : Nat) : Nat := usaOfs + 2 + i * 2

def trailer (i : Nat) : Nat := (i + 1) * 512 - 2

/-- Two bytes, which must lie in the record. -/
def put (len : Nat) (record : Store) (a : Nat) (src : Store) : Option Store :=
  if a + 2 ≤ len then some (record.blit a 2 src) else none

def saveLoop (len usaOfs : Nat) (usn : Store) : Nat → Nat → Store → Option Store
  | 0, _, record => some record
  | n + 1, i, record => do
    let saved ← put len record (entry usaOfs i) (record.window (trailer i))
    saveLoop len usaOfs usn n (i + 1) (← put len saved (trailer i) usn)

def nextUsn (old : Nat) : Nat :=
  let usn := (old + 1) % 2 ^ 16
  if usn = 0 ∨ usn = 0xFFFF then 1 else usn

def prepareFixupForWrite (len : Nat) (record : Store) : Option (Bool × Store) :=
  let usaOfs := record.readLe 4 2
  let usaCount := record.readLe 6 2
  let fixups := usaCount - 1
  if len < 512 ∨ len % 512 ≠ 0 ∨ usaCount = 0 then some (false, record)
  else if usaOfs % 2 ≠ 0 ∨ usaOfs < 8 ∨ len < usaOfs + fixups * 2 then some (false, record)
  else if fixups ≠ len / 512 then some (false, record)
  else do
    let usn := ofBytes (leBytes 2 (nextUsn (record.readLe usaOfs 2)))
    let marked ← put len record usaOfs usn
    return (true, ← saveLoop len usaOfs usn fixups 0 marked)

/-- The loop of `apply_fixup`; it may stop halfway. -/
def restoreLoop (len usaOfs usn : Nat) : Nat → Nat → Store → Bool × Store
  | 0, _, record => (true, record)
  | n + 1, i, record =>
    if len < entry usaOfs i + 2 ∨ len < trailer i + 2 then (false, record)
    else if record.readLe (trailer i) 2 ≠ usn then (false, record)
    else
      restoreLoop len usaOfs usn n (i + 1)
        (record.blit (trailer i) 2 (record.window (entry usaOfs i)))

def applyFixup (len : Nat) (record : Store) : Bool × Store :=
  let fixupOffset := record.readLe 4 2
  let fixupSize := record.readLe 6 2
  let fixupCount := fixupSize - 1
  if len < 512 ∨ len ≤ fixupOffset ∨ fixupOffset < 8 ∨ fixupSize = 0 then (false, record)
  else if fixupCount ≠ len / 512 ∨ len < fixupOffset + 2 + fixupCount * 2 then (false, record)
  else restoreLoop len fixupOffset (record.readLe fixupOffset 2) fixupCount 0 record

/-! ## The record between the two -/

/-- What `prepare_fixup_for_write` checks before it changes the record. -/
def Accepted (len usaOfs usaCount : Nat) : Prop :=
  (512 ≤ len ∧ len % 512 = 0 ∧ usaCount = len / 512 + 1)
    ∧ usaOfs % 2 = 0 ∧ 8 ≤ usaOfs ∧ usaOfs + len / 512 * 2 ≤ len

/-- The number that is written. -/
def newNumber (record : Store) : Store :=
  ofBytes (leBytes 2 (nextUsn (record.readLe (record.readLe 4 2) 2)))

/-- The array, with the number and `n` entries, lies in the record, and a trailer in it is the
number or the trailer's own entry. -/
structure Placed (len usaOfs n : Nat) : Prop where
  inside : usaOfs + 2 * (n + 1) ≤ len
  clear : ∀ i < n, trailer i + 2 ≤ usaOfs ∨ usaOfs + 2 * (n + 1) ≤ trailer i
    ∨ trailer i = usaOfs ∨ trailer i = entry usaOfs i

/-- The trailers from `lo` up to `hi` hold the number. The bytes of those outside the array are in
the array. -/
structure Saved (usaOfs n : Nat) (usn original : Store) (lo hi : Nat) (record : Store) : Prop where
  entries : ∀ i < hi, trailer i + 2 ≤ usaOfs ∨ usaOfs + 2 * (n + 1) ≤ trailer i →
    ∀ b < 2, record (entry usaOfs i + b) = original (trailer i + b)
  trailers : ∀ i, lo ≤ i → i < hi → ∀ b < 2, record (trailer i + b) = usn b
  rest : ∀ a, (a < usaOfs ∨ usaOfs + 2 * (n + 1) ≤ a) →
    (∀ i, lo ≤ i → i < hi → a < trailer i ∨ trailer i + 2 ≤ a) → record a = original a

lemma prepare_eq (len : Nat) (record : Store) :
    (Accepted len (record.readLe 4 2) (record.readLe 6 2) ∧ prepareFixupForWrite len record
      = (saveLoop len (record.readLe 4 2) (newNumber record) (len / 512) 0
          (record.blit (record.readLe 4 2) 2 (newNumber record))).map (true, ·))
    ∨ ¬Accepted len (record.readLe 4 2) (record.readLe 6 2)
      ∧ prepareFixupForWrite len record = some (false, record) := by
  unfold prepareFixupForWrite Accepted
  dsimp only
  split
  · exact .inr ⟨by omega, rfl⟩
  split
  · exact .inr ⟨by omega, rfl⟩
  split
  · exact .inr ⟨by omega, rfl⟩
  refine .inl ⟨by omega, ?_⟩
  rw [put, if_pos (by omega), show record.readLe 6 2 - 1 = len / 512 by omega, map_eq_bind]
  rfl

section

variable {len usaOfs n k lo hi a : Nat} {usn original record record' : Store}

lemma trailer_le {i : Nat} (hl : len / 512 = n) (hi : i < n) : trailer i + 2 ≤ len := by
  unfold trailer
  omega

lemma readLe_of_bytes (h : ∀ b < 2, record (a + b) = usn b) :
    record.readLe a 2 = leValue [usn 0, usn 1] := by
  rw [← h 0 (by omega), ← h 1 (by omega)]
  rfl

/-! ### What the first loop leaves, wherever the array lies -/

lemma saveLoop_step (h : saveLoop len usaOfs usn (k + 1) lo record = some record') :
    entry usaOfs lo + 2 ≤ len ∧ saveLoop len usaOfs usn k (lo + 1)
      ((record.blit (entry usaOfs lo) 2 (record.window (trailer lo))).blit (trailer lo) 2 usn)
        = some record' := by
  rw [saveLoop] at h
  obtain ⟨saved, hpt, h⟩ := bind_eq_some_iff.mp h
  obtain ⟨marked, hpt', h⟩ := bind_eq_some_iff.mp h
  unfold put at hpt hpt'
  split at hpt <;> cases hpt
  split at hpt' <;> cases hpt'
  exact ⟨‹_›, h⟩

lemma saveLoop_inside (h : saveLoop len usaOfs usn (k + 1) lo record = some record') :
    entry usaOfs (lo + k) + 2 ≤ len := by
  induction k generalizing lo record with
  | zero => exact (saveLoop_step h).1
  | succ k ih =>
    have := ih (saveLoop_step h).2
    rwa [Nat.add_right_comm] at this

lemma saveLoop_outside (h : saveLoop len usaOfs usn k lo record = some record')
    (ha : ∀ i, lo ≤ i → i < lo + k → (a < entry usaOfs i ∨ entry usaOfs i + 2 ≤ a)
      ∧ (a < trailer i ∨ trailer i + 2 ≤ a)) : record' a = record a := by
  induction k generalizing lo record with
  | zero => rw [← some.inj h]
  | succ k ih =>
    have hlo := ha lo le_rfl (by omega)
    rw [ih (saveLoop_step h).2 fun i hle hlt => ha i (by omega) (by omega),
      blit_outside _ _ hlo.2, blit_outside _ _ hlo.1]

/-- With an even offset, a trailer meets the number whole or not at all. -/
lemma saveLoop_number (hev : usaOfs % 2 = 0)
    (h : saveLoop len usaOfs usn k lo record = some record')
    (hnm : ∀ b < 2, record (usaOfs + b) = usn b) : ∀ b < 2, record' (usaOfs + b) = usn b := by
  induction k generalizing lo record with
  | zero =>
    rw [← some.inj h]
    exact hnm
  | succ k ih =>
    refine ih (saveLoop_step h).2 fun b hb => ?_
    by_cases hme : trailer lo = usaOfs
    · rw [hme, blit_inside _ _ _ _ hb]
    · rw [blit_outside _ _ (by unfold trailer at *; omega),
        blit_outside _ _ (by unfold entry; omega), hnm b hb]

lemma saveLoop_trailer (h : saveLoop len usaOfs usn k lo record = some record') {t b : Nat}
    (hle : lo ≤ t) (hlt : t < lo + k) (hb : b < 2)
    (ho : ∀ i, t < i → trailer t + 2 ≤ entry usaOfs i) :
    record' (trailer t + b) = usn b := by
  induction k generalizing lo record with
  | zero => omega
  | succ k ih =>
    obtain rfl | hlo := Nat.eq_or_lt_of_le hle
    · rw [saveLoop_outside (saveLoop_step h).2 fun i hi _ => ?_, blit_inside _ _ _ _ hb]
      have := ho i hi
      unfold trailer at *
      omega
    · exact ih (saveLoop_step h).2 hlo (by omega)

/-- Entry `j` is the trailer as it was, if what is written in between is elsewhere. -/
lemma saveLoop_entry (h : saveLoop len usaOfs usn k lo record = some record') {j b : Nat}
    (hle : lo ≤ j) (hlt : j < lo + k) (hb : b < 2)
    (hin : ∀ i < j, entry usaOfs i + 2 ≤ trailer j)
    (ho : ∀ i, j ≤ i → entry usaOfs j + 2 ≤ trailer i) :
    record' (entry usaOfs j + b) = record (trailer j + b) := by
  induction k generalizing lo record with
  | zero => omega
  | succ k ih =>
    obtain rfl | hlo := Nat.eq_or_lt_of_le hle
    · have hse := ho lo le_rfl
      rw [saveLoop_outside (saveLoop_step h).2 fun i hi _ => ?_, blit_outside _ _ (by omega),
        blit_inside _ _ _ _ hb, window]
      have := ho i (by omega)
      unfold entry at *
      omega
    · have := hin lo hlo
      rw [ih (saveLoop_step h).2 hlo (by omega), blit_outside _ _ (by unfold trailer; omega),
        blit_outside _ _ (by omega)]

/-! ### And the second -/

lemma restoreLoop_outside {number : Nat}
    (ha : ∀ i, lo ≤ i → i < lo + k → a < trailer i ∨ trailer i + 2 ≤ a) :
    (restoreLoop len usaOfs number k lo record).2 a = record a := by
  induction k generalizing lo record with
  | zero => rfl
  | succ k ih =>
    rw [restoreLoop]
    split
    · rfl
    split
    · rfl
    rw [ih fun i hle hlt => ha i (by omega) (by omega), blit_outside _ _ (ha lo le_rfl (by omega))]

lemma restoreLoop_trailer {number j b : Nat}
    (hok : (restoreLoop len usaOfs number k lo record).1 = true) (hle : lo ≤ j) (hlt : j < lo + k)
    (hb : b < 2) (hin : ∀ i < j, trailer i + 2 ≤ entry usaOfs j) :
    (restoreLoop len usaOfs number k lo record).2 (trailer j + b) = record (entry usaOfs j + b) := by
  induction k generalizing lo record with
  | zero => omega
  | succ k ih =>
    rw [restoreLoop] at hok ⊢
    split at hok
    · cases hok
    split at hok
    · cases hok
    rw [if_neg ‹_›, if_neg ‹_›]
    obtain rfl | hlo := Nat.eq_or_lt_of_le hle
    · rw [restoreLoop_outside (by unfold trailer; omega), blit_inside _ _ _ _ hb, window]
    · rw [ih hok hlo (by omega), blit_outside _ _ (by have := hin lo hlo; omega)]

/-- `apply_fixup` compares every trailer with the number. -/
lemma restoreLoop_ok {number : Nat} :
    (restoreLoop len usaOfs number k lo record).1 = true → ∀ i, lo ≤ i → i < lo + k →
      record.readLe (trailer i) 2 = number := by
  induction k generalizing lo record with
  | zero => omega
  | succ k ih =>
    rw [restoreLoop]
    split
    · nofun
    split
    · nofun
    next _ hs =>
    intro hok i hlo hi
    obtain rfl | hlt := Nat.eq_or_lt_of_le hlo
    · exact not_not.mp hs
    · rw [← ih hok i hlt (by omega)]
      exact readLe_congr fun b _ => (blit_outside _ _ (by unfold trailer; omega)).symm

/-! ### Both, if the array is well placed -/

variable (hp : Placed len usaOfs n)
include hp

lemma Saved.save (h : Saved usaOfs n usn original 0 hi record) (hi' : hi < n) :
    Saved usaOfs n usn original 0 (hi + 1)
      ((record.blit (entry usaOfs hi) 2 (record.window (trailer hi))).blit (trailer hi) 2 usn) := by
  have hcl := hp.clear hi hi'
  unfold entry at hcl
  constructor
  · intro i hi ho b hb
    obtain hlt | rfl := Nat.lt_succ_iff_lt_or_eq.mp hi
    · rw [blit_outside _ _ (by unfold entry; omega), blit_outside _ _ (by unfold entry; omega),
        h.entries i hlt ho b hb]
    · rw [blit_outside _ _ (by unfold entry; omega), blit_inside _ _ _ _ hb]
      exact h.rest _ (by omega) (by unfold trailer; omega)
  · intro i _ hi b hb
    obtain hlt | rfl := Nat.lt_succ_iff_lt_or_eq.mp hi
    · have := hp.clear i (by omega)
      unfold entry at this
      rw [blit_outside _ _ (by unfold trailer; omega),
        blit_outside _ _ (by unfold entry; omega), h.trailers i (Nat.zero_le i) hlt b hb]
    · rw [blit_inside _ _ _ _ hb]
  · intro a ha ho
    rw [blit_outside _ _ (ho hi (Nat.zero_le hi) (Nat.lt_succ_self hi)),
      blit_outside _ _ (by unfold entry; omega)]
    exact h.rest a ha fun i hlo hlt => ho i hlo (by omega)

lemma Saved.restore (h : Saved usaOfs n usn original lo n record) (hlo : lo < n) :
    Saved usaOfs n usn original (lo + 1) n
      (record.blit (trailer lo) 2 (record.window (entry usaOfs lo))) := by
  have hcl := hp.clear lo hlo
  unfold entry at hcl
  constructor
  · intro i hi ho b hb
    by_cases hse : i = lo
    · subst hse
      rw [blit_outside _ _ (by unfold entry; omega), h.entries i hi ho b hb]
    · rw [blit_outside _ _ (by unfold entry; omega), h.entries i hi ho b hb]
  · intro i hle hi b hb
    rw [blit_outside _ _ (by unfold trailer; omega), h.trailers i (by omega) hi b hb]
  · intro a ha ho
    by_cases hin : a < trailer lo ∨ trailer lo + 2 ≤ a
    · rw [blit_outside _ _ hin]
      refine h.rest a ha fun i hle hi => ?_
      obtain rfl | hlt := Nat.eq_or_lt_of_le hle
      · exact hin
      · exact ho i hlt hi
    · obtain ⟨b, rfl⟩ := Nat.exists_eq_add_of_le (show trailer lo ≤ a by omega)
      rw [blit_inside _ _ _ _ (by omega), window,
        h.entries lo hlo (by unfold trailer at *; omega) b (by omega)]

lemma saveLoop_spec (hl : len / 512 = n) (k : Nat) (hk : k + hi = n)
    (h : Saved usaOfs n usn original 0 hi record) :
    ∃ record', saveLoop len usaOfs usn k hi record = some record'
      ∧ Saved usaOfs n usn original 0 n record' := by
  induction k generalizing hi record with
  | zero =>
    obtain rfl : hi = n := by omega
    exact ⟨record, rfl, h⟩
  | succ k ih =>
    have hin := hp.inside
    obtain ⟨record', hlp, hsv⟩ := ih (by omega) (h.save hp (by omega))
    refine ⟨record', ?_, hsv⟩
    rw [saveLoop, put, if_pos (by unfold entry; omega), bind_eq_bind, bind_some, put,
      if_pos (trailer_le hl (by omega))]
    exact hlp

lemma restoreLoop_spec (hl : len / 512 = n) (k : Nat) (hk : k + lo = n)
    (h : Saved usaOfs n usn original lo n record) :
    (restoreLoop len usaOfs (leValue [usn 0, usn 1]) k lo record).1 = true
      ∧ Saved usaOfs n usn original n n
        (restoreLoop len usaOfs (leValue [usn 0, usn 1]) k lo record).2 := by
  induction k generalizing lo record with
  | zero =>
    obtain rfl : lo = n := by omega
    exact ⟨rfl, h⟩
  | succ k ih =>
    have hin := hp.inside
    have he := trailer_le hl (show lo < n by omega)
    rw [restoreLoop, if_neg (by unfold entry; omega),
      if_neg (not_not.mpr (readLe_of_bytes (h.trailers lo le_rfl (by omega))))]
    exact ih (by omega) (h.restore hp (by omega))

/-- The record that is written: its header is as before, the number and the trailers are new. -/
lemma prepare_spec (usn : Store) {usaCount : Nat} (hn : n = len / 512) (hac : Accepted len usaOfs usaCount) :
    ∃ record', saveLoop len usaOfs usn n 0 (original.blit usaOfs 2 usn) = some record'
      ∧ Saved usaOfs n usn original 0 n record' ∧ (∀ b < 2, record' (usaOfs + b) = usn b)
      ∧ ∀ a, a + 2 ≤ 8 → record'.readLe a 2 = original.readLe a 2 := by
  have hin := hp.inside
  obtain ⟨-, hev, hof, -⟩ := hac
  have hmr : Saved usaOfs n usn original 0 0 (original.blit usaOfs 2 usn) :=
    ⟨nofun, nofun, fun a ha _ => blit_outside _ _ (by omega)⟩
  obtain ⟨record', hlp, hsv⟩ := saveLoop_spec hp hn.symm n (Nat.add_zero n) hmr
  refine ⟨record', hlp, hsv, saveLoop_number hev hlp fun b hb => blit_inside _ _ _ _ hb, ?_⟩
  exact fun a ha => readLe_congr fun i hi => hsv.rest _ (by omega) (by unfold trailer; omega)

end

/-! ## The round trip -/

/-- The record is written, and if it was changed, reading it gives back what is outside the array. -/
def Reversible (len : Nat) (record : Store) : Prop :=
  ∃ ok record', prepareFixupForWrite len record = some (ok, record')
    ∧ (ok = true → (applyFixup len record').1 = true
      ∧ ∀ a, a < record.readLe 4 2 ∨ record.readLe 4 2 + 2 * record.readLe 6 2 ≤ a →
        (applyFixup len record').2 a = record a)

lemma applyFixup_eq {len : Nat} {record : Store}
    (hac : Accepted len (record.readLe 4 2) (record.readLe 6 2))
    (hin : record.readLe 4 2 + 2 * (len / 512 + 1) ≤ len) : applyFixup len record
      = restoreLoop len (record.readLe 4 2) (record.readLe (record.readLe 4 2) 2) (len / 512) 0
        record := by
  obtain ⟨⟨hl, -, hcn⟩, -, hof, -⟩ := hac
  unfold applyFixup
  dsimp only
  rw [if_neg (by omega), if_neg (by omega), show record.readLe 6 2 - 1 = len / 512 by omega]

lemma reversible_of_placed {len : Nat} {record : Store}
    (hp : Accepted len (record.readLe 4 2) (record.readLe 6 2) →
      Placed len (record.readLe 4 2) (len / 512)) : Reversible len record := by
  obtain ⟨hac, hpr⟩ | ⟨-, hpr⟩ := prepare_eq len record
  swap
  · exact ⟨_, _, hpr, nofun⟩
  specialize hp hac
  obtain ⟨record', hlp, hsv, hnm, hhd⟩ := prepare_spec hp (newNumber record) rfl hac
  refine ⟨true, record', by rw [hpr, hlp, map_some], fun _ => ?_⟩
  obtain ⟨hok, he⟩ := restoreLoop_spec hp rfl _ (Nat.add_zero _) hsv
  have h4 := hhd 4 (by omega)
  rw [applyFixup_eq (by rwa [h4, hhd 6 (by omega)]) (by rw [h4]; exact hp.inside), h4,
    readLe_of_bytes hnm]
  refine ⟨hok, fun a ha => he.rest a ?_ (by omega)⟩
  have := hac.1.2.2
  omega

/-- A record of zeros with the array at the given place. -/
def blank (usaOfs usaCount : Nat) : Store :=
  ofBytes ([0, 0, 0, 0] ++ (leBytes 2 usaOfs ++ (leBytes 2 usaCount ++ [])))

lemma blank_fields {usaOfs usaCount : Nat} (ho : usaOfs < 2 ^ 16) (hc : usaCount < 2 ^ 16) :
    (blank usaOfs usaCount).readLe 4 2 = usaOfs ∧ (blank usaOfs usaCount).readLe 6 2 = usaCount := by
  obtain ⟨h4, hw⟩ := readLe_of_window (window_ofBytes_append [0, 0, 0, 0]
    (leBytes 2 usaOfs ++ (leBytes 2 usaCount ++ [])))
  exact ⟨h4.trans (Nat.mod_eq_of_lt ho), (readLe_of_window hw).1.trans (Nat.mod_eq_of_lt hc)⟩

lemma blank_zero {usaOfs usaCount a : Nat} (ha : 8 ≤ a) : blank usaOfs usaCount a = 0 := by
  unfold blank ofBytes
  exact List.getD_eq_default _ _ (by simpa using ha)

/-- The array of a blank record must be well placed: a trailer in another's entry is lost, or not
the number. -/
lemma placed_of_reversible {len usaOfs usaCount : Nat} (ho : usaOfs < 2 ^ 16)
    (hc : usaCount < 2 ^ 16) (hac : Accepted len usaOfs usaCount)
    (h : Reversible len (blank usaOfs usaCount)) : Placed len usaOfs (len / 512) := by
  obtain ⟨h4, h6⟩ := blank_fields ho hc
  obtain ⟨ok, record', hpp, hrv⟩ := h
  obtain ⟨-, heq⟩ | ⟨hno, -⟩ := prepare_eq len (blank usaOfs usaCount)
  swap
  · exact absurd (by rwa [h4, h6]) hno
  obtain ⟨⟨hl, hmd, hcn⟩, hev, hof, hro⟩ := id hac
  have hus : newNumber (blank usaOfs usaCount) = ofBytes [1, 0] := by
    have h0 : (blank usaOfs usaCount).readLe usaOfs 2 = 0 := by
      unfold Store.readLe Store.slice
      simp [List.range_succ, blank_zero (show 8 ≤ usaOfs from hof),
        blank_zero (show 8 ≤ usaOfs + 1 by omega), leValue]
    rw [newNumber, h4, h0]
    rfl
  rw [heq, h4, hus] at hpp
  obtain ⟨saved, hlp, hpr⟩ := map_eq_some_iff.mp hpp
  cases hpr
  obtain ⟨n, hn⟩ : ∃ n, len / 512 = n + 1 := ⟨len / 512 - 1, by omega⟩
  have hin : usaOfs + 2 * (len / 512 + 1) ≤ len := by
    rw [hn] at hlp ⊢
    have := saveLoop_inside hlp
    unfold entry at this
    omega
  have hfr {a : Nat} (ha : a < usaOfs) (hfs : a < 510) : record' a = blank usaOfs usaCount a := by
    rw [saveLoop_outside hlp (by unfold entry trailer; omega), blit_outside _ _ (by omega)]
  have hhd (a : Nat) (ha : a + 2 ≤ 8) : record'.readLe a 2 = (blank usaOfs usaCount).readLe a 2 :=
    readLe_congr fun i hi => hfr (by omega) (by omega)
  have h4' : record'.readLe 4 2 = usaOfs := (hhd 4 (by omega)).trans h4
  have hnm := saveLoop_number hev hlp fun b hb => blit_inside _ _ _ _ hb
  obtain ⟨hok, hba⟩ := hrv rfl
  rw [applyFixup_eq (by rwa [h4', hhd 6 (by omega), h6]) (by rwa [h4']), h4'] at hok hba
  rw [h4, h6] at hba
  refine ⟨hin, fun t ht => ?_⟩
  by_contra hno
  obtain ⟨j, hj, hme⟩ : ∃ j < len / 512, trailer t = entry usaOfs j :=
    ⟨(trailer t - usaOfs - 2) / 2, by unfold trailer entry at *; omega,
      by unfold trailer entry at *; omega⟩
  obtain hlt | rfl | hgt := Nat.lt_trichotomy j t
  · -- entry `j` is overwritten with the number when trailer `t` is saved
    have hls := restoreLoop_trailer (b := 0) hok (Nat.zero_le j) (by omega) (by omega)
      (by unfold trailer entry at *; omega)
    rw [hba _ (by unfold trailer entry at *; omega), blank_zero (by unfold trailer; omega),
      ← hme, saveLoop_trailer hlp (Nat.zero_le t) (by omega) (by omega)
        (by unfold trailer entry at *; omega)] at hls
    exact absurd hls (by decide)
  · omega
  · -- trailer `t` is overwritten with the bytes of trailer `j`
    have hs := restoreLoop_ok hok t (Nat.zero_le t) (by omega)
    have h0 : ∀ b < 2, record' (trailer t + b) = ofBytes [0, 0] b := by
      intro b hb
      rw [hme, saveLoop_entry hlp (Nat.zero_le j) (by omega) hb
          (by unfold trailer entry at *; omega) (by unfold trailer entry at *; omega),
        blit_outside _ _ (by unfold trailer entry at *; omega),
        blank_zero (by unfold trailer; omega)]
      obtain rfl | rfl : b = 0 ∨ b = 1 := by omega
      · rfl
      · rfl
    rw [readLe_of_bytes h0, readLe_of_bytes hnm] at hs
    exact absurd hs (by decide)

/-- **Fixups are undone** in every record of a layout, exactly if `prepare_fixup_for_write` leaves
the record alone, or the array lies in the record and no trailer is the entry of another. -/
theorem fixups_reversible_iff (len : Nat) (usaOfs usaCount : UInt16) :
    (∀ record : Store, record.readLe 4 2 = usaOfs.toNat → record.readLe 6 2 = usaCount.toNat →
      Reversible len record)
    ↔ (Accepted len usaOfs.toNat usaCount.toNat → Placed len usaOfs.toNat (len / 512)) := by
  have ho := usaOfs.toNat_lt
  have hc := usaCount.toNat_lt
  constructor
  · intro h hac
    obtain ⟨h4, h6⟩ := blank_fields ho hc
    exact placed_of_reversible ho hc hac (h _ h4 h6)
  · intro hp record h4 h6
    exact reversible_of_placed (by rwa [h4, h6])

/-- The room of the number itself is not asked for. -/
theorem entry_behind_record : prepareFixupForWrite 512 (blank 510 2) = none := by decide

/-! ## Torn writes -/

lemma nextUsn_ne (old : Nat) : nextUsn old ≠ old ∧ nextUsn old < 2 ^ 16 := by
  unfold nextUsn
  dsimp only
  split <;> omega

lemma applyFixup_ok {len : Nat} {record : Store} (h : (applyFixup len record).1 = true) :
    ∀ i < len / 512, record.readLe (trailer i) 2 = record.readLe (record.readLe 4 2) 2 := by
  unfold applyFixup at h
  dsimp only at h
  split at h
  · cases h
  split at h
  · cases h
  next hcn =>
  exact fun i hi => restoreLoop_ok h i (Nat.zero_le i) (by omega)

/-- The record that is written, with the number in all trailers. -/
lemma prepare_ok {len : Nat} {record record' : Store}
    (hp : Placed len (record.readLe 4 2) (len / 512))
    (h : prepareFixupForWrite len record = some (true, record')) :
    512 ≤ len ∧ len % 512 = 0 ∧ record'.readLe 4 2 = record.readLe 4 2
      ∧ ∃ usn, usn ≠ record.readLe (record.readLe 4 2) 2
        ∧ record'.readLe (record.readLe 4 2) 2 = usn
        ∧ ∀ i < len / 512, record'.readLe (trailer i) 2 = usn := by
  obtain ⟨hac, hpr⟩ | ⟨-, hpr⟩ := prepare_eq len record
  swap
  · cases hpr.symm.trans h
  obtain ⟨saved, hlp, hsv, hnm, hhd⟩ := prepare_spec hp (newNumber record) rfl hac
  rw [hpr, hlp] at h
  cases h
  obtain ⟨hne, hlt⟩ := nextUsn_ne (record.readLe (record.readLe 4 2) 2)
  have hus : leValue [newNumber record 0, newNumber record 1] = nextUsn _ :=
    (leValue_leBytes 2 _).trans (Nat.mod_eq_of_lt hlt)
  exact ⟨hac.1.1, hac.1.2.1, hhd 4 (by omega), _, hne, (readLe_of_bytes hnm).trans hus,
    fun i hi => (readLe_of_bytes (hsv.trailers i (Nat.zero_le i) hi)).trans hus⟩

/-- Sector `i` of two records is the same. -/
def SameSector (i : Nat) (r r' : Store) : Prop := ∀ b < 512, r (i * 512 + b) = r' (i * 512 + b)

lemma SameSector.readLe {r r' : Store} {i a : Nat} (h : SameSector i r r') (hlo : i * 512 ≤ a)
    (hhi : a + 2 ≤ i * 512 + 512) : r.readLe a 2 = r'.readLe a 2 := by
  refine readLe_congr fun b hb => ?_
  have hby := h (a - i * 512 + b) (by omega)
  rwa [show i * 512 + (a - i * 512 + b) = a + b by omega] at hby

/-- **A torn write is found out**: if a record is written over the one it was read from and only
some sectors arrive, so that the disk has neither the old record nor the new one, `apply_fixup`
refuses it. -/
theorem torn_write_found (len : Nat) (old record new disk : Store)
    (hp : Placed len (record.readLe 4 2) (len / 512))
    (hfirst : record.readLe 4 2 + 2 ≤ 510) (hold : (applyFixup len old).1 = true)
    (hread : ∀ a ∈ [4, record.readLe 4 2], record.readLe a 2 = old.readLe a 2)
    (hnew : prepareFixupForWrite len record = some (true, new))
    (hdisk : ∀ i < len / 512, SameSector i disk old ∨ SameSector i disk new)
    (htorn : (∃ a < len, disk a ≠ old a) ∧ ∃ a < len, disk a ≠ new a) :
    (applyFixup len disk).1 = false := by
  obtain ⟨hps, hl, hnew4, usn, hne, hnm, htr⟩ := prepare_ok hp hnew
  simp only [List.mem_cons, List.not_mem_nil, or_false, forall_eq_or_imp, forall_eq] at hread
  obtain ⟨hread4, hread⟩ := hread
  refine Bool.eq_false_iff.mpr fun hok => ?_
  have hwh (r : Store) (hr : ∃ a < len, disk a ≠ r a) (h : ∀ i < len / 512, SameSector i disk r) :
      False := by
    obtain ⟨a, ha, hdf⟩ := hr
    have hby := h (a / 512) (by omega) (a % 512) (by omega)
    rw [Nat.div_add_mod' a 512] at hby
    exact hdf hby
  -- the first sector has the number that all trailers are compared with
  obtain h0 | h0 := hdisk 0 (by omega)
  · refine hwh old htorn.1 fun i hi => (hdisk i hi).resolve_right fun hsc => hne ?_
    have hs := applyFixup_ok hok i hi
    rwa [hsc.readLe (by unfold trailer; omega) (by unfold trailer; omega), htr i hi,
      h0.readLe (a := 4) (by omega) (by omega), ← hread4, h0.readLe (by omega) (by omega),
      ← hread] at hs
  · refine hwh new htorn.2 fun i hi => (hdisk i hi).resolve_left fun hsc => hne.symm ?_
    have hs := applyFixup_ok hok i hi
    rwa [hsc.readLe (by unfold trailer; omega) (by unfold trailer; omega),
      applyFixup_ok hold i hi, h0.readLe (a := 4) (by omega) (by omega), hnew4,
      h0.readLe (by omega) (by omega), hnm, ← hread4, ← hread] at hs

/-- Of a record of two sectors, only the first is written. -/
theorem torn_write_found_second : ∃ new, prepareFixupForWrite 1024 (blank 48 3) = some (true, new)
    ∧ (applyFixup 1024 (new.blit 512 512 ((blank 48 3).window 512))).1 = false :=
  ⟨_, rfl, torn_write_found 1024 (blank 48 3) (blank 48 3) _ _ ⟨by decide, by decide⟩ (by decide)
    (by decide) (by decide) rfl
    (fun i hi => by
      obtain rfl | rfl : i = 0 ∨ i = 1 := by omega
      · exact .inr fun b hb => blit_outside _ _ (by omega)
      · exact .inl fun b hb => blit_inside _ 512 512 _ hb)
    ⟨⟨510, by decide⟩, ⟨1022, by decide⟩⟩⟩

end Nt61.Fixup
