/-
LongName — creating entries with long names.

`create_entry_long` runs two searches that do not know of each other. The long-name entries go to
the first free slot `j` with room for all of them in its sector, though only that one slot is known
to be free; the entry itself goes to the first free slot `i ≤ j`. What stands behind the zero byte
of the first long-name entry is no longer listed.
-/
import Nt61.Fs.Fat32.Listing

namespace Nt61.Fat32

open Lib Prog List FatDirectoryEntry Nat

variable {fs : Fat32FileSystem} {d d' : Device} {chain : List Nat}

/-! ## Runs of slots -/

lemma slotPlace_add (fs : Fat32FileSystem) (chain : List Nat) {j o : Nat}
    (h : j % ENTRIES_PER_SECTOR + o < ENTRIES_PER_SECTOR) :
    slotPlace fs chain (j + o) = ((slotPlace fs chain j).1, (slotPlace fs chain j).2 + o * 32) := by
  have hsc : (j + o) / ENTRIES_PER_SECTOR = j / ENTRIES_PER_SECTOR := by
    unfold ENTRIES_PER_SECTOR SECTOR_SIZE at *
    omega
  have hdv : (j + o) / slotsPerCluster fs = j / slotsPerCluster fs := by
    unfold slotsPerCluster
    rw [Nat.mul_comm, ← Nat.div_div_eq_div_mul, ← Nat.div_div_eq_div_mul, hsc]
  have hmd : (j + o) % slotsPerCluster fs = j % slotsPerCluster fs + o := by
    have h1 := Nat.div_add_mod (j + o) (slotsPerCluster fs)
    have h2 := div_add_mod j (slotsPerCluster fs)
    rw [hdv] at h1
    omega
  unfold slotPlace
  rw [hdv, hmd, add_mul]

lemma slot_run_le {j n : Nat} (hj : j < slotCount fs chain)
    (h : j % ENTRIES_PER_SECTOR + n ≤ ENTRIES_PER_SECTOR) : j + n ≤ slotCount fs chain := by
  have hsp : slotCount fs chain = chain.length * fs.sectorsPerCluster * ENTRIES_PER_SECTOR :=
    (mul_assoc _ _ _).symm
  unfold ENTRIES_PER_SECTOR SECTOR_SIZE at *
  omega

def splice {α : Type} (S : List α) (j : Nat) (L : List α) : List α :=
  S.take j ++ L ++ S.drop (j + L.length)

variable {α : Type}

lemma splice_nil (S : List α) (j : Nat) : splice S j [] = S := by simp [splice]

variable {S : List α}

lemma splice_set {j : Nat} (hj : j < S.length) (x : α) (L : List α) :
    splice (S.set j x) (j + 1) L = splice S j (x :: L) := by
  unfold splice
  have hta : (S.set j x).take (j + 1) = S.take j ++ [x] := by
    rw [take_succ_eq_append_getElem (by simpa using hj), take_set_of_le (le_refl j),
      getElem_set_self]
  have hdr : (S.set j x).drop (j + 1 + L.length) = S.drop (j + (x :: L).length) := by
    rw [drop_set_of_lt (by omega), length_cons, add_assoc, add_comm 1]
  rw [hta, hdr, append_assoc, append_assoc, append_assoc]
  rfl

lemma splice_length {S L : List α} {j : Nat} (h : j + L.length ≤ S.length) :
    (splice S j L).length = S.length := by
  simp only [splice, length_append, length_take, length_drop]
  omega

lemma splice_getElem_lt (L : List α) {j p : Nat} (hp : p < j)
    (hS : p < S.length) (hlt : p < (splice S j L).length) : (splice S j L)[p] = S[p] := by
  have hl : p < (S.take j).length := by
    rw [length_take]
    omega
  simp only [splice, append_assoc]
  rw [getElem_append_left hl, getElem_take]

lemma splice_getElem_start (L : List α) {j : Nat} (hS : j < S.length)
    (hlt : j < (splice S j L).length) : (splice S j L)[j] ∈ L ∨ (splice S j L)[j] = S[j] := by
  cases L with
  | nil => exact .inr (by simp [splice_nil])
  | cons x L =>
    left
    have hl : (S.take j).length = j := by simp; omega
    unfold splice
    simp [hl]

/-! ## Writing the long-name entries -/

def lfnAt (lfnCount : Nat) (checksum : UInt8) (utf16Name : List UInt16) (ordinal : Nat) :
    FatDirectoryEntry :=
  lfnEntry (UInt8.ofNat (lfnCount - ordinal) ||| 0x40) checksum utf16Name
    ((lfnCount - ordinal - 1) * 13)

/-- The last `n` entries written. -/
def lfnRun (lfnCount : Nat) (checksum : UInt8) (utf16Name : List UInt16) : Nat → List FatDirectoryEntry
  | 0 => []
  | n + 1 => lfnAt lfnCount checksum utf16Name (lfnCount - (n + 1))
      :: lfnRun lfnCount checksum utf16Name n

@[simp] lemma lfnRun_length (lfnCount : Nat) (checksum : UInt8) (utf16Name : List UInt16) (n : Nat) :
    (lfnRun lfnCount checksum utf16Name n).length = n := by
  induction n with
  | zero => rfl
  | succ n ih => rw [lfnRun, length_cons, ih]

variable {e : FatDirectoryEntry}

lemma lfnRun_end {lfnCount : Nat} {checksum : UInt8} {utf16Name : List UInt16} {n : Nat}
    (he : e ∈ lfnRun lfnCount checksum utf16Name n) : e.name.first = 0x00 := by
  induction n with
  | zero => cases he
  | succ n ih =>
    rcases mem_cons.mp he with rfl | hm
    · rfl
    · exact ih hm

lemma writeLfnLoop_ok (hl : Layout fs) {j lfnCount : Nat} (hj : j < slotCount fs chain)
    (hro : j % ENTRIES_PER_SECTOR + lfnCount ≤ ENTRIES_PER_SECTOR) (checksum : UInt8)
    (utf16Name : List UInt16) (n : Nat) (hn : n ≤ lfnCount) {d : Device} (hd : AllOk d)
    (hch : FileChain fs d chain) :
    ∃ d', writeLfnLoop fs (slotPlace fs chain j).1 (slotPlace fs chain j).2 lfnCount checksum
        utf16Name n d = (.ok (), d')
      ∧ DirUpdated fs chain d d' (splice (slots fs d chain) (j + (lfnCount - n))
          (lfnRun lfnCount checksum utf16Name n)) := by
  induction n generalizing d with
  | zero =>
    rw [lfnRun, splice_nil]
    exact ⟨d, rfl, DirUpdated.refl hd chain⟩
  | succ n ih =>
    have hin : j + (lfnCount - (n + 1)) < slotCount fs chain := by
      have := slot_run_le hj hro
      omega
    have hpl : slotPlace fs chain (j + (lfnCount - (n + 1))) = _ :=
      slotPlace_add fs chain (by omega)
    obtain ⟨_, hok1, hup1⟩ := updateDirEntry_ok hl hd hch hin
      (lfnAt lfnCount checksum utf16Name (lfnCount - (n + 1)))
    rw [hpl] at hok1
    obtain ⟨d2, hok2, hup2⟩ := ih (by omega) hup1.allOk (hup1.fileChain hch)
    refine ⟨d2, ?_, ?_⟩
    · exact (bind_of_ok hok1).trans hok2
    have hnx : j + (lfnCount - n) = j + (lfnCount - (n + 1)) + 1 := by omega
    rw [hup1.slots, hnx, splice_set (by rw [slots_length]; exact hin)] at hup2
    exact hup1.trans hup2

def lfnCountOf (longName : Bytes) : Nat := ((lfnNameUtf16 longName).length + 12) / 13

lemma firstSlot_room {n j : Nat} (hj : firstSlot (hasRoom (n + 1)) (slots fs d chain) = some j) :
    j % ENTRIES_PER_SECTOR + n ≤ ENTRIES_PER_SECTOR ∧ j + n ≤ slotCount fs chain
      ∧ ∃ h : j < (slots fs d chain).length, (slots fs d chain)[j].isFree = true := by
  obtain ⟨hlt, ht, _⟩ := firstSlot_eq_some.mp hj
  simp only [hasRoom, Bool.and_eq_true, decide_eq_true_eq] at ht
  have hro : j % ENTRIES_PER_SECTOR + n ≤ ENTRIES_PER_SECTOR := by omega
  have hin : j < slotCount fs chain := by rwa [slots_length] at hlt
  exact ⟨hro, slot_run_le hin hro, hlt, ht.2⟩

def lfnsOf (longName : Bytes) (shortName : ShortName) : List FatDirectoryEntry :=
  lfnRun (lfnCountOf longName) (calcLongNameChecksum shortName) (lfnNameUtf16 longName)
    (lfnCountOf longName)

variable {longName : Bytes} {start : Nat} {shortName : ShortName} {l : List Nat}

/-- **`write_lfn_entries`** replaces a run of slots, the first of which was free. -/
lemma writeLfnEntries_ok (hl : Layout fs) (hd : AllOk d)
    (hch : FileChain fs d (start :: l)) {c : Nat} (hlg : 11 < longName.length)
    (hok : writeLfnEntries fs start longName shortName d = (.ok c, d')) :
    ∃ j, firstSlot (hasRoom (lfnCountOf longName + 1)) (slots fs d (start :: l)) = some j
      ∧ DirUpdated fs (start :: l) d d'
          (splice (slots fs d (start :: l)) j (lfnsOf longName shortName)) := by
  unfold writeLfnEntries at hok
  rw [if_neg (by omega)] at hok
  split at hok
  · cases hok
  obtain ⟨_, _, hrd, hok⟩ := bind_eq_ok hok
  cases hrd
  obtain ⟨_, _, hpl, hok⟩ := bind_eq_ok hok
  obtain ⟨hfi, rfl⟩ := ofOption_eq_ok hpl
  rw [findContiguousFreeDirSlots_eq hl hd hch, Option.map_eq_some_iff] at hfi
  obtain ⟨j, hfs, rfl⟩ := hfi
  obtain ⟨hro, _, hj, _⟩ := firstSlot_room hfs
  rw [slots_length] at hj
  obtain ⟨_, hr, hup⟩ := writeLfnLoop_ok hl hj hro (calcLongNameChecksum shortName)
    (lfnNameUtf16 longName) _ (le_refl _) hd hch
  have he := (bind_of_ok hr).symm.trans hok
  obtain ⟨_, rfl⟩ := pure_eq_ok he
  rw [Nat.sub_self] at hup
  exact ⟨j, hfs, hup⟩

/-! ## Creating the entry -/

lemma createDirEntryInDir_ok (hl : Layout fs) (hd : AllOk d)
    (hch : FileChain fs d (start :: l)) {name : ShortName} {startCluster size : UInt32}
    {attributes : UInt8}
    (hok : createDirEntryInDir fs start name startCluster size attributes d = (.ok (), d')) :
    ∃ i, firstSlot (fun _ e => e.isFree) (slots fs d (start :: l)) = some i
      ∧ DirUpdated fs (start :: l) d d'
          ((slots fs d (start :: l)).set i (newEntry name startCluster size attributes)) := by
  obtain ⟨_, _, hrd, hok⟩ := bind_eq_ok hok
  cases hrd
  obtain ⟨_, _, hpl, hok⟩ := bind_eq_ok hok
  obtain ⟨hfi, rfl⟩ := ofOption_eq_ok hpl
  rw [findFreeDirSlotIn_eq hl hd hch, Option.map_eq_some_iff] at hfi
  obtain ⟨i, hfs, rfl⟩ := hfi
  obtain ⟨hi, _⟩ := firstSlot_eq_some.mp hfs
  rw [slots_length] at hi
  obtain ⟨d2, hr, hup⟩ := updateDirEntry_ok hl hd hch hi
    (newEntry name startCluster size attributes)
  have hd' : d2 = d' := congrArg Prod.snd (hr.symm.trans hok)
  exact ⟨i, hfs, hd' ▸ hup⟩

lemma freshShortName_ok (n index : Nat)
    (hok : freshShortName fs start longName n index d = (.ok shortName, d')) :
    d' = d ∧ findDirEntryLocation fs d start shortName = none
      ∧ ∃ k, shortName = shortNameForLong longName k := by
  induction n generalizing index with
  | zero => cases hok
  | succ n ih =>
    obtain ⟨_, _, hrd, hok⟩ := bind_eq_ok hok
    cases hrd
    by_cases hn : (findDirEntryLocation fs d start (shortNameForLong longName index)).isNone = true
    · rw [if_pos hn] at hok
      obtain ⟨rfl, rfl⟩ := pure_eq_ok hok
      exact ⟨rfl, Option.isNone_iff_eq_none.mp hn, index, rfl⟩
    · rw [if_neg hn] at hok
      exact ih (index + 1) hok

/-- The first free slot of the spliced directory is the one there was before: the run starts at a
free slot, and starts with a free slot again. -/
lemma firstSlot_splice {S L : List FatDirectoryEntry} {i j count : Nat}
    (hj : firstSlot (hasRoom count) S = some j) (hft : j + L.length ≤ S.length)
    (hf : ∀ e ∈ L, e.isFree = true)
    (hi : firstSlot (fun _ e => e.isFree) (splice S j L) = some i) :
    firstSlot (fun _ e => e.isFree) S = some i ∧ i ≤ j := by
  obtain ⟨hjl, hro, _⟩ := firstSlot_eq_some.mp hj
  obtain ⟨hil, hif, hbf⟩ := firstSlot_eq_some.mp hi
  have hjf : S[j].isFree = true := by
    simp only [hasRoom, Bool.and_eq_true] at hro
    exact hro.2
  have hl := splice_length hft
  have hjf' : (splice S j L)[j].isFree = true := by
    rcases splice_getElem_start L hjl (by omega) with hm | heq
    · exact hf _ hm
    · rw [heq]
      exact hjf
  have hij : i ≤ j := by
    by_contra hlt
    rw [hbf j (by omega)] at hjf'
    cases hjf'
  refine ⟨firstSlot_eq_some.mpr ⟨by omega, ?_, ?_⟩, hij⟩
  · rcases lt_or_eq_of_le hij with hlt | rfl
    · rw [← splice_getElem_lt L hlt (by omega) hil]
      exact hif
    · exact hjf
  intro p hp
  rw [← splice_getElem_lt L (lt_of_lt_of_le hp hij) (by omega) (by omega)]
  exact hbf p hp

lemma createLong_ok (hl : Layout fs) (hd : AllOk d)
    (hch : FileChain fs d (start :: l)) (hlg : 11 < longName.length)
    {startCluster size : UInt32} {attributes : UInt8}
    (hok : createLong fs start longName startCluster size attributes d = (.ok shortName, d')) :
    ∃ i j, firstSlot (fun _ e => e.isFree) (slots fs d (start :: l)) = some i
      ∧ firstSlot (hasRoom (lfnCountOf longName + 1)) (slots fs d (start :: l)) = some j ∧ i ≤ j
      ∧ findDirEntryLocation fs d start shortName = none
      ∧ (∃ k, shortName = shortNameForLong longName k) ∧ DirUpdated fs (start :: l) d d'
          ((splice (slots fs d (start :: l)) j (lfnsOf longName shortName)).set i
            (newEntry shortName startCluster size attributes)) := by
  obtain ⟨short, d1, hfr, hrest1⟩ := bind_eq_ok hok
  obtain ⟨rfl, hn, hna⟩ := freshShortName_ok _ _ hfr
  obtain ⟨_, _, hlf, hrest2⟩ := bind_eq_ok hrest1
  obtain ⟨j, hj, hup2⟩ := writeLfnEntries_ok hl hd hch hlg hlf
  obtain ⟨_, _, hcr, hrest3⟩ := bind_eq_ok hrest2
  obtain ⟨rfl, rfl⟩ := pure_eq_ok hrest3
  obtain ⟨i, hi, hup3⟩ := createDirEntryInDir_ok hl hup2.allOk (hup2.fileChain hch) hcr
  have hft : j + (lfnsOf longName short).length ≤ (slots fs d1 (start :: l)).length := by
    rw [lfnsOf, lfnRun_length, slots_length]
    exact (firstSlot_room hj).2.1
  have hf : ∀ e ∈ lfnsOf longName short, e.isFree = true := by
    intro e he
    simp [isFree, lfnRun_end he]
  rw [hup2.slots] at hi hup3
  obtain ⟨hi', hij⟩ := firstSlot_splice hj hft hf hi
  exact ⟨i, j, hi', hj, hij, hn, hna, hup2.trans hup3⟩

/-! ## The first byte of the short name -/

/-- The two values of `name[0]` that mark a slot as free. -/
def isFreeMark (b : UInt8) : Bool := b == 0x00 || b == 0xE5

lemma isFreeMark_uppercase (b : UInt8) : isFreeMark (toAsciiUppercase b) = isFreeMark b := by
  unfold toAsciiUppercase
  by_cases hlr : 0x61 ≤ b ∧ b ≤ 0x7A
  · rw [if_pos hlr]
    have hlw : 97 ≤ b.toNat := hlr.1
    have hhi : b.toNat ≤ 122 := hlr.2
    have hsb : (b - 0x20).toNat = b.toNat - 32 :=
      UInt8.toNat_sub_of_le _ _ (show 32 ≤ b.toNat by omega)
    have hne : ∀ c : UInt8, c.toNat < 65 ∨ 122 < c.toNat → (b == c) = false ∧ (b - 0x20 == c) = false := by
      intro c hc
      constructor <;> rw [beq_eq_false_iff_ne]
      · rintro rfl
        omega
      · rintro rfl
        omega
    unfold isFreeMark
    rw [(hne 0x00 (by decide)).1, (hne 0x00 (by decide)).2, (hne 0xE5 (by decide)).1,
      (hne 0xE5 (by decide)).2]
  · rw [if_neg hlr]

lemma headD_set {l : Bytes} {i : Nat} (hi : 0 < i) (x d0 : UInt8) :
    (l.set i x).headD d0 = l.headD d0 := by
  cases l with
  | nil => rfl
  | cons b l =>
    cases i with
    | zero => exact absurd hi (lt_irrefl 0)
    | succ i => rfl

lemma writeDigits_head (n value : Nat) (name : Bytes) (hn : n ≤ 8) :
    (writeDigits n value name).headD 0 = name.headD 0 := by
  induction n generalizing value name with
  | zero => rfl
  | succ n ih => rw [writeDigits, ih _ _ (by omega), headD_set (by omega)]

lemma digitCount_le (index : Nat) : digitCount index ≤ 3 := by
  unfold digitCount
  split_ifs <;> omega

lemma rposition_zero {byte b : UInt8} {rest : Bytes} (h : rposition byte (b :: rest) = some 0) :
    b = byte := by
  unfold rposition at h
  rw [Option.map_eq_some_iff] at h
  obtain ⟨i, hi, h0⟩ := h
  rw [List.idxOf?, findIdx?_eq_some_iff_getElem] at hi
  obtain ⟨hlt, hby, _⟩ := hi
  have hla : i = rest.length := by
    simp at hlt h0
    omega
  subst hla
  simpa using hby

lemma shortNameForLong_first (hne : longName ≠ []) (index : Nat) :
    isFreeMark (shortNameForLong longName index).first = isFreeMark (longName.headD 0) := by
  obtain ⟨b, rest, rfl⟩ := exists_cons_of_ne_nil hne
  have hhd : (shortNameForLong (b :: rest) index).first
      = toAsciiUppercase ((shortBase (b :: rest)).headD 0) := by
    have hmp : ((shortBase (b :: rest)).map toAsciiUppercase).headD 0
        = toAsciiUppercase ((shortBase (b :: rest)).headD 0) := by
      cases shortBase (b :: rest) <;> rfl
    have hcn := digitCount_le index
    unfold ShortName.first shortNameForLong
    split_ifs
    · rw [writeDigits_head _ _ _ (by omega), headD_set (by omega), hmp]
    · exact hmp
  rw [hhd, isFreeMark_uppercase]
  -- the first byte is the long name's, or a blank if that is only an extension
  by_cases hdt : rposition 0x2E (b :: rest) = some 0
  · have hb := rposition_zero hdt
    have hbs : (shortBase (b :: rest)).headD 0 = 0x20 := by
      unfold shortBase
      rw [hdt]
      rfl
    rw [hbs, hb]
    rfl
  obtain ⟨m, hm⟩ : ∃ m, min ((rposition 0x2E (b :: rest)).getD (b :: rest).length) 8 = m + 1 := by
    refine ⟨min ((rposition 0x2E (b :: rest)).getD (b :: rest).length) 8 - 1, ?_⟩
    have hp : (rposition 0x2E (b :: rest)).getD (b :: rest).length ≠ 0 := by
      cases hr : rposition 0x2E (b :: rest) with
      | none => simp
      | some i =>
        rintro rfl
        exact hdt hr
    omega
  have hbs : (shortBase (b :: rest)).headD 0 = b := by
    unfold shortBase
    dsimp only
    rw [hm]
    rfl
  rw [hbs]
  rfl

/-! ## The listing afterwards -/

/-- **A well-formed directory**: behind an end mark there are only end marks. -/
def WellFormed (S : List FatDirectoryEntry) : Prop :=
  S.Pairwise fun a b => a.name.first = 0x00 → b.name.first = 0x00

variable {S : List FatDirectoryEntry}

lemma listed_all_end (h : ∀ e ∈ S, e.name.first = 0x00) : listed S = [] := by
  cases S with
  | nil => rfl
  | cons e S => exact listed_end (h e mem_cons_self) S

lemma isFree_iff : e.isFree = true ↔ e.name.first = 0x00 ∨ e.name.first = 0xE5 := by simp [isFree]

lemma listed_free (he : e.isFree = true)
    (hwf : WellFormed (e :: S)) : listed (e :: S) = listed S := by
  rcases isFree_iff.mp he with hen | hdl
  · rw [listed_end hen, listed_all_end]
    intro x hx
    exact (pairwise_cons.mp hwf).1 x hx hen
  · exact listed_skip (by rw [hdl]; decide) (by simp [isSkipped, hdl]) S

lemma listed_append_of_wellFormed {S T : List FatDirectoryEntry} (hwf : WellFormed (S ++ T)) :
    listed (S ++ T) = listed S ++ listed T := by
  by_cases hen : ∃ e ∈ S, e.name.first = 0x00
  · obtain ⟨e, he, h0⟩ := hen
    obtain ⟨front, _, rfl⟩ := append_of_mem he
    have hT : listed T = [] := by
      refine listed_all_end ?_
      intro x hx
      exact (pairwise_append.mp hwf).2.2 e he x hx h0
    rw [hT, append_nil, append_assoc, cons_append, listed_append_end front h0,
      listed_append_end front h0]
  · exact listed_append fun e he h0 => hen ⟨e, he, h0⟩

variable {i j : Nat}

lemma created_eq {S L : List FatDirectoryEntry} (x : FatDirectoryEntry) (hij : i ≤ j)
    (hj : j < S.length) (hft : j + L.length ≤ S.length) :
    (splice S j L).set i x = S.take i ++ x :: (splice S j L).drop (i + 1) := by
  have hl := splice_length hft
  have hta : (splice S j L).take i = S.take i := by
    unfold splice
    rw [append_assoc, take_append_of_le_length (by rw [length_take]; omega),
      take_take, min_eq_left hij]
  rw [set_eq_take_append_cons_drop, if_pos (by omega), hta]

lemma listed_behind {x : FatDirectoryEntry}
    {L : List FatDirectoryEntry} (hwf : WellFormed S) (hij : i ≤ j) (hj : j < S.length)
    (hf : S[j].isFree = true) (he : ∀ e ∈ x :: L, e.name.first = 0x00) :
    (i = j ∧ L = [] ∧ (splice S j (x :: L)).drop (i + 1) = S.drop (i + 1))
      ∨ (¬ (i = j ∧ L = []) ∧ listed (S.drop (i + 1))
          = listed ((splice S j (x :: L)).drop (i + 1)) ++ listed (S.drop j)) := by
  have hl : (S.take j).length = j := by
    rw [length_take]
    omega
  rcases lt_or_eq_of_le hij with hlt | rfl
  · right
    have hr : (splice S j (x :: L)).drop (i + 1)
        = (S.take j).drop (i + 1) ++ x :: (L ++ S.drop (j + (x :: L).length)) := by
      unfold splice
      rw [append_assoc, drop_append_of_le_length (by omega)]
      rfl
    have hct : S.drop (i + 1) = (S.take j).drop (i + 1) ++ S.drop j := by
      conv_lhs => rw [← take_append_drop j S]
      rw [drop_append_of_le_length (by omega)]
    have hwf' : WellFormed ((S.take j).drop (i + 1) ++ S.drop j) := by
      rw [← hct]
      exact List.Pairwise.sublist (drop_sublist _ _) hwf
    refine ⟨fun h => absurd h.1 (by omega), ?_⟩
    rw [hr, listed_append_end _ (he x mem_cons_self), hct, listed_append_of_wellFormed hwf']
  have hr : (splice S i (x :: L)).drop (i + 1) = L ++ S.drop (i + 1 + L.length) := by
    unfold splice
    rw [append_assoc, drop_append, hl, drop_eq_nil_of_le (by omega),
      length_cons, Nat.add_sub_cancel_left, Nat.add_comm L.length 1, ← Nat.add_assoc]
    rfl
  rw [hr]
  cases L with
  | nil => exact .inl ⟨rfl, rfl, by simp⟩
  | cons y L =>
    right
    have hwf' : WellFormed (S[i] :: S.drop (i + 1)) := by
      rw [← drop_eq_getElem_cons hj]
      exact List.Pairwise.sublist (drop_sublist _ _) hwf
    refine ⟨by simp, ?_⟩
    rw [cons_append, listed_end (he y (by simp)), nil_append,
      drop_eq_getElem_cons hj, listed_free hf hwf']

lemma listed_created_iff {x y : FatDirectoryEntry} {L : List FatDirectoryEntry} (hwf : WellFormed S)
    (hi : firstSlot (fun _ e => e.isFree) S = some i) (hij : i ≤ j) (hj : j < S.length)
    (hf : S[j].isFree = true) (hft : j + (y :: L).length ≤ S.length)
    (hen : ∀ e ∈ y :: L, e.name.first = 0x00) :
    (listed ((splice S j (y :: L)).set i x)).Perm (x.summary :: listed S)
      ↔ isFreeMark x.name.first = false ∧ x.isLongName = false
        ∧ (listed (S.drop j) = [] ∨ (i = j ∧ L = [])) := by
  obtain ⟨hil, hif, hbf⟩ := firstSlot_eq_some.mp hi
  have hus : ∀ e ∈ S.take i, e.name.first ≠ 0x00 := by
    intro e he h0
    obtain ⟨p, hp, rfl⟩ := getElem_of_mem he
    rw [length_take] at hp
    have hnt := hbf p (by omega)
    rw [getElem_take] at h0
    rw [isFree_iff.mpr (.inl h0)] at hnt
    cases hnt
  have hwf' : WellFormed (S[i] :: S.drop (i + 1)) := by
    rw [← drop_eq_getElem_cons hil]
    exact List.Pairwise.sublist (drop_sublist _ _) hwf
  have hold : listed S = listed (S.take i) ++ listed (S.drop (i + 1)) := by
    conv_lhs => rw [← take_append_drop i S]
    rw [listed_append hus, drop_eq_getElem_cons hil, listed_free hif hwf']
  have hbh := listed_behind hwf hij hj hf hen
  rw [created_eq x hij hj hft, listed_append hus, hold]
  generalize (splice S j (y :: L)).drop (i + 1) = R' at *
  generalize listed (S.take i) = A at *
  generalize S.drop (i + 1) = R at *
  have hle : (listed R').length ≤ (listed R).length := by
    rcases hbh with ⟨_, _, heq⟩ | ⟨_, heq⟩
    · rw [heq]
    · rw [heq, length_append]
      exact le_add_right _ _
  by_cases h0 : x.name.first = 0x00
  · -- the new entry is an end mark itself
    rw [listed_end h0]
    constructor
    · intro hpm
      have := hpm.length_eq
      simp at this
      omega
    intro hcd
    rw [h0] at hcd
    cases hcd.1
  cases hsk : x.isSkipped
  · -- the new entry shows
    have hmk : isFreeMark x.name.first = false ∧ x.isLongName = false := by
      simp only [isSkipped, Bool.or_eq_false_iff] at hsk
      simp [isFreeMark, h0, hsk]
    rw [listed_show h0 hsk]
    have hcn : (A ++ x.summary :: listed R').Perm (x.summary :: (A ++ listed R))
        ↔ (listed R').Perm (listed R) := by
      rw [perm_middle.congr_left, perm_cons, perm_append_left_iff]
    rw [hcn]
    rcases hbh with ⟨hs, hnl, heq⟩ | ⟨hot, heq⟩
    · rw [heq]
      exact ⟨fun _ => ⟨hmk.1, hmk.2, .inr ⟨hs, hnl⟩⟩, fun _ => List.Perm.refl _⟩
    rw [heq]
    constructor
    · intro hpm
      have hl := hpm.length_eq
      rw [length_append] at hl
      exact ⟨hmk.1, hmk.2, .inl (eq_nil_of_length_eq_zero (by omega))⟩
    rintro ⟨_, _, hnl | hs⟩
    · rw [hnl, append_nil]
    · exact absurd hs hot
  -- the new entry is passed over
  rw [listed_skip h0 hsk]
  constructor
  · intro hpm
    have := hpm.length_eq
    simp at this
    omega
  rintro ⟨hmk, hlg, _⟩
  simp only [isSkipped, hlg, Bool.or_false] at hsk
  simp [isFreeMark, hsk] at hmk

/-! ## `create_entry_long` -/

/-- The listing before and after, whenever the buffer is large enough: nothing is lost and one new
entry is listed. -/
def ListsOneMore (fs : Fat32FileSystem) (start : Nat) (chain : List Nat) (d d' : Device)
    (new : Summary) : Prop :=
  ∀ limit fuel, slotCount fs chain ≤ limit → chain.length < fuel →
    ∃ before after, listDirectoryCluster fs d start limit fuel = some before
      ∧ listDirectoryCluster fs d' start limit fuel = some after
      ∧ (after.map FatDirEntry.summary).Perm (new :: before.map FatDirEntry.summary)

lemma listsOneMore_iff (hl : Layout fs) (hd : AllOk d)
    (hch : FileChain fs d (start :: l)) (hd' : AllOk d') (hch' : FileChain fs d' (start :: l))
    {new : Summary} : ListsOneMore fs start (start :: l) d d' new
      ↔ (listed (slots fs d' (start :: l))).Perm (new :: listed (slots fs d (start :: l))) := by
  constructor
  · intro h
    have hsz := le_refl (slotCount fs (start :: l))
    have hfu := lt_succ_self (start :: l).length
    obtain ⟨before, after, hbf, haf, hpm⟩ := h _ _ hsz hfu
    obtain ⟨_, hb, hbm⟩ := listDirectoryCluster_eq hl hd hch hsz hfu
    obtain ⟨_, ha, ham⟩ := listDirectoryCluster_eq hl hd' hch' hsz hfu
    rw [hbf] at hb
    rw [haf] at ha
    cases hb
    cases ha
    rwa [ham, hbm] at hpm
  intro hpm limit fuel hlm hfu
  obtain ⟨before, hb, hbm⟩ := listDirectoryCluster_eq hl hd hch hlm hfu
  obtain ⟨after, ha, ham⟩ := listDirectoryCluster_eq hl hd' hch' hlm hfu
  exact ⟨before, after, hb, ha, by rw [ham, hbm]; exact hpm⟩

/-- When a creation leaves the listing intact: the new entry can be seen, and behind the first free
slot `j` with room for the name nothing is listed, or `j` is the first free slot of all and the name
takes one long-name entry. -/
def KeepsListing (S : List FatDirectoryEntry) (longName : Bytes) (attributes : UInt8) : Prop :=
  isFreeMark (longName.headD 0) = false ∧ attributes ≠ 0x0F
    ∧ ∃ i j, firstSlot (fun _ e => e.isFree) S = some i
      ∧ firstSlot (hasRoom (lfnCountOf longName + 1)) S = some j
      ∧ (listed (S.drop j) = [] ∨ (i = j ∧ lfnCountOf longName = 1))

lemma long_of_units {text : List Nat} (htx : decodeUtf8 longName = some text)
    (hus : 12 ≤ (encodeUtf16 text).length) : 11 < longName.length ∧ 0 < lfnCountOf longName := by
  have hle := encodeUtf16_length_le longName text htx
  have hl : (lfnNameUtf16 longName).length = (encodeUtf16 text).length := by
    simp [lfnNameUtf16, htx]
  unfold lfnCountOf
  omega

/-- **Creating a long name.** When `create_entry_long` returns, the directory lists what it listed
before and the new entry if and only if `KeepsListing` held before. -/
theorem createEntryLong_listing_iff (hl : Layout fs) (hd : AllOk d) {start : Nat} {l : List Nat}
    (hchain : FileChain fs d (start :: l)) (hwf : WellFormed (slots fs d (start :: l)))
    {longName : Bytes} {text : List Nat} (htext : decodeUtf8 longName = some text)
    (hunits : 12 ≤ (encodeUtf16 text).length ∧ (encodeUtf16 text).length ≤ 255)
    {startCluster size : UInt32} {attributes : UInt8}
    (hok : createEntryLong fs start longName startCluster size attributes d = (.ok (), d')) :
    ListsOneMore fs start (start :: l) d d' (startCluster.toNat, size, attributes &&& 0x10 != 0)
      ↔ KeepsListing (slots fs d (start :: l)) longName attributes := by
  obtain ⟨hlg, _⟩ := long_of_units htext hunits.1
  unfold createEntryLong at hok
  rw [dif_neg (by omega)] at hok
  obtain ⟨_, _, hcr, hpr⟩ := bind_eq_ok hok
  obtain ⟨_, rfl⟩ := pure_eq_ok hpr
  obtain ⟨i, j, hi, hj, hij, _, ⟨index, rfl⟩, hup⟩ := createLong_ok hl hd hchain hlg hcr
  obtain ⟨_, hft, hjl, hf⟩ := firstSlot_room hj
  have hne : longName ≠ [] := by
    rintro rfl
    simp at hlg
  -- the run of long-name entries is not empty
  have hr : (lfnsOf longName (shortNameForLong longName index)).length = lfnCountOf longName :=
    lfnRun_length _ _ _ _
  have hen : ∀ e ∈ lfnsOf longName (shortNameForLong longName index), e.name.first = 0x00 :=
    fun e he => lfnRun_end he
  generalize lfnsOf longName (shortNameForLong longName index) = run at hup hr hen
  obtain ⟨y, L, rfl⟩ : ∃ y L, run = y :: L :=
    exists_cons_of_ne_nil (by rintro rfl; simp at hr; omega)
  have hon : L = [] ↔ lfnCountOf longName = 1 := by
    rw [← hr]
    cases L <;> simp
  have hls := listed_created_iff (x := newEntry (shortNameForLong longName index) startCluster
    size attributes) hwf hi hij hjl hf (by rw [hr, slots_length]; exact hft) hen
  have hw : (newEntry (shortNameForLong longName index) startCluster size attributes).summary
      = (startCluster.toNat, size, attributes &&& 0x10 != 0) := by
    unfold summary
    rw [newEntry_firstCluster]
    rfl
  rw [listsOneMore_iff hl hd hchain hup.allOk (hup.fileChain hchain), ← hw, hup.slots, hls]
  have hfs : isFreeMark (newEntry (shortNameForLong longName index) startCluster size
      attributes).name.first = isFreeMark (longName.headD 0) := shortNameForLong_first hne index
  have hat : (newEntry (shortNameForLong longName index) startCluster size attributes).isLongName
      = false ↔ attributes ≠ 0x0F := by
    simp [isLongName, newEntry]
  rw [hfs, hat, hon]
  constructor
  · rintro ⟨hmk, hsh, hcs⟩
    exact ⟨hmk, hsh, i, j, hi, hj, hcs⟩
  rintro ⟨hmk, hsh, _, _, hi', hj', hcs⟩
  rw [hi] at hi'
  rw [hj] at hj'
  cases hi'
  cases hj'
  exact ⟨hmk, hsh, hcs⟩

/-- A directory with a deleted slot between two files. -/
def holeyDirectory : Device :=
  imageOf [0, 0, FAT32_EOC] (Store.ofBytes
    ((newEntry (shortNameOf (ascii "A") (by decide)) 3 10 0x20).toBytes
      ++ (newEntry (shortNameOf (0xE5 :: ascii "X") (by decide)) 4 20 0x20).toBytes
      ++ (newEntry (shortNameOf (ascii "B") (by decide)) 5 30 0x20).toBytes))

theorem createEntryLong_listing_hole :
    KeepsListing (slots (smallVolume 0) holeyDirectory [2]) (ascii "twelve-chars") 0x20
      ∧ ListsOneMore (smallVolume 0) 2 [2] holeyDirectory (createEntryLong (smallVolume 0) 2
          (ascii "twelve-chars") 5 17 0x20 holeyDirectory).2 (5, 17, false) := by
  have hch : FileChain (smallVolume 0) holeyDirectory [2] :=
    ⟨by show readFatEntry _ _ 2 = _; decide +kernel, by decide, by decide⟩
  have hkp : KeepsListing (slots (smallVolume 0) holeyDirectory [2]) (ascii "twelve-chars") 0x20 :=
    ⟨by decide +kernel, by decide, 1, 1, by decide +kernel, by decide +kernel,
      .inr ⟨rfl, by decide +kernel⟩⟩
  have htx : decodeUtf8 (ascii "twelve-chars") = some ((ascii "twelve-chars").map UInt8.toNat) := by
    decide +kernel
  have hok : createEntryLong (smallVolume 0) 2 (ascii "twelve-chars") 5 17 0x20 holeyDirectory
      = (.ok (), _) := Prod.ext (by decide +kernel) rfl
  exact ⟨hkp, (createEntryLong_listing_iff (smallVolume_layout 0) (imageOf_allOk _ _) hch
    (by unfold WellFormed; decide +kernel) htx (by decide +kernel) hok).mpr hkp⟩

/-- A name that takes two long-name entries is put into the hole, and file `B` is gone. -/
theorem createEntryLong_loses_file :
    let created := createEntryLong (smallVolume 0) 2 (ascii "fourteen-chars") 6 40 0x20 holeyDirectory
    WellFormed (slots (smallVolume 0) holeyDirectory [2]) ∧ created.1 = .ok ()
      ∧ (listDirectoryCluster (smallVolume 0) holeyDirectory 2 100 10).map
          (fun es => es.map FatDirEntry.summary) = some [(3, 10, false), (5, 30, false)]
      ∧ (listDirectoryCluster (smallVolume 0) created.2 2 100 10).map
          (fun es => es.map FatDirEntry.summary) = some [(3, 10, false), (6, 40, false)] := by
  refine ⟨by unfold WellFormed; decide +kernel, by decide +kernel, by decide +kernel,
    by decide +kernel⟩

end Nt61.Fat32
