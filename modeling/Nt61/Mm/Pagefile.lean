/-
Pagefile — `mm/pagefile.rs`: the slots of the paging files.

Each of sixteen files has a size, a number of bitmap words and a bitmap of a fixed 64 words. It
holds 4096 slots, and a file may be larger: once they are all taken the search runs over its end.
`init` sets file 0 up twice, so that the file is enabled with no bitmap words and hands nothing out.

A system keeps, besides the state of the code, the slots handed out since the file was last set up.
-/
import Nt61.Lib.Bitmap
import Nt61.Lib.Checked
import Nt61.Lib.Run
import Mathlib.Data.Finset.Card

namespace Nt61.Pagefile

open Lib Function List Finset BitVec

/-! ## The code -/

abbrev MAX_PAGING_FILES : Nat := 16
abbrev PAGES_PER_FILE : Nat := 4096
abbrev BITS_PER_WORD : Nat := 64
abbrev BITMAP_WORDS : Nat := 64

inductive Panic where
  /-- An index outside an array. -/
  | index
  | overflow
  deriving DecidableEq

structure PagingFile where
  enabled : Bool
  basePfn : Nat
  pageCount : Nat
  usedCount : Nat
  bitmapWords : Nat
  deriving DecidableEq

structure PagefileState where
  files : Fin MAX_PAGING_FILES → PagingFile
  allocated : Fin MAX_PAGING_FILES → Fin BITMAP_WORDS → BitVec BITS_PER_WORD

def PagefileState.static : PagefileState :=
  { files := fun _ => ⟨false, 0, 0, 0, 0⟩, allocated := fun _ _ => 0 }

def initPagingFile (pageCount : Nat) : PagingFile :=
  { enabled := false, basePfn := 0, pageCount := pageCount, usedCount := 0, bitmapWords := 0 }

def findFirstZero (word : BitVec BITS_PER_WORD) : Option Nat :=
  let zeros := ~~~word
  if zeros ≠ 0 then some zeros.ctz.toNat else none

/-- `div_ceil` by the bits of a word. -/
def wordsFor (pageCount : Nat) : Nat := (pageCount + (BITS_PER_WORD - 1)) / BITS_PER_WORD

section

variable (s : PagefileState) (i : Fin MAX_PAGING_FILES)

def initBitmap (pageCount : Nat) : PagefileState :=
  { files := update s.files i { s.files i with bitmapWords := wordsFor pageCount }
    allocated := update s.allocated i fun _ => 0 }

def setWord (word : Fin BITMAP_WORDS) (value : BitVec BITS_PER_WORD) : PagefileState :=
  { s with allocated := update s.allocated i (update (s.allocated i) word value) }

/-- The loop of `bitmap_alloc`: so many words are left, the next is `wordIdx`. -/
def allocFrom : Nat → Nat → Except Panic (Option Nat × PagefileState)
  | 0, _ => .ok (none, s)
  | left + 1, wordIdx =>
    if h : wordIdx < BITMAP_WORDS then
      let word := s.allocated i ⟨wordIdx, h⟩
      match findFirstZero word with
      | some bitPos =>
        let taken := word ||| BitVec.ofNat BITS_PER_WORD 1 <<< bitPos
        let offset := (wordIdx * BITS_PER_WORD + bitPos) % 2 ^ 32
        if offset < (s.files i).pageCount then
          match Checked.add 64 (s.files i).usedCount 1 with
          | some used =>
            .ok (some offset,
              { setWord s i ⟨wordIdx, h⟩ taken with
                files := update s.files i { s.files i with usedCount := used } })
          | none => .error .overflow
        else
          .ok (none, setWord s i ⟨wordIdx, h⟩ (taken &&& ~~~(BitVec.ofNat BITS_PER_WORD 1 <<< bitPos)))
      | none => allocFrom left (wordIdx + 1)
    else .error .index

def bitmapAlloc : Except Panic (Option Nat × PagefileState) :=
  if ¬ (s.files i).enabled then .ok (none, s)
  else if (s.files i).bitmapWords = 0 then .ok (none, s)
  else allocFrom s i (s.files i).bitmapWords 0

def bitmapFree (offset : Nat) : Except Panic PagefileState :=
  let pf := s.files i
  if ¬ pf.enabled then .ok s
  else if offset ≥ pf.pageCount then .ok s
  else
    let wordIdx := offset / BITS_PER_WORD
    let bitPos := offset % BITS_PER_WORD
    if wordIdx < pf.bitmapWords then
      if h : wordIdx < BITMAP_WORDS then
        let word := s.allocated i ⟨wordIdx, h⟩
        .ok { setWord s i ⟨wordIdx, h⟩ (word &&& ~~~(BitVec.ofNat BITS_PER_WORD 1 <<< bitPos)) with
          files := update s.files i { pf with usedCount := pf.usedCount - 1 } }
      else .error .index
    else .ok s

instance : NeZero MAX_PAGING_FILES := ⟨by decide⟩

def init (frames : Option Nat) : PagefileState :=
  let s : PagefileState := { s with files := fun _ => initPagingFile PAGES_PER_FILE }
  let s := initBitmap s 0 PAGES_PER_FILE
  let basePfn := match frames with
    | some p => p / 4096
    | none => 0
  -- the second set-up of file 0 forgets its bitmap words
  let file := { initPagingFile PAGES_PER_FILE with enabled := basePfn != 0, basePfn := basePfn }
  { s with files := update s.files 0 file }

/-- The files in the order given, until one has a slot. -/
def reserveFrom : List (Fin MAX_PAGING_FILES) → PagefileState →
    Except Panic (Option (Fin MAX_PAGING_FILES × Nat) × PagefileState)
  | [], s => .ok (none, s)
  | i :: is, s =>
    match bitmapAlloc s i with
    | .error panic => .error panic
    | .ok (some offset, s') => .ok (some (i, offset), s')
    | .ok (none, s') => reserveFrom is s'

/-- File 0 first, then the others. -/
def reserveSlot : Except Panic (Option (Fin MAX_PAGING_FILES × Nat) × PagefileState) :=
  reserveFrom (List.finRange MAX_PAGING_FILES) s

def reserveSlotInFile (pageFileNo : Nat) :
    Except Panic (Option (Fin MAX_PAGING_FILES × Nat) × PagefileState) :=
  if h : pageFileNo < MAX_PAGING_FILES then
    match bitmapAlloc s ⟨pageFileNo, h⟩ with
    | .error panic => .error panic
    | .ok (offset, s') => .ok (offset.map fun offset => (⟨pageFileNo, h⟩, offset), s')
  else .ok (none, s)

def releaseSlot (pageFileNo offset : Nat) : Except Panic PagefileState :=
  if h : pageFileNo < MAX_PAGING_FILES then bitmapFree s ⟨pageFileNo, h⟩ offset else .ok s

def setPagingFile (pageFileNo basePfn pageCount : Nat) : PagefileState :=
  if h : pageFileNo < MAX_PAGING_FILES then
    let file := { initPagingFile pageCount with basePfn := basePfn, enabled := basePfn != 0 }
    initBitmap { s with files := update s.files ⟨pageFileNo, h⟩ file } ⟨pageFileNo, h⟩ pageCount
  else s

def growPagefile (pageFileNo newSize : Nat) : Bool × PagefileState :=
  if h : pageFileNo < MAX_PAGING_FILES then
    let i : Fin MAX_PAGING_FILES := ⟨pageFileNo, h⟩
    if ¬ (s.files i).enabled ∨ newSize ≤ (s.files i).pageCount then (false, s)
    else
      let newWords := wordsFor newSize
      let oldWords := (s.files i).bitmapWords
      (true,
        { files := update s.files i
            { s.files i with pageCount := newSize, bitmapWords := newWords }
          allocated := update s.allocated i fun word =>
            if oldWords ≤ word.val ∧ word.val < min newWords BITMAP_WORDS then 0
            else s.allocated i word })
  else (false, s)

def setDiskPagefile (pageFileNo sizePages : Nat) : Except Panic (Bool × PagefileState) :=
  if h : pageFileNo < MAX_PAGING_FILES then
    match Checked.mul 64 sizePages 4096 with
    | none => .error .overflow
    | some _ =>
      let file := { initPagingFile sizePages with enabled := true }
      .ok (true, initBitmap { s with files := update s.files ⟨pageFileNo, h⟩ file }
        ⟨pageFileNo, h⟩ sizePages)
  else .ok (false, s)

end

/-- The static, and the slots handed out and not released since their file was set up. -/
structure System where
  state : PagefileState
  held : Fin MAX_PAGING_FILES → Finset Nat

def System.start : System := { state := PagefileState.static, held := fun _ => ∅ }

inductive Op where
  | init (frames : Option Nat)
  | setPagingFile (pageFileNo basePfn pageCount : Nat)
  | setDiskPagefile (pageFileNo sizePages : Nat)
  | growPagefile (pageFileNo newSize : Nat)
  | reserveSlot
  | reserveSlotInFile (pageFileNo : Nat)
  | releaseSlot (pageFileNo offset : Nat)

def call (s : PagefileState) : Op → Except Panic (Option (Fin MAX_PAGING_FILES × Nat) × PagefileState)
  | .init frames => .ok (none, init s frames)
  | .setPagingFile no basePfn pageCount => .ok (none, setPagingFile s no basePfn pageCount)
  | .setDiskPagefile no sizePages =>
    (setDiskPagefile s no sizePages).map fun result => (none, result.2)
  | .growPagefile no newSize => .ok (none, (growPagefile s no newSize).2)
  | .reserveSlot => reserveSlot s
  | .reserveSlotInFile no => reserveSlotInFile s no
  | .releaseSlot no offset => (releaseSlot s no offset).map fun s' => (none, s')

def changeHeld (held : Fin MAX_PAGING_FILES → Finset Nat) (no : Nat) (f : Finset Nat → Finset Nat) :
    Fin MAX_PAGING_FILES → Finset Nat :=
  fun i => if i.val = no then f (held i) else held i

def heldAfter (held : Fin MAX_PAGING_FILES → Finset Nat) :
    Op → Option (Fin MAX_PAGING_FILES × Nat) → Fin MAX_PAGING_FILES → Finset Nat
  | .init _, _ => fun _ => ∅
  | .setPagingFile no _ _, _ => changeHeld held no fun _ => ∅
  | .setDiskPagefile no _, _ => changeHeld held no fun _ => ∅
  | .releaseSlot no offset, _ => changeHeld held no fun slots => slots.erase offset
  | _, some (i, offset) => changeHeld held i fun slots => insert offset slots
  | _, none => held

def step (op : Op) (sys : System) : Option System :=
  match call sys.state op with
  | .ok (slot, state) => some { state := state, held := heldAfter sys.held op slot }
  | .error _ => none

def Permitted (sys : System) : Op → Prop
  | .releaseSlot no offset => ∃ i : Fin MAX_PAGING_FILES, i.val = no ∧ offset ∈ sys.held i
  | _ => True

/-! ## What a call promises, and when it keeps the promise -/

variable (sys : System) (i : Fin MAX_PAGING_FILES)

structure Sound (op : Op) : Prop where
  inside : call sys.state op ≠ .error .index
  /-- A slot handed out is free and belongs to the file. -/
  free : ∀ {i offset state}, call sys.state op = .ok (some (i, offset), state) →
    offset ∉ sys.held i ∧ offset < (sys.state.files i).pageCount
  counted : ∀ {slot state}, call sys.state op = .ok (slot, state) →
    ∀ i, (state.files i).usedCount = (heldAfter sys.held op slot i).card
  /-- No slot only if there is none. -/
  full : op = .reserveSlot → ∀ {state}, call sys.state op = .ok (none, state) →
    ∀ i, (sys.state.files i).enabled → ∀ offset < (sys.state.files i).pageCount, offset ∈ sys.held i

/-- The file has a free slot that its bitmap can hand out. -/
def Offers : Prop :=
  (sys.state.files i).enabled ∧ (sys.state.files i).bitmapWords ≠ 0
    ∧ ∃ offset < BITMAP_WORDS * BITS_PER_WORD,
        offset < (sys.state.files i).pageCount ∧ offset ∉ sys.held i

/-- The file is larger than its bitmap, all of which is taken. -/
def Overrun : Prop :=
  (sys.state.files i).enabled ∧ BITMAP_WORDS * BITS_PER_WORD < (sys.state.files i).pageCount
    ∧ ∀ offset < BITMAP_WORDS * BITS_PER_WORD, offset ∈ sys.held i

/-- The file is enabled and has pages but no bitmap words: file 0 after `init`. -/
def Unmapped : Prop :=
  (sys.state.files i).enabled ∧ (sys.state.files i).bitmapWords = 0
    ∧ 0 < (sys.state.files i).pageCount

/-- The condition under which a call keeps its promises. -/
def Ready : Op → Prop
  | .reserveSlot =>
    (∀ i, Overrun sys i → ∃ j < i, Offers sys j) ∧ ((∃ i, Unmapped sys i) → ∃ j, Offers sys j)
  | .reserveSlotInFile no => ∀ i : Fin MAX_PAGING_FILES, i.val = no → ¬ Overrun sys i
  | _ => True

/-! ## The invariant -/

structure FileInv (file : PagingFile) (bits : Fin BITMAP_WORDS → BitVec BITS_PER_WORD)
    (held : Finset Nat) : Prop where
  counted : file.usedCount = held.card
  disabled : file.enabled = false → held = ∅
  below : ∀ offset ∈ held, offset < file.pageCount
  bits : file.enabled → ∀ offset, bitAt bits offset = decide (offset ∈ held)
  words : file.enabled → file.bitmapWords = wordsFor file.pageCount ∨ file.bitmapWords = 0 ∧ held = ∅

def Inv (sys : System) : Prop :=
  ∀ i, FileInv (sys.state.files i) (sys.state.allocated i) (sys.held i)

variable {bitPos : Nat}

lemma findFirstZero_some {word : BitVec BITS_PER_WORD} (h : findFirstZero word = some bitPos) :
    bitPos < BITS_PER_WORD ∧ word.getLsbD bitPos = false ∧ ∀ k < bitPos, word.getLsbD k = true := by
  simp only [findFirstZero] at h
  split at h
  · rename_i hne
    cases h
    have hbt := getLsbD_true_ctz_of_ne_zero hne
    have hlt := lt_of_getLsbD hbt
    rw [getLsbD_not, decide_eq_true hlt] at hbt
    refine ⟨hlt, by simpa using hbt, ?_⟩
    intro k hk
    have hlw : (~~~word).getLsbD k = false := getLsbD_false_of_lt_ctz hk
    rw [getLsbD_not, decide_eq_true (Nat.lt_trans hk hlt)] at hlw
    simpa using hlw
  · cases h

lemma findFirstZero_none {word : BitVec BITS_PER_WORD} (h : findFirstZero word = none) {k : Nat}
    (hk : k < BITS_PER_WORD) : word.getLsbD k = true := by
  simp only [findFirstZero] at h
  split at h
  · cases h
  rename_i h0
  have hbt : (~~~word).getLsbD k = false := by
    rw [not_not.mp h0]
    exact getLsbD_zero
  rw [getLsbD_not, decide_eq_true hk] at hbt
  simpa using hbt

namespace FileInv

variable {file : PagingFile} {bits : Fin BITMAP_WORDS → BitVec BITS_PER_WORD} {held : Finset Nat}

lemma fresh (hus : file.usedCount = 0)
    (hws : file.bitmapWords = wordsFor file.pageCount ∨ file.bitmapWords = 0) :
    FileInv file (fun _ => 0) ∅ where
  counted := hus
  disabled := fun _ => rfl
  below := nofun
  bits := by
    intro _ offset
    rw [bitAt_zero]
    rfl
  words := fun _ => hws.imp_right fun h => ⟨h, rfl⟩

lemma off (hof : file.enabled = false) (hus : file.usedCount = 0) : FileInv file bits ∅ where
  counted := hus
  disabled := fun _ => rfl
  below := nofun
  bits := fun hon => absurd (hon.symm.trans hof) (by decide)
  words := fun hon => absurd (hon.symm.trans hof) (by decide)

variable {offset : Nat}

variable (h : FileInv file bits held)
include h

section

variable (hheld : offset ∈ held)
include hheld

lemma enabled : file.enabled = true := by
  cases hof : file.enabled with
  | true => rfl
  | false =>
    rw [h.disabled hof] at hheld
    cases hheld

lemma lt_bitmap : offset < BITMAP_WORDS * BITS_PER_WORD := by
  by_contra hge
  have hbt := h.bits (h.enabled hheld) offset
  rw [bitAt_of_ge (Nat.not_lt.mp hge) (by decide), decide_eq_true hheld] at hbt
  cases hbt

lemma div_lt_words : offset / BITS_PER_WORD < file.bitmapWords := by
  rcases h.words (h.enabled hheld) with hws | ⟨_, hem⟩
  · have hlt := h.below offset hheld
    rw [hws]
    show offset / 64 < (file.pageCount + 63) / 64
    omega
  · rw [hem] at hheld
    cases hheld

end

lemma usedCount_lt : file.usedCount + 1 < 2 ^ 64 := by
  have hsb : held ⊆ Finset.range (BITMAP_WORDS * BITS_PER_WORD) :=
    fun offset hheld => Finset.mem_range.mpr (h.lt_bitmap hheld)
  have hcd := Finset.card_le_card hsb
  rw [Finset.card_range] at hcd
  rw [h.counted]
  exact Nat.lt_of_le_of_lt (Nat.succ_le_succ hcd) (by decide)

lemma held_of_bits (hon : file.enabled = true)
    (word : Fin BITMAP_WORDS) (hle : bitPos ≤ BITS_PER_WORD)
    (hbefore : ∀ offset < word * BITS_PER_WORD, offset ∈ held)
    (hst : ∀ b < bitPos, (bits word).getLsbD b = true) :
    ∀ offset < word * BITS_PER_WORD + bitPos, offset ∈ held := by
  intro offset hlt
  by_cases hold : offset < word * BITS_PER_WORD
  · exact hbefore offset hold
  have hb : offset - word * BITS_PER_WORD < bitPos := by omega
  have hbt := hst _ hb
  rw [← bitAt_word word (Nat.lt_of_lt_of_le hb hle), h.bits hon,
    Nat.add_sub_cancel' (Nat.not_lt.mp hold)] at hbt
  exact of_decide_eq_true hbt

lemma take {word : Fin BITMAP_WORDS} (hbt : bitPos < BITS_PER_WORD) (hon : file.enabled = true)
    (hws : file.bitmapWords = wordsFor file.pageCount)
    (hlt : word * BITS_PER_WORD + bitPos < file.pageCount)
    (hfree : word * BITS_PER_WORD + bitPos ∉ held) :
    FileInv { file with usedCount := file.usedCount + 1 }
      (update bits word (bits word ||| BitVec.ofNat BITS_PER_WORD 1 <<< bitPos))
      (insert (word * BITS_PER_WORD + bitPos) held) where
  counted := by rw [card_insert_of_notMem hfree, h.counted]
  disabled := fun hof => absurd (hon.symm.trans hof) (by decide)
  below := by
    intro offset hos
    rcases mem_insert.mp hos with rfl | hos
    · exact hlt
    · exact h.below offset hos
  bits := by
    intro _ offset
    rw [bitAt_setBit word hbt, h.bits hon, ← Bool.decide_or, decide_eq_decide, mem_insert]
  words := fun _ => .inl hws

lemma release (hheld : offset ∈ held) (hwd : offset / BITS_PER_WORD < BITMAP_WORDS) :
    FileInv { file with usedCount := file.usedCount - 1 }
      (update bits ⟨offset / BITS_PER_WORD, hwd⟩ (bits ⟨offset / BITS_PER_WORD, hwd⟩
          &&& ~~~(BitVec.ofNat BITS_PER_WORD 1 <<< (offset % BITS_PER_WORD))))
      (held.erase offset) where
  counted := by rw [card_erase_of_mem hheld, h.counted]
  disabled := fun hof => absurd ((h.enabled hheld).symm.trans hof) (by decide)
  below := fun o ho => h.below o (mem_of_mem_erase ho)
  bits := by
    intro hon o
    have hsp : offset / BITS_PER_WORD * BITS_PER_WORD + offset % BITS_PER_WORD = offset := by
      rw [Nat.mul_comm]
      exact Nat.div_add_mod offset BITS_PER_WORD
    rw [bitAt_clearBit _ (Nat.mod_lt offset (by decide)), h.bits hon]
    rw [hsp, ← decide_not, ← Bool.decide_and, decide_eq_decide, mem_erase]
  words := by
    intro hon
    rcases h.words hon with hws | ⟨_, hem⟩
    · exact .inl hws
    · rw [hem] at hheld
      cases hheld

lemma grow {newSize : Nat} (hon : file.enabled = true) (hsz : file.pageCount < newSize) :
    FileInv { file with pageCount := newSize, bitmapWords := wordsFor newSize }
      (fun word => if file.bitmapWords ≤ word.val ∧ word.val < min (wordsFor newSize) BITMAP_WORDS
        then 0 else bits word) held where
  counted := h.counted
  disabled := h.disabled
  below := fun offset hheld => Nat.lt_trans (h.below offset hheld) hsz
  bits := by
    intro _ offset
    rw [bitAt_clearWords fun word =>
      file.bitmapWords ≤ word ∧ word < min (wordsFor newSize) BITMAP_WORDS, h.bits hon]
    by_cases hheld : offset ∈ held
    · have hwd := h.div_lt_words hheld
      rw [decide_eq_false fun hcl => Nat.not_le.mpr hwd hcl.1]
      rfl
    · rw [decide_eq_false hheld, Bool.and_false]
  words := fun _ => .inl rfl

end FileInv

variable {sys : System} {i : Fin MAX_PAGING_FILES}

lemma changeHeld_self (held : Fin MAX_PAGING_FILES → Finset Nat) (f : Finset Nat → Finset Nat) :
    changeHeld held i f i = f (held i) := if_pos rfl

lemma changeHeld_of_ne (held : Fin MAX_PAGING_FILES → Finset Nat) (f : Finset Nat → Finset Nat)
    {j : Fin MAX_PAGING_FILES} (hj : j ≠ i) : changeHeld held i f j = held j :=
  if_neg fun heq => hj (Fin.ext heq)

lemma Inv.update (h : Inv sys) {file : PagingFile}
    {bits : Fin BITMAP_WORDS → BitVec BITS_PER_WORD} {f : Finset Nat → Finset Nat}
    (hfi : FileInv file bits (f (sys.held i))) :
    Inv { state := { files := update sys.state.files i file
                     allocated := update sys.state.allocated i bits }
          held := changeHeld sys.held i f } := by
  intro j
  by_cases hj : j = i
  · rw [hj]
    dsimp only
    rw [update_self, update_self, changeHeld_self]
    exact hfi
  dsimp only
  rw [update_of_ne hj, update_of_ne hj, changeHeld_of_ne _ _ hj]
  exact h j

/-! ## The search for a slot -/

/-- The three ends of `bitmap_alloc`. -/
inductive AllocOutcome (sys : System) (i : Fin MAX_PAGING_FILES) :
    Except Panic (Option Nat × PagefileState) → Prop where
  | slot {offset : Nat} {state : PagefileState} (hoffers : Offers sys i)
      (hfiles : state.files = update sys.state.files i
        { sys.state.files i with usedCount := (sys.state.files i).usedCount + 1 })
      (hfree : offset ∉ sys.held i) (hlt : offset < (sys.state.files i).pageCount)
      (hinv : Inv { state := state, held := changeHeld sys.held i fun slots => insert offset slots }) :
      AllocOutcome sys i (.ok (some offset, state))
  | overrun (hover : Overrun sys i) : AllocOutcome sys i (.error .index)
  | nothing (hoffers : ¬ Offers sys i) (hover : ¬ Overrun sys i) :
      AllocOutcome sys i (.ok (none, sys.state))

open AllocOutcome

lemma AllocOutcome.of_full (h : Inv sys)
    (hfl : ∀ offset < (sys.state.files i).pageCount, offset ∈ sys.held i) :
    AllocOutcome sys i (.ok (none, sys.state)) := by
  apply nothing
  · rintro ⟨_, _, offset, _, hlt, hfree⟩
    exact hfree (hfl offset hlt)
  rintro ⟨_, hlg, _⟩
  -- the slot after the bitmap would be held
  exact Nat.lt_irrefl _ ((h i).lt_bitmap (hfl _ hlg))

lemma setWord_or_and_not {s : PagefileState} {word : Fin BITMAP_WORDS}
    (hcl : (s.allocated i word).getLsbD bitPos = false) :
    setWord s i word ((s.allocated i word ||| BitVec.ofNat BITS_PER_WORD 1 <<< bitPos)
      &&& ~~~(BitVec.ofNat BITS_PER_WORD 1 <<< bitPos)) = s := by
  rw [or_and_not_self hcl]
  unfold setWord
  rw [update_eq_self, update_eq_self]

lemma allocFrom_outcome (h : Inv sys) (hon : (sys.state.files i).enabled = true)
    (hws : (sys.state.files i).bitmapWords = wordsFor (sys.state.files i).pageCount)
    (hso : (sys.state.files i).bitmapWords ≠ 0) (left : Nat) :
    ∀ wordIdx, wordIdx + left = (sys.state.files i).bitmapWords →
      (∀ offset < wordIdx * BITS_PER_WORD, offset ∈ sys.held i) →
      AllocOutcome sys i (allocFrom sys.state i left wordIdx) := by
  induction left with intro wordIdx hlf hbefore
  | zero =>
    apply of_full h
    intro offset hlt
    apply hbefore
    rw [hws] at hlf
    show offset < wordIdx * 64
    replace hlf : wordIdx + 0 = ((sys.state.files i).pageCount + 63) / 64 := hlf
    omega
  | succ left ih =>
    unfold allocFrom
    split
    · rename_i hwd
      dsimp only
      split
      · rename_i bitPos hfi
        obtain ⟨hbitPos, hcl, hst⟩ := findFirstZero_some hfi
        have hsm : wordIdx * BITS_PER_WORD + bitPos < BITMAP_WORDS * BITS_PER_WORD := by
          show wordIdx * 64 + bitPos < 64 * 64
          replace hwd : wordIdx < 64 := hwd
          replace hbitPos : bitPos < 64 := hbitPos
          omega
        have hmd : (wordIdx * BITS_PER_WORD + bitPos) % 2 ^ 32 = wordIdx * BITS_PER_WORD + bitPos :=
          Nat.mod_eq_of_lt (Nat.lt_trans hsm (by decide))
        have hfree : wordIdx * BITS_PER_WORD + bitPos ∉ sys.held i := by
          rw [← bitAt_word ⟨wordIdx, hwd⟩ hbitPos, (h i).bits hon] at hcl
          exact of_decide_eq_false hcl
        rw [hmd]
        split
        · rename_i hlt
          rw [Checked.add_eq (h i).usedCount_lt]
          exact slot ⟨hon, hso, _, hsm, hlt, hfree⟩ rfl hfree hlt
            (h.update ((h i).take hbitPos hon hws hlt hfree))
        rename_i hge
        rw [setWord_or_and_not hcl]
        apply of_full h
        intro offset hlt
        exact (h i).held_of_bits hon ⟨wordIdx, hwd⟩ (Nat.le_of_lt hbitPos) hbefore hst offset
          (Nat.lt_of_lt_of_le hlt (Nat.not_lt.mp hge))
      rename_i hfi
      apply ih (wordIdx + 1) (by omega)
      rw [Nat.succ_mul]
      exact (h i).held_of_bits hon ⟨wordIdx, hwd⟩ (Nat.le_refl _) hbefore
        fun b hb => findFirstZero_none hfi hb
    rename_i he
    apply overrun
    refine ⟨hon, ?_, ?_⟩
    · rw [hws] at hlf
      show 64 * 64 < (sys.state.files i).pageCount
      replace hlf : wordIdx + (left + 1) = ((sys.state.files i).pageCount + 63) / 64 := hlf
      replace he : ¬ wordIdx < 64 := he
      omega
    intro offset hlt
    exact hbefore offset (Nat.lt_of_lt_of_le hlt (Nat.mul_le_mul_right _ (Nat.not_lt.mp he)))

lemma bitmapAlloc_outcome (h : Inv sys) (i : Fin MAX_PAGING_FILES) :
    AllocOutcome sys i (bitmapAlloc sys.state i) := by
  unfold bitmapAlloc
  split
  · rename_i hof
    exact nothing (fun hoffers => hof hoffers.1) (fun hover => hof hover.1)
  rename_i hon
  replace hon : (sys.state.files i).enabled = true := not_not.mp hon
  split
  · rename_i h0
    apply nothing
    · exact fun hoffers => hoffers.2.1 h0
    rintro ⟨_, _, hall⟩
    -- a held slot lies in a bitmap word, and there is none
    have hlt := (h i).div_lt_words (hall 0 (by decide))
    rw [h0] at hlt
    exact Nat.not_lt_zero _ hlt
  rename_i hso
  have hws : (sys.state.files i).bitmapWords = wordsFor (sys.state.files i).pageCount := by
    rcases (h i).words hon with hws | ⟨h0, _⟩
    · exact hws
    · exact absurd h0 hso
  apply allocFrom_outcome h hon hws hso _ 0 (Nat.zero_add _)
  intro offset hlt
  exact absurd hlt (Nat.not_lt_zero _)

/-- The ends of the search over several files, in ascending order. -/
inductive ReserveOutcome (sys : System) (is : List (Fin MAX_PAGING_FILES)) :
    Except Panic (Option (Fin MAX_PAGING_FILES × Nat) × PagefileState) → Prop where
  | slot {i : Fin MAX_PAGING_FILES} {offset : Nat} {state : PagefileState}
      (hbefore : ∀ j ∈ is, j < i → ¬ Offers sys j ∧ ¬ Overrun sys j) (hoffers : Offers sys i)
      (hfiles : state.files = update sys.state.files i
        { sys.state.files i with usedCount := (sys.state.files i).usedCount + 1 })
      (hfree : offset ∉ sys.held i) (hlt : offset < (sys.state.files i).pageCount)
      (hinv : Inv { state := state, held := changeHeld sys.held i fun slots => insert offset slots }) :
      ReserveOutcome sys is (.ok (some (i, offset), state))
  | overrun {i : Fin MAX_PAGING_FILES}
      (hbefore : ∀ j ∈ is, j < i → ¬ Offers sys j ∧ ¬ Overrun sys j) (hover : Overrun sys i) :
      ReserveOutcome sys is (.error .index)
  | nothing (hall : ∀ j ∈ is, ¬ Offers sys j ∧ ¬ Overrun sys j) :
      ReserveOutcome sys is (.ok (none, sys.state))

variable {is : List (Fin MAX_PAGING_FILES)}

open ReserveOutcome

lemma reserveFrom_outcome (h : Inv sys)
    (hsr : is.Pairwise (· < ·)) : ReserveOutcome sys is (reserveFrom is sys.state) := by
  induction is with
  | nil => exact nothing nofun
  | cons i is ih =>
    obtain ⟨hfs, hsr⟩ := pairwise_cons.mp hsr
    have hbefore : ∀ j ∈ i :: is, j < i → ¬ Offers sys j ∧ ¬ Overrun sys j := by
      intro j hj hlt
      rcases mem_cons.mp hj with rfl | hj
      · exact absurd hlt (Fin.lt_irrefl _)
      · exact absurd hlt (Fin.lt_asymm (hfs j hj))
    unfold reserveFrom
    generalize hrs : bitmapAlloc sys.state i = result
    have ho := bitmapAlloc_outcome h i
    rw [hrs] at ho
    cases ho with
    | slot hoffers hfiles hfree hlt hinv => exact slot hbefore hoffers hfiles hfree hlt hinv
    | overrun hover => exact overrun hbefore hover
    | nothing hoffers hover =>
      -- the head has nothing, so the search of the rest decides
      have hhd : ∀ {j}, j ∈ i :: is → (j ∈ is → ¬ Offers sys j ∧ ¬ Overrun sys j) →
          ¬ Offers sys j ∧ ¬ Overrun sys j := by
        intro j hj hr
        rcases mem_cons.mp hj with rfl | hj
        · exact ⟨hoffers, hover⟩
        · exact hr hj
      dsimp only
      generalize hr : reserveFrom is sys.state = rest
      have hih := ih hsr
      rw [hr] at hih
      cases hih with
      | slot hbefore hoffers hfiles hfree hlt hinv =>
        exact slot (fun j hj hlt => hhd hj fun hj => hbefore j hj hlt) hoffers hfiles hfree hlt hinv
      | overrun hbefore hover =>
        exact overrun (fun j hj hlt => hhd hj fun hj => hbefore j hj hlt) hover
      | nothing hall => exact nothing fun j hj => hhd hj (hall j)

/-! ## Calls -/

lemma not_overrun_of_offers (h : Offers sys i) : ¬ Overrun sys i := by
  rintro ⟨_, _, hall⟩
  obtain ⟨_, _, offset, hlt, _, hfree⟩ := h
  exact hfree (hall offset hlt)

lemma full_of_nothing (hon : (sys.state.files i).enabled = true)
    (hmp : ¬ Unmapped sys i) (hoffers : ¬ Offers sys i) (hover : ¬ Overrun sys i) :
    ∀ offset < (sys.state.files i).pageCount, offset ∈ sys.held i := by
  intro offset hlt
  have hso : (sys.state.files i).bitmapWords ≠ 0 := fun h0 => hmp ⟨hon, h0, Nat.zero_lt_of_lt hlt⟩
  have hin : ∀ o < BITMAP_WORDS * BITS_PER_WORD, o < (sys.state.files i).pageCount →
      o ∈ sys.held i := by
    intro o ho hpg
    by_contra hfree
    exact hoffers ⟨hon, hso, o, ho, hpg, hfree⟩
  by_cases hof : offset < BITMAP_WORDS * BITS_PER_WORD
  · exact hin offset hof hlt
  have hlg : BITMAP_WORDS * BITS_PER_WORD < (sys.state.files i).pageCount :=
    Nat.lt_of_le_of_lt (Nat.not_lt.mp hof) hlt
  exact absurd ⟨hon, hlg, fun o ho => hin o ho (Nat.lt_trans ho hlg)⟩ hover

lemma held_of_unmapped (h : Inv sys) (hum : Unmapped sys i) : sys.held i = ∅ := by
  obtain ⟨_, h0, _⟩ := hum
  apply eq_empty_of_forall_notMem
  intro offset hheld
  have hlt := (h i).div_lt_words hheld
  rw [h0] at hlt
  exact Nat.not_lt_zero _ hlt

lemma init_inv (sys : System) (frames : Option Nat) :
    Inv { state := init sys.state frames, held := fun _ => ∅ } := by
  intro i
  by_cases hi : i = 0
  · rw [hi]
    exact FileInv.fresh rfl (.inr rfl)
  dsimp only [init, initBitmap]
  rw [update_of_ne hi, update_of_ne hi]
  exact FileInv.off rfl rfl

lemma Inv.setUp (h : Inv sys) {file : PagingFile} {pageCount : Nat} (hus : file.usedCount = 0)
    (hcn : file.pageCount = pageCount) :
    Inv { state := initBitmap { sys.state with files := Function.update sys.state.files i file } i
            pageCount
          held := changeHeld sys.held i fun _ => ∅ } := by
  have hfi : FileInv { file with bitmapWords := wordsFor pageCount } (fun _ => 0) ∅ :=
    FileInv.fresh hus (.inl (by rw [hcn]))
  have hinv := @Inv.update sys i h _ _ (fun _ => ∅) hfi
  unfold initBitmap
  dsimp only
  rw [update_self, update_idem]
  exact hinv

lemma changeHeld_of_ge (held : Fin MAX_PAGING_FILES → Finset Nat) {no : Nat}
    (hno : ¬ no < MAX_PAGING_FILES) (f : Finset Nat → Finset Nat) : changeHeld held no f = held := by
  funext i
  apply if_neg
  intro heq
  rw [← heq] at hno
  exact hno i.isLt

lemma changeHeld_id (held : Fin MAX_PAGING_FILES → Finset Nat) (no : Nat) :
    changeHeld held no (fun slots => slots) = held := by
  funext i
  exact ite_self _

lemma reserveSlotInFile_eq (s : PagefileState) {no : Nat} (hno : no < MAX_PAGING_FILES) :
    reserveSlotInFile s no = reserveFrom [⟨no, hno⟩] s := by
  unfold reserveSlotInFile reserveFrom
  rw [dif_pos hno]
  rcases bitmapAlloc s ⟨no, hno⟩ with panic | ⟨_ | offset, s'⟩
  · rfl
  · rfl
  · rfl

lemma reserveSlot_outcome (h : Inv sys) :
    ReserveOutcome sys (finRange MAX_PAGING_FILES) (call sys.state .reserveSlot) :=
  reserveFrom_outcome h (pairwise_lt_finRange _)

lemma call_reserve (h : Inv sys) {op : Op}
    (hop : op = .reserveSlot ∨ ∃ no, op = .reserveSlotInFile no) :
    ∃ is, ReserveOutcome sys is (call sys.state op) := by
  rcases hop with rfl | ⟨no, rfl⟩
  · exact ⟨_, reserveSlot_outcome h⟩
  by_cases hno : no < MAX_PAGING_FILES
  · refine ⟨[⟨no, hno⟩], ?_⟩
    show ReserveOutcome sys _ (reserveSlotInFile sys.state no)
    rw [reserveSlotInFile_eq _ hno]
    exact reserveFrom_outcome h (pairwise_singleton _ _)
  refine ⟨[], ?_⟩
  show ReserveOutcome sys _ (reserveSlotInFile sys.state no)
  unfold reserveSlotInFile
  rw [dif_neg hno]
  exact nothing nofun

lemma ReserveOutcome.after {op : Op}
    {slot : Option (Fin MAX_PAGING_FILES × Nat)} {state : PagefileState} (h : Inv sys)
    (hop : op = .reserveSlot ∨ ∃ no, op = .reserveSlotInFile no)
    (ho : ReserveOutcome sys is (.ok (slot, state))) :
    Inv { state := state, held := heldAfter sys.held op slot } := by
  cases ho with
  | slot _ _ _ _ _ hinv =>
    rcases hop with rfl | ⟨no, rfl⟩
    · exact hinv
    · exact hinv
  | nothing _ =>
    rcases hop with rfl | ⟨no, rfl⟩
    · exact h
    · exact h

lemma releaseSlot_inv (h : Inv sys) {no offset : Nat}
    (hpr : Permitted sys (.releaseSlot no offset)) :
    ∃ state, releaseSlot sys.state no offset = .ok state
      ∧ Inv { state := state, held := changeHeld sys.held no fun slots => slots.erase offset } := by
  obtain ⟨i, rfl, hheld⟩ := hpr
  have hwd : offset / BITS_PER_WORD < BITMAP_WORDS :=
    (Nat.div_lt_iff_lt_mul (by decide)).mpr ((h i).lt_bitmap hheld)
  unfold releaseSlot bitmapFree
  rw [dif_pos i.isLt]
  rw [if_neg (not_not.mpr ((h i).enabled hheld)),
    if_neg (Nat.not_le.mpr ((h i).below offset hheld)), if_pos ((h i).div_lt_words hheld),
    dif_pos hwd]
  exact ⟨_, rfl, h.update (f := fun slots => slots.erase offset) ((h i).release hheld hwd)⟩

lemma growPagefile_inv (h : Inv sys) (no newSize : Nat) :
    Inv { state := (growPagefile sys.state no newSize).2, held := sys.held } := by
  unfold growPagefile
  split
  · rename_i hno
    dsimp only
    split
    · exact h
    rename_i hgr
    obtain ⟨hon, hsz⟩ := not_or.mp hgr
    have hinv := h.update (f := fun slots => slots)
      ((h ⟨no, hno⟩).grow (not_not.mp hon) (Nat.lt_of_not_le hsz))
    rw [changeHeld_id] at hinv
    exact hinv
  · exact h

lemma setPagingFile_inv (h : Inv sys) (no basePfn pageCount : Nat) :
    Inv { state := setPagingFile sys.state no basePfn pageCount
          held := changeHeld sys.held no fun _ => ∅ } := by
  unfold setPagingFile
  split
  · rename_i hno
    exact @Inv.setUp sys ⟨no, hno⟩ h _ _ rfl rfl
  rename_i hno
  rw [changeHeld_of_ge _ hno]
  exact h

lemma setDiskPagefile_inv (h : Inv sys) {no sizePages : Nat} {result : Bool × PagefileState}
    (hca : setDiskPagefile sys.state no sizePages = .ok result) :
    Inv { state := result.2, held := changeHeld sys.held no fun _ => ∅ } := by
  unfold setDiskPagefile at hca
  split at hca
  · rename_i hno
    split at hca <;> cases hca
    exact @Inv.setUp sys ⟨no, hno⟩ h _ _ rfl rfl
  rename_i hno
  cases hca
  rw [changeHeld_of_ge _ hno]
  exact h

lemma call_inv (h : Inv sys) {op : Op} (hpr : Permitted sys op)
    {slot : Option (Fin MAX_PAGING_FILES × Nat)} {state : PagefileState}
    (hca : call sys.state op = .ok (slot, state)) :
    Inv { state := state, held := heldAfter sys.held op slot } := by
  cases op with
  | init frames =>
    cases hca
    exact init_inv sys frames
  | setPagingFile no basePfn pageCount =>
    cases hca
    exact setPagingFile_inv h no basePfn pageCount
  | setDiskPagefile no sizePages =>
    cases hrs : setDiskPagefile sys.state no sizePages with simp only [call, hrs] at hca
    | error panic => cases hca
    | ok result =>
      cases hca
      exact setDiskPagefile_inv h hrs
  | growPagefile no newSize =>
    cases hca
    exact growPagefile_inv h no newSize
  | reserveSlot =>
    obtain ⟨is, ho⟩ := call_reserve h (.inl rfl)
    rw [hca] at ho
    exact ho.after h (.inl rfl)
  | reserveSlotInFile no =>
    obtain ⟨is, ho⟩ := call_reserve h (.inr ⟨no, rfl⟩)
    rw [hca] at ho
    exact ho.after h (.inr ⟨no, rfl⟩)
  | releaseSlot no offset =>
    obtain ⟨_, hrs, hinv⟩ := releaseSlot_inv h hpr
    simp only [call, hrs] at hca
    cases hca
    exact hinv

lemma step_inv {sys' : System} {op : Op} (h : Inv sys) (hpr : Permitted sys op)
    (hs : step op sys = some sys') : Inv sys' := by
  unfold step at hs
  split at hs
  · rename_i hca
    cases hs
    exact call_inv h hpr hca
  · cases hs

lemma start_inv : Inv System.start := fun _ => FileInv.off rfl rfl

/-! ## Every run -/

lemma sound_of_quiet (h : Inv sys) {op : Op} (hpr : Permitted sys op)
    (hqt : op ≠ .reserveSlot) (hqt' : ∀ no, op ≠ .reserveSlotInFile no) : Sound sys op := by
  have hca : call sys.state op ≠ .error .index
      ∧ ∀ {slot state}, call sys.state op = .ok (some slot, state) → False := by
    cases op with
    | init frames => exact ⟨nofun, nofun⟩
    | setPagingFile no basePfn pageCount => exact ⟨nofun, nofun⟩
    | growPagefile no newSize => exact ⟨nofun, nofun⟩
    | reserveSlot => exact absurd rfl hqt
    | reserveSlotInFile no => exact absurd rfl (hqt' no)
    | releaseSlot no offset =>
      obtain ⟨state, hrs, _⟩ := releaseSlot_inv h hpr
      simp only [call, hrs]
      exact ⟨nofun, nofun⟩
    | setDiskPagefile no sizePages =>
      simp only [call, setDiskPagefile]
      split
      · split
        · exact ⟨nofun, nofun⟩
        · exact ⟨nofun, nofun⟩
      · exact ⟨nofun, nofun⟩
  exact ⟨hca.1, fun hsl => (hca.2 hsl).elim,
    fun hok i => (call_inv h hpr hok i).counted, fun heq => absurd heq hqt⟩

lemma ReserveOutcome.free {offset : Nat}
    {state : PagefileState} (ho : ReserveOutcome sys is (.ok (some (i, offset), state))) :
    offset ∉ sys.held i ∧ offset < (sys.state.files i).pageCount := by
  cases ho with
  | slot _ _ _ hfree hlt _ => exact ⟨hfree, hlt⟩

section

variable (h : Inv sys)
include h

lemma reserve_free_counted {op : Op} (hop : op = .reserveSlot ∨ ∃ no, op = .reserveSlotInFile no) :
    (∀ {i offset state}, call sys.state op = .ok (some (i, offset), state) →
        offset ∉ sys.held i ∧ offset < (sys.state.files i).pageCount)
      ∧ ∀ {slot state}, call sys.state op = .ok (slot, state) →
        ∀ i, (state.files i).usedCount = (heldAfter sys.held op slot i).card := by
  obtain ⟨_, ho⟩ := call_reserve h hop
  constructor
  · intro i offset state hca
    rw [hca] at ho
    exact ho.free
  intro slot state hca i
  rw [hca] at ho
  exact (ho.after h hop i).counted

lemma bitmapAlloc_error_iff : bitmapAlloc sys.state i = .error .index ↔ Overrun sys i := by
  generalize hrs : bitmapAlloc sys.state i = result
  have ho := bitmapAlloc_outcome h i
  rw [hrs] at ho
  cases ho with
  | slot hoffers _ _ _ _ => exact ⟨nofun, fun hover => absurd hover (not_overrun_of_offers hoffers)⟩
  | overrun hover => exact ⟨fun _ => hover, fun _ => rfl⟩
  | nothing _ hover => exact ⟨nofun, fun h => absurd h hover⟩

lemma reserveSlotInFile_error_iff (no : Nat) :
    call sys.state (.reserveSlotInFile no) = .error .index
      ↔ ∃ i : Fin MAX_PAGING_FILES, i.val = no ∧ Overrun sys i := by
  show reserveSlotInFile sys.state no = .error .index ↔ _
  unfold reserveSlotInFile
  split
  · rename_i hno
    have hfi : (∃ i : Fin MAX_PAGING_FILES, i.val = no ∧ Overrun sys i)
        ↔ Overrun sys ⟨no, hno⟩ := by
      constructor
      · rintro ⟨i, rfl, hover⟩
        exact hover
      · exact fun hover => ⟨⟨no, hno⟩, rfl, hover⟩
    rw [hfi, ← bitmapAlloc_error_iff h]
    split
    · rename_i heq
      rw [heq, Except.error.injEq, Except.error.injEq]
    rename_i heq
    rw [heq]
    exact ⟨nofun, nofun⟩
  rename_i hno
  refine ⟨nofun, ?_⟩
  rintro ⟨i, rfl, _⟩
  exact absurd i.isLt hno

lemma reserveSlotInFile_sound_iff (no : Nat) :
    Sound sys (.reserveSlotInFile no) ↔ Ready sys (.reserveSlotInFile no) := by
  have hrd : Ready sys (.reserveSlotInFile no)
      ↔ call sys.state (.reserveSlotInFile no) ≠ .error .index := by
    rw [Ne, reserveSlotInFile_error_iff h]
    exact ⟨fun hrd ⟨i, hi, hover⟩ => hrd i hi hover, fun hn i hi hover => hn ⟨i, hi, hover⟩⟩
  rw [hrd]
  obtain ⟨hfree, hct⟩ := reserve_free_counted h (.inr ⟨no, rfl⟩)
  exact ⟨Sound.inside, fun hin => ⟨hin, hfree, hct, nofun⟩⟩

lemma reserveSlot_sound_iff : Sound sys .reserveSlot ↔ Ready sys .reserveSlot := by
  obtain ⟨hfree, hct⟩ := reserve_free_counted h (.inl rfl)
  have ho := reserveSlot_outcome h
  generalize hrs : call sys.state .reserveSlot = result at ho
  cases ho with
  | @slot i offset state hbefore hoffers _ _ _ _ =>
    -- both sides hold
    refine ⟨fun _ => ⟨?_, fun _ => ⟨i, hoffers⟩⟩, fun _ => ⟨?_, hfree, hct, ?_⟩⟩
    · intro k hover
      refine ⟨i, ?_, hoffers⟩
      rcases Nat.lt_trichotomy k.val i.val with hlt | heq | hlt
      · exact absurd hover (hbefore k (mem_finRange k) hlt).2
      · rw [Fin.ext heq] at hover
        exact absurd hover (not_overrun_of_offers hoffers)
      · exact hlt
    · rw [hrs]
      exact nofun
    intro _ state' hn
    rw [hrs] at hn
    cases hn
  | @overrun i hbefore hover =>
    -- both sides fail
    refine ⟨fun hso => absurd hrs hso.inside, fun hrd => ?_⟩
    obtain ⟨j, hlt, hoffers⟩ := hrd.1 i hover
    exact absurd hoffers (hbefore j (mem_finRange j) hlt).1
  | nothing hall =>
    constructor
    · intro hso
      refine ⟨fun i hover => absurd hover (hall i (mem_finRange i)).2, ?_⟩
      rintro ⟨i, hum⟩
      -- slot 0 of the unmapped file would be held
      have hheld := hso.full rfl hrs i hum.1 0 hum.2.2
      rw [held_of_unmapped h hum] at hheld
      cases hheld
    intro hrd
    refine ⟨?_, hfree, hct, ?_⟩
    · rw [hrs]
      exact nofun
    intro _ state _ i hon
    obtain ⟨hoffers, hover⟩ := hall i (mem_finRange i)
    refine full_of_nothing hon ?_ hoffers hover
    intro hum
    obtain ⟨j, hj⟩ := hrd.2 ⟨i, hum⟩
    exact (hall j (mem_finRange j)).1 hj

end

/-- After any calls, with only held slots released, the next call keeps its promises exactly if it
is ready. -/
theorem run_calls_sound {ops : List Op} (hrun : Run step Permitted System.start ops sys) {op : Op}
    (hop : Permitted sys op) : Sound sys op ↔ Ready sys op := by
  have h : Inv sys := hrun.keeps step_inv start_inv
  cases op with
  | reserveSlot => exact reserveSlot_sound_iff h
  | reserveSlotInFile no => exact reserveSlotInFile_sound_iff h no
  | init | setPagingFile | setDiskPagefile | growPagefile | releaseSlot =>
    exact iff_of_true (sound_of_quiet h hop nofun nofun) trivial

theorem run_calls_sound_twoPages :
    ∃ sys, Run step Permitted System.start [.setPagingFile 1 7 2] sys ∧ Sound sys .reserveSlot := by
  obtain ⟨sys, hsy⟩ : ∃ sys, step (.setPagingFile 1 7 2) System.start = some sys := ⟨_, rfl⟩
  have hr : Run step Permitted System.start [.setPagingFile 1 7 2] sys :=
    Run.cons trivial hsy (Run.nil _)
  refine ⟨sys, hr, (@run_calls_sound sys _ hr .reserveSlot trivial).mpr ?_⟩
  cases hsy
  constructor
  · rintro i ⟨_, hlg, _⟩
    exfalso
    revert i
    decide
  rintro ⟨i, _, _, _⟩
  exfalso
  revert i
  decide

/-! ## The two defects -/

lemma reserveSlot_of_offers (h : Inv sys) (hoffers : Offers sys 0) :
    ∃ offset state, call sys.state .reserveSlot = .ok (some (0, offset), state)
      ∧ offset ∉ sys.held 0 ∧ state.files = update sys.state.files 0
          { sys.state.files 0 with usedCount := (sys.state.files 0).usedCount + 1 } := by
  have ho := reserveSlot_outcome h
  generalize hrs : call sys.state .reserveSlot = result at ho
  cases ho with
  | @slot i offset state hbefore _ hfiles hfree _ _ =>
    rcases Nat.eq_zero_or_pos i.val with h0 | hp
    · have hi : i = 0 := Fin.ext h0
      rw [hi] at hfiles hfree ⊢
      exact ⟨offset, state, rfl, hfree, hfiles⟩
    · exact absurd hoffers (hbefore 0 (mem_finRange 0) hp).1
  | @overrun i hbefore hover =>
    rcases Nat.eq_zero_or_pos i.val with h0 | hp
    · have hi : i = 0 := Fin.ext h0
      rw [hi] at hover
      exact absurd hover (not_overrun_of_offers hoffers)
    · exact absurd hoffers (hbefore 0 (mem_finRange 0) hp).1
  | nothing hall => exact absurd hoffers (hall 0 (mem_finRange 0)).1

lemma reserveSlot_of_overrun (h : Inv sys) (hover : Overrun sys 0) :
    call sys.state .reserveSlot = .error .index := by
  show reserveFrom (List.finRange MAX_PAGING_FILES) sys.state = _
  rw [finRange_succ]
  unfold reserveFrom
  rw [(bitmapAlloc_error_iff h).mpr hover]

/-- A file of 4097 pages whose bitmap is not yet used up: taking the rest of it ends in an index
outside the bitmap. -/
lemma run_to_overrun (n : Nat) (h : Inv sys) (hon : (sys.state.files 0).enabled = true)
    (hpg : (sys.state.files 0).pageCount = 4097) (hws : (sys.state.files 0).bitmapWords ≠ 0)
    (hlf : (sys.held 0).card + n = BITMAP_WORDS * BITS_PER_WORD) :
    ∃ sys', Run step Permitted sys (List.replicate n .reserveSlot) sys'
      ∧ call sys'.state .reserveSlot = .error .index := by
  have hlg : BITMAP_WORDS * BITS_PER_WORD < (sys.state.files 0).pageCount := by
    rw [hpg]
    decide
  induction n generalizing sys with
  | zero =>
    -- as many slots are held as there are bits, so all of them
    have hsb : sys.held 0 ⊆ Finset.range (BITMAP_WORDS * BITS_PER_WORD) :=
      fun offset hheld => Finset.mem_range.mpr ((h 0).lt_bitmap hheld)
    have hall : sys.held 0 = Finset.range (BITMAP_WORDS * BITS_PER_WORD) := by
      apply Finset.eq_of_subset_of_card_le hsb
      rw [Finset.card_range]
      exact Nat.le_of_eq hlf.symm
    refine ⟨sys, Run.nil sys, reserveSlot_of_overrun h ⟨hon, hlg, ?_⟩⟩
    intro offset hlt
    rw [hall]
    exact Finset.mem_range.mpr hlt
  | succ n ih =>
    have hoffers : Offers sys 0 := by
      have hle : (sys.held 0).card < (Finset.range (BITMAP_WORDS * BITS_PER_WORD)).card := by
        rw [Finset.card_range]
        omega
      obtain ⟨offset, hlt, hfree⟩ := Finset.exists_mem_notMem_of_card_lt_card hle
      have hof := Finset.mem_range.mp hlt
      exact ⟨hon, hws, offset, hof, Nat.lt_trans hof hlg, hfree⟩
    obtain ⟨offset, state, hca, hfree, hfiles⟩ := reserveSlot_of_offers h hoffers
    have hinv := @call_inv sys h .reserveSlot trivial _ _ hca
    have hs : step .reserveSlot sys
        = some { state := state, held := heldAfter sys.held .reserveSlot (some (0, offset)) } := by
      unfold step
      rw [hca]
    have hfi : state.files 0
        = { sys.state.files 0 with usedCount := (sys.state.files 0).usedCount + 1 } := by
      rw [hfiles, update_self]
    have hcd : (heldAfter sys.held .reserveSlot (some (0, offset)) 0).card + n
        = BITMAP_WORDS * BITS_PER_WORD := by
      show (insert offset (sys.held 0)).card + n = _
      rw [card_insert_of_notMem hfree]
      omega
    obtain ⟨sys', hr, he⟩ := ih hinv (by rw [hfi]; exact hon) (by rw [hfi]; exact hpg)
      (by rw [hfi]; exact hws) hcd (by rw [hfi]; exact hlg)
    exact ⟨sys', Run.cons trivial hs hr, he⟩

theorem unmapped_and_overrun : (∃ sys, Run step Permitted System.start [.init (some 0x100000)] sys
      ∧ call sys.state .reserveSlot = .ok (none, sys.state)
      ∧ (sys.state.files 0).enabled = true ∧ (sys.state.files 0).pageCount = 4096 ∧ sys.held 0 = ∅)
    ∧ ∃ ops sys, Run step Permitted System.start (.setPagingFile 0 1 4097 :: ops) sys
      ∧ call sys.state .reserveSlot = .error .index := by
  constructor
  · obtain ⟨sys, hsy⟩ : ∃ sys, step (.init (some 0x100000)) System.start = some sys := ⟨_, rfl⟩
    refine ⟨sys, Run.cons trivial hsy (Run.nil _), ?_⟩
    cases hsy
    exact ⟨rfl, rfl, rfl, rfl⟩
  obtain ⟨sys, hsy⟩ : ∃ sys, step (.setPagingFile 0 1 4097) System.start = some sys := ⟨_, rfl⟩
  have hinv := @step_inv _ _ (.setPagingFile 0 1 4097) start_inv trivial hsy
  obtain ⟨sys', hr, he⟩ := run_to_overrun 4096 hinv (by cases hsy; rfl) (by cases hsy; rfl)
    (by cases hsy; decide) (by cases hsy; rfl)
  exact ⟨_, sys', Run.cons trivial hsy hr, he⟩

end Nt61.Pagefile
