/-
CellAllocator — `registry/cell_allocator.rs`.

Freed cells are joined with their free neighbours. Addition on `u32` stops the program if it
overflows (`none`); the totals are atomics and wrap.
-/
import Nt61.Lib.Align
import Nt61.Lib.Buckets
import Nt61.Lib.Cover
import Nt61.Lib.Run
import Nt61.Registry.Hive
import Mathlib.Data.List.AList

namespace Nt61.Registry

open Lib Lib.Checked Lib.Buckets List

/-! ## Cells and sizes -/

def MIN_CELL_SIZE : Nat := 8
def MAX_CELL_SIZE : Nat := 512 * 1024
def CELL_ALIGNMENT : Nat := 8
def FREE_LIST_BUCKETS : Nat := 32

structure FreeCell where
  offset : Nat
  size : Nat
  deriving DecidableEq, Repr

/-- The loop of the source halves `size` until it is `1` and counts: the logarithm. -/
def sizeToBucket (size : Nat) : Nat :=
  if size ≤ 64 then 0
  else if size ≤ 128 then 1
  else if size ≤ 256 then 2
  else if size ≤ 512 then 3
  else min (Nat.log2 size - 9) (FREE_LIST_BUCKETS - 1)

lemma sizeToBucket_lt (size : Nat) : sizeToBucket size < FREE_LIST_BUCKETS := by
  unfold sizeToBucket FREE_LIST_BUCKETS
  repeat' split
  all_goals omega

def fetchAdd (total n : Nat) : Nat := (total + n) % 2 ^ 32

def fetchSub (total n : Nat) : Nat := (total + (2 ^ 32 - n % 2 ^ 32)) % 2 ^ 32

/-! ## The allocator -/

structure CellAllocator where
  freeLists : List (List FreeCell)
  allocated : AList fun _ : Nat => Nat
  totalAllocated : Nat
  totalFree : Nat
  nextOffset : Nat
  maxSize : Nat

namespace CellAllocator

def new (initialSize maxSize : Nat) : CellAllocator where
  freeLists := List.replicate FREE_LIST_BUCKETS []
  allocated := ∅
  totalAllocated := 0
  totalFree := 0
  nextOffset := initialSize
  maxSize := maxSize

variable (a : CellAllocator)

/-- The first loop of `coalesce_free_cell`: join the cell with the free one that ends at it. -/
def coalesceLeft (cell : FreeCell) : Option (FreeCell × CellAllocator) := do
  match ← takeFirst (fun c => (add 32 c.offset c.size).map (· == cell.offset)) a.freeLists with
  | some (prev, rest) =>
    let size ← add 32 cell.size prev.size
    some (⟨prev.offset, size⟩,
      { a with freeLists := rest, totalFree := fetchSub a.totalFree prev.size })
  | none => some (cell, a)

/-- The second loop of `coalesce_free_cell`: join the cell with the free one that starts at its end. -/
def coalesceRight (cell : FreeCell) : Option (FreeCell × CellAllocator) := do
  let nextOffset ← add 32 cell.offset cell.size
  match ← takeFirst (fun c => some (c.offset == nextOffset)) a.freeLists with
  | some (next, rest) =>
    let size ← add 32 cell.size next.size
    some (⟨cell.offset, size⟩,
      { a with freeLists := rest, totalFree := fetchSub a.totalFree next.size })
  | none => some (cell, a)

def coalesceFreeCell (offset size : Nat) : Option (FreeCell × CellAllocator) := do
  let (cell, a) ← a.coalesceLeft ⟨offset, size⟩
  a.coalesceRight cell

def freeCellInternal (offset size : Nat) : Option CellAllocator := do
  let (coalesced, a) ← a.coalesceFreeCell offset size
  some { a with
    freeLists := push (sizeToBucket coalesced.size) coalesced a.freeLists
    totalFree := fetchAdd a.totalFree coalesced.size }

/-- The rest of a cell is freed again, if it is large enough to be a cell. -/
def freeRemainder (cell : FreeCell) (alignedSize remainder : Nat) : Option CellAllocator :=
  if remainder ≥ MIN_CELL_SIZE then do
    let rest ← add 32 cell.offset alignedSize
    a.freeCellInternal rest remainder
  else some a

/-- What `allocate` does with the free cell it has taken out. -/
def serve (cell : FreeCell) (alignedSize : Nat) : Option (Nat × CellAllocator) := do
  let remainder ← sub cell.size alignedSize
  let a ← a.freeRemainder cell alignedSize remainder
  some (cell.offset, { a with
    allocated := a.allocated.insert cell.offset alignedSize
    totalAllocated := fetchAdd a.totalAllocated alignedSize
    totalFree := fetchSub a.totalFree cell.size })

/-- What `allocate` does if no free cell is large enough. -/
def extend (alignedSize : Nat) : Option (Except HiveError Nat × CellAllocator) := do
  let newNext ← add 32 a.nextOffset alignedSize
  if newNext > a.maxSize then some (.error .outOfBounds, a)
  else
    some (.ok a.nextOffset, { a with
      nextOffset := newNext
      allocated := a.allocated.insert a.nextOffset alignedSize
      totalAllocated := fetchAdd a.totalAllocated alignedSize })

def allocate (size : Nat) : Option (Except HiveError Nat × CellAllocator) := do
  if size < MIN_CELL_SIZE ∨ size > MAX_CELL_SIZE then some (.error .outOfBounds, a)
  else
    let alignedSize ← alignUp 32 size CELL_ALIGNMENT
    let bucket := sizeToBucket alignedSize
    match ← takeFirst (fun c => some (decide (c.size ≥ alignedSize))) (a.freeLists.drop bucket) with
    | some (cell, rest) =>
      let (offset, a) ← { a with freeLists := a.freeLists.take bucket ++ rest }.serve cell alignedSize
      some (.ok offset, a)
    | none => a.extend alignedSize

def free (offset : Nat) : Option (Except HiveError Unit × CellAllocator) :=
  match a.allocated.lookup offset with
  | none => some (.error .invalidPointer, a)
  | some size => do
    let a ← { a with
      allocated := a.allocated.erase offset
      totalAllocated := fetchSub a.totalAllocated size }.freeCellInternal offset size
    some (.ok (), a)

/-! ## The cells of the hive -/

def freeCells : List FreeCell := a.freeLists.flatten

end CellAllocator

def FreeCell.span (cell : FreeCell) : Span := ⟨cell.offset, cell.size⟩

namespace CellAllocator

def freeSpans (a : CellAllocator) : List Span := a.freeCells.map FreeCell.span

def allocatedSpans (a : CellAllocator) : List Span :=
  a.allocated.entries.map fun entry => ⟨entry.1, entry.2⟩

def sizes (spans : List Span) : Nat := (spans.map Span.length).sum

/-- The cells in hand and the free cells tile the hive; the total counts `owed` bytes more than the
free lists hold. -/
structure Parts (initial : Nat) (hand : List Span) (owed : Nat) (a : CellAllocator) : Prop where
  buckets : a.freeLists.length = FREE_LIST_BUCKETS
  tiles : Tiles initial a.nextOffset (hand ++ a.freeSpans)
  aligned : ∀ s ∈ hand ++ a.freeSpans, 8 ∣ s.start ∧ 8 ∣ s.length ∧ 0 < s.length
  apart : ∀ c ∈ a.freeCells, ∀ d ∈ a.freeCells, c.offset + c.size ≠ d.offset
  total : a.totalFree = (sizes a.freeSpans + owed) % 2 ^ 32
  small : a.nextOffset < 2 ^ 32

/-! ## Cells change hands -/

section

variable {initial owed : Nat} {hand : List Span} {a : CellAllocator} {cell : FreeCell}

lemma sizes_perm {spans spans' : List Span} (h : spans.Perm spans') : sizes spans = sizes spans' :=
  (h.map _).sum_eq

lemma sizes_cons (s : Span) (spans : List Span) : sizes (s :: spans) = s.length + sizes spans :=
  sum_cons

section

variable (h : Parts initial hand owed a)
include h

lemma Parts.mem_bounds {s : Span} (hs : s ∈ hand ++ a.freeSpans) :
    initial ≤ s.start ∧ s.start + s.length ≤ a.nextOffset :=
  h.tiles.packed.bounds hs (h.aligned s hs).2.2

lemma Parts.free_bounds {c : FreeCell} (hc : c ∈ a.freeCells) : c.offset + c.size < 2 ^ 32 := by
  have := (h.mem_bounds (mem_append_right hand (mem_map_of_mem hc))).2
  have hsm := h.small
  show c.span.start + c.span.length < _
  omega

lemma Parts.perm {hand' : List Span} (hpm : hand'.Perm hand) : Parts initial hand' owed a where
  buckets := h.buckets
  tiles := h.tiles.congr fun x => cover_perm (hpm.append_right _) x
  aligned s hs := h.aligned s ((hpm.append_right _).mem_iff.mp hs)
  apart := h.apart
  total := h.total
  small := h.small

lemma Parts.take {rest : List (List FreeCell)}
    (hpm : a.freeCells.Perm (cell :: rest.flatten)) (hl : rest.length = a.freeLists.length) :
    Parts initial (cell.span :: hand) (owed + cell.size) { a with freeLists := rest } := by
  have hsp : a.freeSpans.Perm (cell.span :: rest.flatten.map FreeCell.span) := hpm.map _
  have ha : (hand ++ a.freeSpans).Perm (cell.span :: hand ++ rest.flatten.map FreeCell.span) :=
    (hsp.append_left hand).trans perm_middle
  refine ⟨hl.trans h.buckets, ?_, ?_, ?_, ?_, h.small⟩
  · exact h.tiles.congr fun x => (cover_perm ha x).symm
  · exact fun s hs => h.aligned s (ha.mem_iff.mpr hs)
  · exact fun c hc d hd => h.apart c (hpm.mem_iff.mpr (mem_cons_of_mem _ hc)) d
      (hpm.mem_iff.mpr (mem_cons_of_mem _ hd))
  have hsz := sizes_perm hsp
  rw [sizes_cons] at hsz
  show a.totalFree = (sizes (rest.flatten.map FreeCell.span) + (owed + cell.size)) % 2 ^ 32
  rw [h.total, hsz]
  congr 1
  show cell.size + _ + owed = _
  omega

end

lemma Parts.pay {n : Nat} (h : Parts initial hand (owed + n) a) :
    Parts initial hand owed { a with totalFree := fetchSub a.totalFree n } := by
  refine ⟨h.buckets, h.tiles, h.aligned, h.apart, ?_, h.small⟩
  have htt := h.total
  show fetchSub a.totalFree n = (sizes a.freeSpans + owed) % 2 ^ 32
  unfold fetchSub
  omega

lemma Parts.put (h : Parts initial (cell.span :: hand) owed a)
    (hlf : ∀ c ∈ a.freeCells, c.offset + c.size ≠ cell.offset)
    (hrt : ∀ c ∈ a.freeCells, cell.offset + cell.size ≠ c.offset) {i : Nat}
    (hi : i < FREE_LIST_BUCKETS) : Parts initial hand owed { a with
      freeLists := push i cell a.freeLists
      totalFree := fetchAdd a.totalFree cell.size } := by
  have hpm : (push i cell a.freeLists).flatten.Perm (cell :: a.freeCells) :=
    push_perm (h.buckets.symm ▸ hi) cell
  have hsp : ((push i cell a.freeLists).flatten.map FreeCell.span).Perm
      (cell.span :: a.freeSpans) := hpm.map _
  have ha : (hand ++ (push i cell a.freeLists).flatten.map FreeCell.span).Perm
      (cell.span :: hand ++ a.freeSpans) :=
    (hsp.append_left hand).trans perm_middle
  have hp : 0 < cell.size := (h.aligned cell.span mem_cons_self).2.2
  refine ⟨(length_push ..).trans h.buckets, ?_, ?_, ?_, ?_, h.small⟩
  · exact h.tiles.congr fun x => cover_perm ha x
  · exact fun s hs => h.aligned s (ha.mem_iff.mp hs)
  · intro c hc d hd
    rcases mem_cons.mp (hpm.mem_iff.mp hc) with rfl | hc'
    · rcases mem_cons.mp (hpm.mem_iff.mp hd) with rfl | hd'
      · omega
      · exact hrt d hd'
    rcases mem_cons.mp (hpm.mem_iff.mp hd) with rfl | hd'
    · exact hlf c hc'
    · exact h.apart c hc' d hd'
  have hsz := sizes_perm hsp
  have htt := h.total
  show fetchAdd a.totalFree cell.size
    = (sizes ((push i cell a.freeLists).flatten.map FreeCell.span) + owed) % 2 ^ 32
  rw [hsz]
  show (a.totalFree + cell.size) % 2 ^ 32 = (cell.size + sizes a.freeSpans + owed) % 2 ^ 32
  omega

lemma Parts.join {start m n : Nat} (h : Parts initial (⟨start, m⟩ :: ⟨start + m, n⟩ :: hand) owed a) :
    Parts initial (⟨start, m + n⟩ :: hand) owed a := by
  refine ⟨h.buckets, ?_, ?_, h.apart, h.total, h.small⟩
  · exact h.tiles.congr fun x => cover_cut start m n (hand ++ a.freeSpans) x
  intro s hs
  rcases mem_cons.mp hs with rfl | hs
  · have h1 := h.aligned ⟨start, m⟩ mem_cons_self
    have h2 := h.aligned ⟨start + m, n⟩ (mem_cons_of_mem _ mem_cons_self)
    exact ⟨h1.1, Nat.dvd_add h1.2.1 h2.2.1, Nat.add_pos_left h1.2.2 n⟩
  · exact h.aligned s (mem_cons_of_mem _ (mem_cons_of_mem _ hs))

lemma Parts.cut {start m n : Nat} (h : Parts initial (⟨start, m + n⟩ :: hand) owed a)
    (hm : 8 ∣ m) (hmp : 0 < m) (hnp : 0 < n) :
    Parts initial (⟨start, m⟩ :: ⟨start + m, n⟩ :: hand) owed a := by
  have hce := h.aligned ⟨start, m + n⟩ mem_cons_self
  refine ⟨h.buckets, ?_, ?_, h.apart, h.total, h.small⟩
  · exact h.tiles.congr fun x => (cover_cut start m n (hand ++ a.freeSpans) x).symm
  exact forall_mem_cons.mpr ⟨⟨hce.1, hm, hmp⟩, forall_mem_cons.mpr
    ⟨⟨Nat.dvd_add hce.1 hm, (Nat.dvd_add_right hm).mp hce.2.1, hnp⟩,
      (forall_mem_cons.mp h.aligned).2⟩⟩

lemma coalesceLeft_spec (h : Parts initial (cell.span :: hand) owed a) : ∃ cell' lists total,
      a.coalesceLeft cell = some (cell', { a with freeLists := lists, totalFree := total }) ∧
      Parts initial (cell'.span :: hand) owed { a with freeLists := lists, totalFree := total } ∧
      ∀ c ∈ lists.flatten, c.offset + c.size ≠ cell'.offset := by
  have ht : ∀ c ∈ a.freeLists.flatten,
      (add 32 c.offset c.size).map (· == cell.offset) = some (c.offset + c.size == cell.offset) := by
    intro c hc
    rw [add_eq (h.free_bounds hc)]
    rfl
  unfold coalesceLeft
  rcases takeFirst_cases ht with ⟨hn, ha⟩ | ⟨prev, rest, hso, hpv, hpm, hl⟩
  · rw [hn]
    exact ⟨cell, a.freeLists, a.totalFree, rfl, h, fun c hc => by simpa using ha c hc⟩
  rw [beq_iff_eq] at hpv
  have hprevMem : prev ∈ a.freeCells := hpm.mem_iff.mpr mem_cons_self
  have htk := (h.take hpm hl).pay
  -- the neighbour ends where the cell starts: they are one
  have hjn : Parts initial (⟨prev.offset, prev.size + cell.size⟩ :: hand) owed
      { a with freeLists := rest, totalFree := fetchSub a.totalFree prev.size } := by
    apply Parts.join
    rw [hpv]
    exact htk
  have hbd := (hjn.mem_bounds mem_cons_self).2
  have hsm := h.small
  have hsz : cell.size + prev.size < 2 ^ 32 := by
    have : prev.offset + (prev.size + cell.size) ≤ a.nextOffset := hbd
    omega
  refine ⟨⟨prev.offset, cell.size + prev.size⟩, rest, fetchSub a.totalFree prev.size, ?_, ?_, ?_⟩
  · rw [hso]
    show (add 32 cell.size prev.size).bind _ = _
    rw [add_eq hsz]
    rfl
  · rw [Nat.add_comm cell.size]
    exact hjn
  · exact fun c hc => h.apart c (hpm.mem_iff.mpr (mem_cons_of_mem _ hc)) prev hprevMem

lemma coalesceRight_spec (h : Parts initial (cell.span :: hand) owed a)
    (hlf : ∀ c ∈ a.freeCells, c.offset + c.size ≠ cell.offset) : ∃ cell' lists total,
      a.coalesceRight cell = some (cell', { a with freeLists := lists, totalFree := total }) ∧
      Parts initial (cell'.span :: hand) owed { a with freeLists := lists, totalFree := total } ∧
      (∀ c ∈ lists.flatten, c.offset + c.size ≠ cell'.offset) ∧
      ∀ c ∈ lists.flatten, cell'.offset + cell'.size ≠ c.offset := by
  have hsm := h.small
  have he : cell.offset + cell.size < 2 ^ 32 := by
    have : cell.offset + cell.size ≤ a.nextOffset := (h.mem_bounds mem_cons_self).2
    omega
  unfold coalesceRight
  rw [add_eq he]
  show ∃ cell' lists total, (takeFirst (fun c => some (c.offset == cell.offset + cell.size))
    a.freeLists).bind _ = _ ∧ _
  rcases takeFirst_cases (q := fun c : FreeCell => c.offset == cell.offset + cell.size)
    (fun c _ => rfl) with ⟨hn, ha⟩ | ⟨next, rest, hso, hnx, hpm, hl⟩
  · rw [hn]
    refine ⟨cell, a.freeLists, a.totalFree, rfl, h, hlf, fun c hc heq => ?_⟩
    simpa [heq] using ha c hc
  rw [beq_iff_eq] at hnx
  have hnextMem : next ∈ a.freeCells := hpm.mem_iff.mpr mem_cons_self
  have htk := (h.take hpm hl).pay
  have hjn : Parts initial (⟨cell.offset, cell.size + next.size⟩ :: hand) owed
      { a with freeLists := rest, totalFree := fetchSub a.totalFree next.size } := by
    apply Parts.join
    rw [← hnx]
    exact htk.perm (.swap _ _ _)
  have hbd : cell.offset + (cell.size + next.size) ≤ a.nextOffset :=
    (hjn.mem_bounds mem_cons_self).2
  have hr : ∀ {c : FreeCell}, c ∈ rest.flatten → c ∈ a.freeCells := fun hc =>
    hpm.mem_iff.mpr (mem_cons_of_mem _ hc)
  refine ⟨⟨cell.offset, cell.size + next.size⟩, rest, fetchSub a.totalFree next.size, ?_, hjn,
    fun c hc => hlf c (hr hc), fun c hc => ?_⟩
  · rw [hso]
    show (add 32 cell.size next.size).bind _ = _
    rw [add_eq (by omega)]
    rfl
  have := h.apart next hnextMem c (hr hc)
  show cell.offset + (cell.size + next.size) ≠ c.offset
  omega

lemma freeCellInternal_spec {offset size : Nat} (h : Parts initial (⟨offset, size⟩ :: hand) owed a) :
    ∃ lists total,
      a.freeCellInternal offset size = some { a with freeLists := lists, totalFree := total } ∧
      Parts initial hand owed { a with freeLists := lists, totalFree := total } := by
  have hce : Parts initial (FreeCell.span ⟨offset, size⟩ :: hand) owed a := h
  obtain ⟨cell1, _, _, heq1, h1, hleft1⟩ := coalesceLeft_spec hce
  obtain ⟨cell2, _, _, heq2, h2, hleft2, hright2⟩ := coalesceRight_spec h1 hleft1
  have hpt := h2.put hleft2 hright2 (sizeToBucket_lt cell2.size)
  refine ⟨_, _, ?_, hpt⟩
  unfold freeCellInternal coalesceFreeCell
  rw [heq1]
  show (coalesceRight _ cell1).bind _ = _
  rw [heq2]
  rfl

end

/-! ## The calls -/

/-- The state between two calls. -/
structure Sound (initial : Nat) (a : CellAllocator) : Prop where
  parts : Parts initial a.allocatedSpans 0 a
  totalAllocated : a.totalAllocated = sizes a.allocatedSpans % 2 ^ 32
  start : initial ≤ a.nextOffset
  room : a.nextOffset ≤ a.maxSize
  limit : a.maxSize + MAX_CELL_SIZE < 2 ^ 32

lemma sound_new {initial maxSize : Nat} (hle : initial ≤ maxSize)
    (hlm : maxSize + MAX_CELL_SIZE < 2 ^ 32) : Sound initial (new initial maxSize) := by
  refine ⟨⟨rfl, ?_, ?_, ?_, ?_, ?_⟩, rfl, le_refl _, hle, hlm⟩
  · exact tiles_nil initial
  · intro s hs
    cases hs
  · intro c hc
    cases hc
  · rfl
  · show initial < 2 ^ 32
    omega

section

variable {initial owed : Nat} {a : CellAllocator}

lemma Parts.notMem_allocated {offset size : Nat}
    (h : Parts initial (⟨offset, size⟩ :: a.allocatedSpans) owed a) : offset ∉ a.allocated := by
  intro hm
  obtain ⟨size', hen⟩ := exists_of_mem_keys (AList.mem_keys.mp hm)
  have hsn : (⟨offset, size'⟩ : Span) ∈ a.allocatedSpans := mem_map.mpr ⟨⟨offset, size'⟩, hen, rfl⟩
  have hm' : (⟨offset, size'⟩ : Span) ∈ a.allocatedSpans ++ a.freeSpans := mem_append_left _ hsn
  have hp : 0 < size := (h.aligned _ mem_cons_self).2.2
  have hp' : 0 < size' := (h.aligned _ (mem_cons_of_mem _ hm')).2.2
  have hap : offset + size ≤ offset ∨ offset + size' ≤ offset :=
    Packed.apart h.tiles.packed hm' hp hp'
  omega

lemma Sound.of_insert {offset size : Nat}
    (h : Parts initial (⟨offset, size⟩ :: a.allocatedSpans) 0 a)
    (htt : a.totalAllocated = sizes a.allocatedSpans % 2 ^ 32) (hs0 : initial ≤ a.nextOffset)
    (hro : a.nextOffset ≤ a.maxSize) (hlm : a.maxSize + MAX_CELL_SIZE < 2 ^ 32) :
    Sound initial { a with
      allocated := a.allocated.insert offset size
      totalAllocated := fetchAdd a.totalAllocated size } := by
  have hsp : CellAllocator.allocatedSpans { a with
      allocated := a.allocated.insert offset size
      totalAllocated := fetchAdd a.totalAllocated size } = ⟨offset, size⟩ :: a.allocatedSpans := by
    unfold allocatedSpans
    rw [AList.entries_insert_of_notMem h.notMem_allocated]
    rfl
  refine ⟨?_, ?_, hs0, hro, hlm⟩
  · rw [hsp]
    exact ⟨h.buckets, h.tiles, h.aligned, h.apart, h.total, h.small⟩
  rw [hsp]
  show (a.totalAllocated + size) % 2 ^ 32 = (size + sizes a.allocatedSpans) % 2 ^ 32
  omega

lemma entries_erase_perm {m : AList fun _ : Nat => Nat} {offset size : Nat}
    (h : m.lookup offset = some size) : m.entries.Perm (⟨offset, size⟩ :: (m.erase offset).entries) := by
  have hen : (⟨offset, size⟩ : Sigma fun _ : Nat => Nat) ∈ m.entries := AList.mem_lookup_iff.mp h
  obtain ⟨size', _, _, -, hl, hkr⟩ := exists_of_kerase (mem_keys_of_mem hen)
  have hsz : size' = size := by
    have hen' : (⟨offset, size'⟩ : Sigma fun _ : Nat => Nat) ∈ m.entries := by
      rw [hl]
      exact mem_append_right _ mem_cons_self
    have hlk := AList.mem_lookup_iff.mpr hen'
    rw [h] at hlk
    exact (Option.some.inj hlk).symm
  subst hsz
  show m.entries.Perm (_ :: List.kerase offset m.entries)
  rw [hkr, hl]
  exact perm_middle

lemma free_spec (h : Sound initial a) (offset : Nat) : (∃ e, a.free offset = some (.error e, a)) ∨
    ∃ a', a.free offset = some (.ok (), a') ∧ Sound initial a' := by
  unfold free
  cases hlk : a.allocated.lookup offset with
  | none => exact .inl ⟨_, rfl⟩
  | some size =>
    obtain ⟨b, hb⟩ : ∃ b : CellAllocator, b = { a with
        allocated := a.allocated.erase offset
        totalAllocated := fetchSub a.totalAllocated size } := ⟨_, rfl⟩
    have hsp : a.allocatedSpans.Perm (⟨offset, size⟩ :: b.allocatedSpans) := by
      rw [hb]
      exact (entries_erase_perm hlk).map _
    have hps := h.parts.perm hsp.symm
    have hps' : Parts initial (⟨offset, size⟩ :: b.allocatedSpans) 0 b := by
      rw [hb] at hps ⊢
      exact ⟨hps.buckets, hps.tiles, hps.aligned, hps.apart, hps.total, hps.small⟩
    obtain ⟨lists, total, hfd, haf⟩ := freeCellInternal_spec hps'
    refine .inr ⟨{ b with freeLists := lists, totalFree := total }, ?_, haf, ?_, ?_, ?_, ?_⟩
    · show (freeCellInternal _ offset size).bind _ = _
      rw [← hb, hfd]
      rfl
    · have hsz := sizes_perm hsp
      have htt := h.totalAllocated
      have hsb : b.totalAllocated = fetchSub a.totalAllocated size := by rw [hb]
      rw [hsb, htt, hsz]
      show ((size + sizes b.allocatedSpans) % 2 ^ 32 + (2 ^ 32 - size % 2 ^ 32)) % 2 ^ 32
        = sizes b.allocatedSpans % 2 ^ 32
      omega
    · rw [hb]
      exact h.start
    · rw [hb]
      exact h.room
    · rw [hb]
      exact h.limit

lemma serve_spec {cell : FreeCell} {alignedSize : Nat}
    (h : Parts initial (cell.span :: a.allocatedSpans) cell.size a)
    (htt : a.totalAllocated = sizes a.allocatedSpans % 2 ^ 32) (hs0 : initial ≤ a.nextOffset)
    (hro : a.nextOffset ≤ a.maxSize) (hlm : a.maxSize + MAX_CELL_SIZE < 2 ^ 32)
    (hfi : alignedSize ≤ cell.size) (hal : 8 ∣ alignedSize) (hp : 0 < alignedSize) :
    ∃ a', a.serve cell alignedSize = some (cell.offset, a') ∧ Sound initial a' := by
  have hce : 8 ∣ cell.offset ∧ 8 ∣ cell.size ∧ 0 < cell.size := h.aligned _ mem_cons_self
  have hbd : cell.offset + cell.size ≤ a.nextOffset := (h.mem_bounds mem_cons_self).2
  unfold serve
  rw [sub_eq hfi]
  by_cases hr : cell.size - alignedSize ≥ MIN_CELL_SIZE
  · have hct : Parts initial
        (⟨cell.offset, alignedSize⟩ :: ⟨cell.offset + alignedSize, cell.size - alignedSize⟩ ::
          a.allocatedSpans) cell.size a := by
      refine Parts.cut ?_ hal hp (lt_of_lt_of_le (by decide) hr)
      rw [Nat.add_sub_cancel' hfi]
      exact h
    obtain ⟨lists, total, hfd, haf⟩ := freeCellInternal_spec (hct.perm (.swap _ _ _))
    rw [← Nat.zero_add cell.size] at haf
    refine ⟨_, ?_, Sound.of_insert
      (a := { a with freeLists := lists, totalFree := fetchSub total cell.size })
      haf.pay htt hs0 hro hlm⟩
    have hfreeRest : a.freeRemainder cell alignedSize (cell.size - alignedSize)
        = some { a with freeLists := lists, totalFree := total } := by
      unfold freeRemainder
      rw [if_pos hr, add_eq (by omega)]
      exact hfd
    show (freeRemainder a _ _ _).bind _ = _
    rw [hfreeRest]
    rfl
  -- sizes are multiples of 8, so nothing is left
  have hex : alignedSize = cell.size := by
    unfold MIN_CELL_SIZE at hr
    omega
  have hce : Parts initial (⟨cell.offset, alignedSize⟩ :: a.allocatedSpans) (0 + cell.size) a := by
    rw [Nat.zero_add, hex]
    exact h
  refine ⟨_, ?_, Sound.of_insert (a := { a with totalFree := fetchSub a.totalFree cell.size })
    hce.pay htt hs0 hro hlm⟩
  show (freeRemainder a _ _ _).bind _ = _
  unfold freeRemainder
  rw [if_neg hr]
  rfl

lemma extend_spec (h : Sound initial a) {alignedSize : Nat} (hal : 8 ∣ alignedSize)
    (hp : 0 < alignedSize) (hmx : alignedSize ≤ MAX_CELL_SIZE) (hnx : 8 ∣ a.nextOffset) :
    (∃ e, a.extend alignedSize = some (.error e, a)) ∨
    ∃ a', a.extend alignedSize = some (.ok a.nextOffset, a') ∧ Sound initial a' := by
  have hro := h.room
  have hlm := h.limit
  have hsm : a.nextOffset + alignedSize < 2 ^ 32 := by omega
  unfold extend
  rw [add_eq hsm]
  by_cases hfl : a.nextOffset + alignedSize > a.maxSize
  · exact .inl ⟨.outOfBounds, if_pos hfl⟩
  have hps : Parts initial (⟨a.nextOffset, alignedSize⟩ :: a.allocatedSpans) 0
      { a with nextOffset := a.nextOffset + alignedSize } := by
    exact ⟨h.parts.buckets, h.parts.tiles.extend h.start alignedSize,
      forall_mem_cons.mpr ⟨⟨hnx, hal, hp⟩, h.parts.aligned⟩, h.parts.apart,
      h.parts.total, hsm⟩
  exact .inr ⟨_, if_neg hfl, Sound.of_insert
    (a := { a with nextOffset := a.nextOffset + alignedSize }) hps h.totalAllocated
    (Nat.le_add_right_of_le h.start) (Nat.not_lt.mp hfl) hlm⟩

lemma Sound.dvd_next (h : Sound initial a) (hin : 8 ∣ initial) : 8 ∣ a.nextOffset := by
  rcases Nat.eq_or_lt_of_le h.start with heq | hlt
  · rwa [← heq]
  -- the cell that holds the last byte ends there
  have hla : 0 < cover (a.allocatedSpans ++ a.freeSpans) (a.nextOffset - 1) := by
    rw [h.parts.tiles, if_pos (by omega)]
    exact Nat.one_pos
  obtain ⟨s, hs, hm⟩ := cover_pos_iff.mp hla
  have hbn := h.parts.mem_bounds hs
  have hal := h.parts.aligned s hs
  rw [Span.mem_def] at hm
  have he : s.start + s.length = a.nextOffset := by omega
  rw [← he]
  exact Nat.dvd_add hal.1 hal.2.1

lemma allocate_spec (h : Sound initial a) (hin : 8 ∣ initial) (size : Nat) :
    (∃ e, a.allocate size = some (.error e, a)) ∨
    ∃ offset a', a.allocate size = some (.ok offset, a') ∧ Sound initial a' := by
  unfold allocate
  by_cases hsz : size < MIN_CELL_SIZE ∨ size > MAX_CELL_SIZE
  · rw [if_pos hsz]
    exact .inl ⟨_, rfl⟩
  rw [if_neg hsz]
  unfold MIN_CELL_SIZE MAX_CELL_SIZE at hsz
  obtain ⟨alignedSize, hal, _, _, hdv⟩ :=
    alignUp_eq (show 3 ≤ 32 by decide) (show size + 2 ^ 3 < 2 ^ 32 by omega)
  have hmx : alignedSize ≤ MAX_CELL_SIZE := by
    unfold MAX_CELL_SIZE
    omega
  rw [show alignUp 32 size CELL_ALIGNMENT = some alignedSize from hal]
  show (∃ e, (takeFirst _ (a.freeLists.drop (sizeToBucket alignedSize))).bind _ = _) ∨
    ∃ offset a', (takeFirst _ (a.freeLists.drop (sizeToBucket alignedSize))).bind _ = _ ∧ _
  rcases takeFirst_drop_cases (q := fun c : FreeCell => decide (c.size ≥ alignedSize))
    (sizeToBucket alignedSize) (fun c _ => rfl) with hn | ⟨cell, rest, hso, hfi, hpm, hl⟩
  · rw [hn]
    rcases extend_spec h hdv (by omega) hmx (h.dvd_next hin) with he | ⟨a', hok, ha'⟩
    · exact .inl he
    · exact .inr ⟨_, a', hok, ha'⟩
  rw [hso]
  have htk := h.parts.take hpm hl
  rw [Nat.zero_add] at htk
  obtain ⟨a', hsv, ha'⟩ := serve_spec
    (a := { a with freeLists := a.freeLists.take (sizeToBucket alignedSize) ++ rest })
    htk h.totalAllocated h.start h.room h.limit
    (of_decide_eq_true hfi) hdv (by omega)
  refine .inr ⟨cell.offset, a', ?_, ha'⟩
  show (serve _ cell alignedSize).bind _ = _
  rw [hsv]
  rfl

end

inductive Call where
  | allocate (size : Nat)
  | free (offset : Nat)
  deriving DecidableEq, Repr

def call : Call → CellAllocator → Option (Except HiveError (Option Nat) × CellAllocator)
  | .allocate size, a => (a.allocate size).map fun r => (r.1.map some, r.2)
  | .free offset, a => (a.free offset).map fun r => (r.1.map fun _ => none, r.2)

def step (c : Call) (a : CellAllocator) : Option CellAllocator := (call c a).map Prod.snd

lemma call_spec {initial : Nat} {a : CellAllocator} (h : Sound initial a) (hin : 8 ∣ initial)
    (c : Call) : ∃ answer a', call c a = some (answer, a') ∧ Sound initial a' ∧
      ∀ e, answer = .error e → a' = a := by
  cases c with
  | allocate size =>
    show ∃ answer a', (a.allocate size).map _ = _ ∧ _
    rcases allocate_spec h hin size with ⟨e, he⟩ | ⟨offset, a', hok, ha'⟩
    · rw [he]
      exact ⟨_, a, rfl, h, fun _ _ => rfl⟩
    · rw [hok]
      exact ⟨_, a', rfl, ha', nofun⟩
  | free offset =>
    show ∃ answer a', (a.free offset).map _ = _ ∧ _
    rcases free_spec h offset with ⟨e, he⟩ | ⟨a', hok, ha'⟩
    · rw [he]
      exact ⟨_, a, rfl, h, fun _ _ => rfl⟩
    · rw [hok]
      exact ⟨_, a', rfl, ha', nofun⟩

lemma execute_sound {initial : Nat} (hin : 8 ∣ initial) (calls : List Call)
    {a : CellAllocator} (h : Sound initial a) :
    ∃ a', execute step calls a = some a' ∧ Sound initial a' := by
  induction calls generalizing a with
  | nil => exact ⟨a, rfl, h⟩
  | cons c calls ih =>
    obtain ⟨_, a1, hca, ha1, -⟩ := call_spec h hin c
    obtain ⟨a', hr, ha'⟩ := ih ha1
    refine ⟨a', ?_, ha'⟩
    have hs : step c a = some a1 := by
      unfold step
      rw [hca]
      rfl
    show (step c a).bind _ = _
    rw [hs]
    exact hr

/-- No call stops the program. After any calls the allocated and the free cells tile the hive from
its initial size on to `next_offset`; no two free cells are neighbours; the totals are the sums of
the sizes; and a call that fails changes nothing. -/
theorem cells_tile_the_hive {initial maxSize : Nat} (hinitial : 8 ∣ initial)
    (hle : initial ≤ maxSize) (hlimit : maxSize + MAX_CELL_SIZE < 2 ^ 32) (calls : List Call) :
    ∃ a, execute step calls (new initial maxSize) = some a ∧
      (a.allocatedSpans ++ a.freeSpans).Pairwise Span.Disjoint ∧
      (∀ x, (∃ s ∈ a.allocatedSpans ++ a.freeSpans, x ∈ s) ↔ initial ≤ x ∧ x < a.nextOffset) ∧
      (∀ c ∈ a.freeCells, ∀ d ∈ a.freeCells, c.offset + c.size ≠ d.offset) ∧
      (∀ s ∈ a.allocatedSpans ++ a.freeSpans, 8 ∣ s.start ∧ 8 ∣ s.length) ∧
      a.totalAllocated = sizes a.allocatedSpans ∧ a.totalFree = sizes a.freeSpans ∧
      ∀ c, ∃ answer a', call c a = some (answer, a') ∧ ∀ e, answer = .error e → a' = a := by
  obtain ⟨a, hr, h⟩ := execute_sound hinitial calls (sound_new hle hlimit)
  have htl := tiles_iff.mp h.parts.tiles
  have hsu : sizes a.allocatedSpans + sizes a.freeSpans < 2 ^ 32 := by
    have hle := h.parts.tiles.packed.sum_le fun s hs => (h.parts.aligned s hs).2.2
    rw [map_append, sum_append] at hle
    have hsm := h.parts.small
    have hle' : sizes a.allocatedSpans + sizes a.freeSpans ≤ a.nextOffset - initial := hle
    omega
  refine ⟨a, hr, htl.1, htl.2, h.parts.apart,
    fun s hs => ⟨(h.parts.aligned s hs).1, (h.parts.aligned s hs).2.1⟩, ?_, ?_, fun c => ?_⟩
  · rw [h.totalAllocated, Nat.mod_eq_of_lt (by omega)]
  · rw [h.parts.total, Nat.add_zero, Nat.mod_eq_of_lt (by omega)]
  · obtain ⟨answer, a', hca, -, hfl⟩ := call_spec h hinitial c
    exact ⟨answer, a', hca, hfl⟩

theorem cells_tile_the_hive_reuse :
    (execute step [.allocate 20, .allocate 100, .allocate 8, .free 4120, .allocate 30]
      (new 4096 8192)).map (fun a => (a.allocatedSpans, a.freeSpans, a.nextOffset))
      = some ([⟨4120, 32⟩, ⟨4224, 8⟩, ⟨4096, 24⟩], [⟨4152, 72⟩], 4232) ∧
    ∃ a, execute step [.allocate 20, .allocate 100, .allocate 8, .free 4120, .allocate 30]
        (new 4096 8192) = some a ∧ (a.allocatedSpans ++ a.freeSpans).Pairwise Span.Disjoint := by
  refine ⟨by decide +kernel, ?_⟩
  obtain ⟨a, hr, hds, -⟩ := @cells_tile_the_hive 4096 8192 (by decide) (by decide) (by decide)
    [.allocate 20, .allocate 100, .allocate 8, .free 4120, .allocate 30]
  exact ⟨a, hr, hds⟩

/-- **Fragmentation is bounded**: after any calls there is at most one free cell more than there are
allocated ones. -/
theorem fragmentation_bounded {initial maxSize : Nat} (hinitial : 8 ∣ initial)
    (hle : initial ≤ maxSize) (hlimit : maxSize + MAX_CELL_SIZE < 2 ^ 32) (calls : List Call) :
    ∃ a, execute step calls (new initial maxSize) = some a
      ∧ a.freeSpans.length ≤ a.allocatedSpans.length + 1 := by
  obtain ⟨a, hr, h⟩ := execute_sound hinitial calls (sound_new hle hlimit)
  refine ⟨a, hr, h.parts.tiles.length_le (fun s hs => (h.parts.aligned s hs).2.2) ?_⟩
  simpa [freeSpans, FreeCell.span] using h.parts.apart

theorem fragmentation_bounded_freed : ∃ a,
    execute step [.allocate 20, .allocate 8, .free 4096] (new 4096 8192) = some a
      ∧ a.freeSpans.length ≤ a.allocatedSpans.length + 1 :=
  fragmentation_bounded (by decide) (by decide) (by decide) _

end CellAllocator

end Nt61.Registry
