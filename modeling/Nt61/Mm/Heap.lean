/-
Heap — the kernel heap of `mm/heap.rs`.

A bump allocator with a free list that lives in the freed blocks. Memory is a map from addresses to
8-byte words: a free block starts with its size and the address of the next one, an allocation is
preceded by a magic number and the size of its block. An overflow or an endless loop is `none`.
-/
import Nt61.Lib.Align
import Nt61.Lib.Intrusive
import Nt61.Lib.Run
import Mathlib.Algebra.Group.Action.Defs

namespace Nt61.Heap

open Lib Lib.Checked Lib.Intrusive Function List Option Nat Span

/-! ## The heap and its free list -/

/-- `core::alloc::Layout`: the alignment is a power of two, and the size rounded up to it is at most
`isize::MAX`. -/
structure Layout where
  size : Nat
  alignLog : Nat
  fits : size + 2 ^ alignLog ≤ 2 ^ 63
  deriving DecidableEq

def Layout.align (layout : Layout) : Nat := 2 ^ layout.alignLog

def MAGIC : Nat := 0x4e54363148454150

def HEADER_SIZE : Nat := 16

def FREE_BLOCK_SIZE : Nat := 16

structure KernelHeap where
  base : Nat
  size : Nat
  next : Nat
  initialized : Bool
  freeListHead : Nat
  mem : Nat → Nat

namespace KernelHeap

def new (mem : Nat → Nat) : KernelHeap := ⟨0, 0, 0, false, 0, mem⟩

variable (h : KernelHeap)

def configure (base size : Nat) : KernelHeap :=
  { h with base := base, size := size, next := base, initialized := true }

/-- More blocks than this do not fit, so a loop over the free list that takes longer never ends. -/
def rounds : Nat := h.size / 16 + 1

/-- The free list goes on at `next` after the block `prev`. -/
def relinked (prev next : Nat) : KernelHeap :=
  { h with
    freeListHead := (relink h.mem h.freeListHead prev next).1
    mem := (relink h.mem h.freeListHead prev next).2 }

/-- A free block that ends where the freed one starts, or starts where it ends: the two as one. -/
def adjacent (addr size cur curSize : Nat) : Option (Option (Nat × Nat)) := do
  let curEnd ← add 64 cur curSize
  if curEnd = addr then (add 64 size curSize).map fun merged => some (cur, merged)
  else do
    let blockEnd ← add 64 addr size
    if blockEnd = cur then (add 64 size curSize).map fun merged => some (addr, merged)
    else some none

/-- The outer loop of `add_to_free_list`: absorb neighbours until a pass finds none. -/
def merge : Nat → KernelHeap → Nat → Nat → Option (KernelHeap × Nat × Nat)
  | 0, _, _, _ => none
  | rounds + 1, h, addr, size => do
    match ← scan h.mem (adjacent addr size) h.rounds 0 h.freeListHead with
    | none => some (h, addr, size)
    | some (prev, next, addr, size) => merge rounds (h.relinked prev next) addr size

/-- `FreeBlock::new` and the two stores that put the block in front of the list. -/
def prepend (addr size : Nat) : KernelHeap :=
  { h with
    mem := update (update h.mem addr size) (addr + 8) h.freeListHead
    freeListHead := addr }

def addToFreeList (blockAddr size : Nat) : Option KernelHeap := do
  let (h, addr, size) ← merge h.rounds h blockAddr size
  let blockEnd ← add 64 addr size
  if blockEnd = h.next then some { h with next := addr } else some (h.prepend addr size)

/-! ## Allocation and release -/

/-- The block is large enough and smaller than the best one so far. -/
def better (neededSize : Nat) (best : Nat × Nat × Nat) (prev cur curSize : Nat) : Nat × Nat × Nat :=
  if curSize ≥ neededSize ∧ curSize < best.2.2 then (prev, cur, curSize) else best

/-- The smallest block that is large enough, with the block before it and its size. -/
def bestFit (neededSize : Nat) : Option (Nat × Nat × Nat) :=
  foldBlocks h.mem (better neededSize) h.rounds 0 h.freeListHead (0, 0, 2 ^ 64 - 1)

/-- A gap goes to the free list if it can hold a free block; a smaller one is lost. -/
def giveBack (addr size : Nat) : Option KernelHeap :=
  if size ≥ FREE_BLOCK_SIZE then h.addToFreeList addr size else some h

def giveBackRest (remaining blockEnd allocationEnd : Nat) : Option KernelHeap :=
  if remaining ≥ FREE_BLOCK_SIZE then do
    let remainingAddr ← alignUp 64 allocationEnd 8
    let remainingSize ← sub blockEnd remainingAddr
    h.giveBack remainingAddr remainingSize
  else some h

def writeHeader (headerAddr blockSize : Nat) : KernelHeap :=
  { h with mem := update (update h.mem headerAddr MAGIC) (headerAddr + 8) blockSize }

def placeIn (blockAddr blockSize alignment allocationSize : Nat) : Option (Nat × KernelHeap) := do
  let afterHeader ← add 64 blockAddr HEADER_SIZE
  let alignedAddr ← alignUp 64 afterHeader alignment
  let headerAddr ← sub alignedAddr HEADER_SIZE
  let blockEnd ← add 64 blockAddr blockSize
  let leftover ← sub headerAddr blockAddr
  let h ← h.giveBack blockAddr leftover
  let allocationEnd ← add 64 alignedAddr allocationSize
  let usedSize ← sub allocationEnd headerAddr
  let usedEnd ← add 64 headerAddr usedSize
  let remaining ← sub blockEnd usedEnd
  let h ← h.giveBackRest remaining blockEnd allocationEnd
  some (alignedAddr, h.writeHeader headerAddr usedSize)

def allocFromFreeList (layout : Layout) : Option (Option Nat × KernelHeap) := do
  let allocationSize ← alignUp 64 layout.size 8
  let alignment := max layout.align 8
  let withHeader ← add 64 HEADER_SIZE allocationSize
  let neededSize ← add 64 withHeader (alignment - 1)
  let (bestPrev, best, bestSize) ← h.bestFit neededSize
  if best = 0 then some (none, h)
  else do
    let (ptr, h) ←
      (h.relinked bestPrev (h.mem (best + 8))).placeIn best bestSize alignment allocationSize
    some (some ptr, h)

/-- The bump allocator; the lock is held, so `compare_exchange` succeeds at once. -/
def bump (layout : Layout) : Option (Nat × KernelHeap) := do
  let afterHeader ← add 64 h.next HEADER_SIZE
  let aligned ← alignUp 64 afterHeader (max layout.align 8)
  let allocationSize ← alignUp 64 layout.size 8
  let allocationEnd ← add 64 aligned allocationSize
  let newNext ← alignUp 64 allocationEnd 8
  let heapEnd ← add 64 h.base h.size
  if newNext > heapEnd then some (0, h)
  else do
    let headerAddr ← sub aligned HEADER_SIZE
    let blockSize ← sub newNext headerAddr
    some (aligned, { h with next := newNext }.writeHeader headerAddr blockSize)

/-- `alloc`; the null pointer is `0`. -/
def alloc (layout : Layout) : Option (Nat × KernelHeap) :=
  if !h.initialized ∨ h.base = 0 ∨ h.size = 0 then some (0, h)
  else do
    match ← h.allocFromFreeList layout with
    | (some ptr, h) => some (ptr, h)
    | (none, h) => h.bump layout

def isInHeapRange (ptr size : Nat) : Option Bool := do
  let heapEnd ← add 64 h.base h.size
  if ptr ≥ h.base then (add 64 ptr size).map fun ptrEnd => decide (ptrEnd ≤ heapEnd)
  else some false

/-- `dealloc` behind its test of the pointer. -/
def release (headerAddr : Nat) : Option KernelHeap :=
  let magic := h.mem headerAddr
  let blockSize := h.mem (headerAddr + 8)
  if magic ≠ MAGIC ∨ blockSize < FREE_BLOCK_SIZE then some h
  else do
    match ← h.isInHeapRange headerAddr blockSize with
    | false => some h
    | true => h.addToFreeList headerAddr blockSize

def dealloc (ptr : Nat) : Option KernelHeap :=
  if ptr ≠ 0 ∧ ptr ≥ HEADER_SIZE then h.release (ptr - HEADER_SIZE) else some h

end KernelHeap

open KernelHeap

/-! ## The blocks of the heap -/

/-- An allocation that the caller holds. -/
structure Live where
  ptr : Nat
  layout : Layout
  deriving DecidableEq

variable (mem : Nat → Nat)

def Live.block (l : Live) : Span := ⟨l.ptr - 16, mem (l.ptr - 16 + 8)⟩

structure Served (mem : Nat → Nat) (l : Live) : Prop where
  header : 16 ≤ l.ptr
  magic : mem (l.ptr - 16) = MAGIC
  size : 16 + l.layout.size ≤ mem (l.ptr - 16 + 8)
  align : l.layout.align ∣ l.ptr

open Live

/-- The blocks in hand, those of the allocations and the free ones are disjoint and below the bump
pointer; no two free blocks are neighbours and none ends at the bump pointer. -/
structure Parts (hand : List Span) (live : List Live) (free : List Span) (h : KernelHeap) :
    Prop where
  listed : Listed h.mem h.freeListHead free
  packed : Packed h.base h.next (hand ++ (live.map (block h.mem) ++ free))
  aligned : ∀ s ∈ hand ++ (live.map (block h.mem) ++ free),
    8 ∣ s.start ∧ 8 ∣ s.length ∧ 16 ≤ s.length
  apart : ∀ b ∈ free, ∀ c ∈ free, b.start + b.length ≠ c.start
  top : ∀ b ∈ free, b.start + b.length ≠ h.next
  served : ∀ l ∈ live, Served h.mem l
  base_pos : 0 < h.base
  base_le : h.base ≤ h.next
  room : h.next ≤ h.base + h.size
  fits : h.base + h.size < 2 ^ 64
  dvd_next : 8 ∣ h.next

/-! ## Blocks change hands -/

section

variable {hand hand' : List Span} {live : List Live} {free before after : List Span}
  {h : KernelHeap} {b : Span} {l : Live}

section

variable {s : Span} (hp : Parts hand live free h)
  (hs : s ∈ hand ++ (live.map (block h.mem) ++ free))
include hp hs

lemma Parts.bounds : h.base ≤ s.start ∧ s.start + s.length ≤ h.next := by
  have hl := (hp.aligned s hs).2.2
  exact hp.packed.bounds hs (by omega)

lemma Parts.small : s.start + s.length < 2 ^ 64 := by
  have := (hp.bounds hs).2
  have := hp.room
  have := hp.fits
  omega

end

variable {c : Span}

lemma mem_blocks_of_free (hc : c ∈ free) : c ∈ hand ++ (live.map (block h.mem) ++ free) :=
  mem_append_right _ (mem_append_right _ hc)

lemma mem_blocks_of_live (hl : l ∈ live) :
    l.block h.mem ∈ hand ++ (live.map (block h.mem) ++ free) :=
  mem_append_right _ (mem_append_left _ (mem_map_of_mem hl))

section

variable (hp : Parts hand live free h)
include hp

lemma Parts.free_large (hc : c ∈ free) : 16 ≤ c.length := (hp.aligned c (mem_blocks_of_free hc)).2.2

lemma Parts.live_large (hl : l ∈ live) : 16 ≤ h.mem (l.ptr - 16 + 8) :=
  (hp.aligned _ (mem_blocks_of_live hl)).2.2

lemma Parts.length_free_lt : free.length < h.rounds := by
  have hf : Packed h.base h.next free := hp.packed.mono fun x => by
    rw [cover_append, cover_append]
    omega
  have hsm := hf.sum_le fun s hs => by
    have := hp.free_large hs
    omega
  have hl : 16 * free.length ≤ (free.map Span.length).sum := by
    have := card_nsmul_le_sum (free.map Span.length) 16 fun n hn => by
      obtain ⟨s, hs, rfl⟩ := mem_map.mp hn
      exact hp.free_large hs
    rw [length_map, smul_eq_mul] at this
    omega
  have := hp.room
  unfold rounds
  omega

lemma Parts.congr_mem {mem' : Nat → Nat}
    (hf : ∀ c ∈ free, mem' c.start = h.mem c.start ∧ mem' (c.start + 8) = h.mem (c.start + 8))
    (hlv : ∀ l ∈ live, mem' (l.ptr - 16) = h.mem (l.ptr - 16) ∧
      mem' (l.ptr - 16 + 8) = h.mem (l.ptr - 16 + 8)) :
    Parts hand live free { h with mem := mem' } := by
  have hbs : live.map (block mem') = live.map (block h.mem) := by
    refine map_congr_left fun l hl => ?_
    unfold block
    rw [(hlv l hl).2]
  refine ⟨hp.listed.congr hf, ?_, ?_, hp.apart, hp.top, ?_, hp.base_pos, hp.base_le, hp.room,
    hp.fits, hp.dvd_next⟩
  · rw [hbs]
    exact hp.packed
  · rw [hbs]
    exact hp.aligned
  intro l hl
  have hsr := hp.served l hl
  refine ⟨hsr.header, ?_, ?_, hsr.align⟩
  · show mem' (l.ptr - 16) = MAGIC
    rw [(hlv l hl).1]
    exact hsr.magic
  show _ ≤ mem' (l.ptr - 16 + 8)
  rw [(hlv l hl).2]
  exact hsr.size

end

lemma Parts.apart_of_hand (hp : Parts (b :: hand) live free h)
    (hc : c ∈ hand ++ (live.map (block h.mem) ++ free)) :
    b.start + b.length ≤ c.start ∨ c.start + c.length ≤ b.start := by
  have hb := (hp.aligned b mem_cons_self).2.2
  have hl := (hp.aligned c (mem_cons_of_mem _ hc)).2.2
  exact Packed.apart hp.packed hc (by omega) (by omega)

lemma Parts.write (hp : Parts (b :: hand) live free h) {w : Nat} (hw : w ∈ b) (v : Nat) :
    Parts (b :: hand) live free { h with mem := update h.mem w v } := by
  rw [Span.mem_def] at hw
  refine hp.congr_mem (fun c hc => ?_) (fun l hl => ?_)
  · have hln := hp.free_large hc
    have hap := hp.apart_of_hand (mem_blocks_of_free hc)
    exact ⟨update_of_ne (by omega) _ _, update_of_ne (by omega) _ _⟩
  have hln := hp.live_large hl
  have hap : b.start + b.length ≤ l.ptr - 16 ∨ l.ptr - 16 + h.mem (l.ptr - 16 + 8) ≤ b.start :=
    hp.apart_of_hand (mem_blocks_of_live hl)
  exact ⟨update_of_ne (by omega) _ _, update_of_ne (by omega) _ _⟩

lemma Parts.regroup (hp : Parts hand live free h) (hcv : ∀ x, cover hand' x ≤ cover hand x)
    (hal : ∀ s ∈ hand', 8 ∣ s.start ∧ 8 ∣ s.length ∧ 16 ≤ s.length) :
    Parts hand' live free h := by
  refine ⟨hp.listed, hp.packed.mono fun x => ?_, ?_, hp.apart, hp.top, hp.served, hp.base_pos,
    hp.base_le, hp.room, hp.fits, hp.dvd_next⟩
  · rw [cover_append, cover_append hand]
    exact Nat.add_le_add_right (hcv x) _
  intro s hs
  rcases mem_append.mp hs with hs | hs
  · exact hal s hs
  · exact hp.aligned s (mem_append_right _ hs)

lemma Parts.hand_aligned (hp : Parts hand live free h) :
    ∀ s ∈ hand, 8 ∣ s.start ∧ 8 ∣ s.length ∧ 16 ≤ s.length :=
  fun s hs => hp.aligned s (mem_append_left _ hs)

lemma Parts.join {start m n : Nat} (hp : Parts (⟨start, m⟩ :: ⟨start + m, n⟩ :: hand) live free h) :
    Parts (⟨start, m + n⟩ :: hand) live free h := by
  refine hp.regroup (fun x => (cover_cut start m n hand x).le) fun s hs => ?_
  rcases mem_cons.mp hs with rfl | hs
  · have h1 := hp.hand_aligned ⟨start, m⟩ mem_cons_self
    have h2 := hp.hand_aligned ⟨start + m, n⟩ (mem_cons_of_mem _ mem_cons_self)
    exact ⟨h1.1, Nat.dvd_add h1.2.1 h2.2.1, Nat.le_add_right_of_le h1.2.2⟩
  · exact hp.hand_aligned s (mem_cons_of_mem _ (mem_cons_of_mem _ hs))

lemma Parts.wordsApart (hp : Parts hand live free h) : free.Pairwise WordsApart := by
  have hf : free.Pairwise Span.Disjoint := by
    have ha := hp.packed.pairwise
    exact (pairwise_append.mp (pairwise_append.mp ha).2.1).2.1
  refine hf.imp_of_mem fun {c d} hc hd hds => ?_
  have hcl := hp.free_large hc
  have hdl := hp.free_large hd
  have := (disjoint_iff (by omega) (by omega)).mp hds
  unfold WordsApart
  omega

lemma Parts.take (hp : Parts hand live (before ++ b :: after) h) :
    Parts (b :: hand) live (before ++ after)
      (h.relinked (prevOf 0 before) (h.mem (b.start + 8))) := by
  have hsb : ∀ {s : Span}, s ∈ before ++ after → s ∈ before ++ b :: after := fun hs =>
    (perm_middle.mem_iff).mpr (mem_cons_of_mem _ hs)
  -- the headers are not written: the word that is written belongs to a free block
  have hlv : ∀ l ∈ live, (h.relinked (prevOf 0 before) (h.mem (b.start + 8))).mem (l.ptr - 16)
        = h.mem (l.ptr - 16) ∧
      (h.relinked (prevOf 0 before) (h.mem (b.start + 8))).mem (l.ptr - 16 + 8)
        = h.mem (l.ptr - 16 + 8) := by
    intro l hl
    show (relink h.mem h.freeListHead _ _).2 _ = _ ∧ (relink h.mem h.freeListHead _ _).2 _ = _
    unfold relink
    by_cases hpv : prevOf 0 before = 0
    · rw [if_pos hpv]
      exact ⟨rfl, rfl⟩
    rw [if_neg hpv]
    cases before with
    | nil => exact absurd rfl hpv
    | cons c before =>
      obtain ⟨d, hd, heq⟩ := prevOf_mem c before
      have hpv' : prevOf 0 (c :: before) = d.start := heq
      have hdm : d ∈ c :: before ++ b :: after := mem_append_left _ hd
      have hdl := hp.free_large hdm
      have hll := hp.live_large hl
      have hds : (l.block h.mem).Disjoint d :=
        (pairwise_append.mp (pairwise_append.mp hp.packed.pairwise).2.1).2.2 _
          (mem_map_of_mem hl) d hdm
      have hap : l.ptr - 16 + h.mem (l.ptr - 16 + 8) ≤ d.start ∨ d.start + d.length ≤ l.ptr - 16 :=
        (disjoint_iff (show 0 < h.mem (l.ptr - 16 + 8) by omega) (by omega)).mp hds
      exact ⟨update_of_ne (by omega) _ _, update_of_ne (by omega) _ _⟩
  have hbs : live.map (block (h.relinked (prevOf 0 before) (h.mem (b.start + 8))).mem)
      = live.map (block h.mem) := by
    refine map_congr_left fun l hl => ?_
    unfold block
    rw [(hlv l hl).2]
  have hpm : (hand ++ (live.map (block h.mem) ++ (before ++ b :: after))).Perm
      (b :: hand ++ (live.map (block h.mem) ++ (before ++ after))) := by
    have h1 : (live.map (block h.mem) ++ (before ++ b :: after)).Perm
        (b :: (live.map (block h.mem) ++ (before ++ after))) :=
      (perm_middle.append_left _).trans perm_middle
    exact (h1.append_left hand).trans perm_middle
  refine ⟨listed_relink hp.listed hp.wordsApart, ?_, ?_, ?_, ?_, ?_, hp.base_pos, hp.base_le,
    hp.room, hp.fits, hp.dvd_next⟩
  · rw [hbs]
    exact hp.packed.mono fun x => (cover_perm hpm x).ge
  · rw [hbs]
    exact fun s hs => hp.aligned s (hpm.mem_iff.mpr hs)
  · exact fun c hc d hd => hp.apart c (hsb hc) d (hsb hd)
  · exact fun c hc => hp.top c (hsb hc)
  intro l hl
  have hsr := hp.served l hl
  exact ⟨hsr.header, (hlv l hl).1.trans hsr.magic, hsr.size.trans (hlv l hl).2.ge, hsr.align⟩

section

variable (hp : Parts (b :: hand) live free h) (hleft : ∀ c ∈ free, c.start + c.length ≠ b.start)
include hp hleft

lemma Parts.push (hrt : ∀ c ∈ free, b.start + b.length ≠ c.start)
    (htp : b.start + b.length ≠ h.next) :
    Parts hand live (b :: free) (h.prepend b.start b.length) := by
  have hbl := (hp.aligned b mem_cons_self).2.2
  have hwt := (hp.write (w := b.start) (mem_def.mpr ⟨le_refl _, by omega⟩) b.length).write
    (w := b.start + 8) (mem_def.mpr ⟨by omega, by omega⟩) h.freeListHead
  have hf : ∀ c ∈ free, WordsApart b c := by
    intro c hc
    have hcl := hp.free_large hc
    have := hp.apart_of_hand (mem_blocks_of_free hc)
    unfold WordsApart
    omega
  have hb := (hp.bounds mem_cons_self).1
  have hps := hp.base_pos
  have hpm : (b :: hand ++ (live.map (block (h.prepend b.start b.length).mem) ++ free)).Perm
      (hand ++ (live.map (block (h.prepend b.start b.length).mem) ++ b :: free)) :=
    perm_middle.symm.trans (perm_middle.symm.append_left hand)
  refine ⟨listed_cons hp.listed (by omega) hf, ?_, ?_, ?_, ?_, hwt.served, hp.base_pos,
    hp.base_le, hp.room, hp.fits, hp.dvd_next⟩
  · exact hwt.packed.mono fun x => (cover_perm hpm x).ge
  · exact fun s hs => hwt.aligned s (hpm.mem_iff.mpr hs)
  · refine forall_mem_cons.mpr ⟨forall_mem_cons.mpr ⟨by omega, hrt⟩, fun c hc => ?_⟩
    exact forall_mem_cons.mpr ⟨hleft c hc, hp.apart c hc⟩
  · exact forall_mem_cons.mpr ⟨htp, hp.top⟩

lemma Parts.lower (htp : b.start + b.length = h.next) :
    Parts hand live free { h with next := b.start } := by
  have hb := hp.aligned b mem_cons_self
  have hbn := hp.bounds mem_cons_self
  have hro := hp.room
  refine ⟨hp.listed, ?_, fun s hs => hp.aligned s (mem_cons_of_mem _ hs), hp.apart, hleft,
    hp.served, hp.base_pos, hbn.1, ?_, hp.fits, hb.1⟩
  · intro x
    have hx := hp.packed x
    rw [cons_append, cover_cons] at hx
    have hr : cover (hand ++ (live.map (block h.mem) ++ free)) x
        ≤ if h.base ≤ x ∧ x < h.next then 1 else 0 := by omega
    show cover (hand ++ (live.map (block h.mem) ++ free)) x
      ≤ if h.base ≤ x ∧ x < b.start then 1 else 0
    by_cases hin : h.base ≤ x ∧ x < b.start
    · rw [if_pos hin]
      rwa [if_pos (show h.base ≤ x ∧ x < h.next by omega)] at hr
    rw [if_neg hin]
    by_cases hxb : x ∈ b
    · rw [if_pos hxb] at hx
      have hon : (if h.base ≤ x ∧ x < h.next then 1 else 0) ≤ 1 := by split <;> decide
      omega
    · rw [Span.mem_def] at hxb
      rwa [if_neg (show ¬ (h.base ≤ x ∧ x < h.next) by omega)] at hr
  · show b.start ≤ h.base + h.size
    omega

end

/-! ## The free list grows -/

structure SameRegion (h h' : KernelHeap) : Prop where
  base : h'.base = h.base
  size : h'.size = h.size
  initialized : h'.initialized = h.initialized

lemma SameRegion.refl (h : KernelHeap) : SameRegion h h := ⟨rfl, rfl, rfl⟩

lemma SameRegion.trans {h1 h2 h3 : KernelHeap} (h12 : SameRegion h1 h2) (h23 : SameRegion h2 h3) :
    SameRegion h1 h3 :=
  ⟨h23.base.trans h12.base, h23.size.trans h12.size, h23.initialized.trans h12.initialized⟩

lemma SameRegion.relinked (h : KernelHeap) (prev next : Nat) : SameRegion h (h.relinked prev next) :=
  ⟨rfl, rfl, rfl⟩

/-- What `adjacent` finds. -/
def neighbour (addr size : Nat) (c : Span) : Option (Nat × Nat) :=
  if c.start + c.length = addr then some (c.start, size + c.length)
  else if addr + size = c.start then some (addr, size + c.length)
  else none

variable {addr size : Nat}

lemma adjacent_eq (hc : c.start + c.length < 2 ^ 64) (hbl : addr + size < 2 ^ 64) :
    adjacent addr size c.start c.length = some (neighbour addr size c) := by
  unfold adjacent neighbour
  rw [add_eq hc, add_eq hbl]
  show (if c.start + c.length = addr then _ else if addr + size = c.start then _ else _) = _
  by_cases h1 : c.start + c.length = addr
  · rw [if_pos h1, if_pos h1, add_eq (by omega)]
    rfl
  rw [if_neg h1, if_neg h1]
  by_cases h2 : addr + size = c.start
  · rw [if_pos h2, if_pos h2, add_eq (by omega)]
    rfl
  · rw [if_neg h2, if_neg h2]

lemma Parts.absorb {merged : Nat × Nat}
    (hp : Parts (⟨addr, size⟩ :: hand) live (before ++ c :: after) h)
    (hmg : neighbour addr size c = some merged) :
    Parts (⟨merged.1, merged.2⟩ :: hand) live (before ++ after)
      (h.relinked (prevOf 0 before) (h.mem (c.start + 8))) := by
  have htk := hp.take
  unfold neighbour at hmg
  by_cases h1 : c.start + c.length = addr
  · rw [if_pos h1] at hmg
    cases hmg
    rw [← h1] at htk
    rw [add_comm size]
    exact htk.join
  rw [if_neg h1] at hmg
  by_cases h2 : addr + size = c.start
  · rw [if_pos h2] at hmg
    cases hmg
    have hsw : Parts (⟨addr, size⟩ :: ⟨addr + size, c.length⟩ :: hand) live (before ++ after)
        (h.relinked (prevOf 0 before) (h.mem (c.start + 8))) := by
      rw [h2]
      refine htk.regroup (fun x => (cover_perm (.swap _ _ _) x).le) fun s hs => ?_
      exact htk.hand_aligned s ((List.Perm.swap _ _ _).mem_iff.mp hs)
    exact hsw.join
  · rw [if_neg h2] at hmg
    cases hmg

lemma merge_spec {n addr size : Nat} (hp : Parts (⟨addr, size⟩ :: hand) live free h)
    (hn : free.length < n) : ∃ h' addr' size' free', merge n h addr size = some (h', addr', size') ∧
      Parts (⟨addr', size'⟩ :: hand) live free' h' ∧ SameRegion h h' ∧
      (∀ c ∈ free', c.start + c.length ≠ addr') ∧ ∀ c ∈ free', addr' + size' ≠ c.start := by
  induction n generalizing h addr size free with
  | zero => omega
  | succ n ih =>
    have hbl : addr + size < 2 ^ 64 := hp.small mem_cons_self
    have ht : ∀ c ∈ free, adjacent addr size c.start c.length
        = some (neighbour addr size c) := fun c hc =>
      adjacent_eq (hp.small (mem_blocks_of_free hc)) hbl
    rcases scan_listed 0 hp.listed ht hp.length_free_lt with
      ⟨hno, ha⟩ | ⟨before, c, after, merged, rfl, hmd, hso⟩
    · refine ⟨h, addr, size, free, ?_, hp, .refl h, fun c hc heq => ?_, fun c hc heq => ?_⟩
      · rw [KernelHeap.merge, hno]
        rfl
      · have := ha c hc
        unfold neighbour at this
        rw [if_pos heq] at this
        cases this
      have := ha c hc
      unfold neighbour at this
      split at this <;> cases this
    obtain ⟨h', addr', size', free', hmg, hps, hsm, hleft, hrt⟩ :=
      ih (hp.absorb hmd) (by
        rw [length_append, length_cons] at hn
        rw [length_append]
        omega)
    refine ⟨h', addr', size', free', ?_, hps, .trans (.relinked h _ _) hsm, hleft, hrt⟩
    rw [KernelHeap.merge, hso]
    exact hmg

lemma addToFreeList_spec (hp : Parts (⟨addr, size⟩ :: hand) live free h) :
    ∃ h' free', h.addToFreeList addr size = some h' ∧ Parts hand live free' h' ∧
      SameRegion h h' := by
  obtain ⟨h1, addr1, size1, free1, hmg, hps, hsm, hleft, hrt⟩ := merge_spec hp hp.length_free_lt
  have he : addr1 + size1 < 2 ^ 64 := hps.small mem_cons_self
  have hst : h.addToFreeList addr size
      = if addr1 + size1 = h1.next then some { h1 with next := addr1 }
        else some (h1.prepend addr1 size1) := by
    unfold addToFreeList
    rw [hmg]
    show (add 64 addr1 size1).bind _ = _
    rw [add_eq he]
    rfl
  rw [hst]
  by_cases htp : addr1 + size1 = h1.next
  · rw [if_pos htp]
    exact ⟨_, free1, rfl, hps.lower hleft htp, hsm.trans ⟨rfl, rfl, rfl⟩⟩
  rw [if_neg htp]
  exact ⟨_, ⟨addr1, size1⟩ :: free1, rfl, hps.push hleft hrt htp, hsm.trans ⟨rfl, rfl, rfl⟩⟩

/-! ## Allocation and release -/

lemma Parts.rearrange {hand' : List Span} {live' : List Live} (hp : Parts hand live free h)
    (hpm : (hand ++ (live.map (block h.mem) ++ free)).Perm
      (hand' ++ (live'.map (block h.mem) ++ free)))
    (hsr : ∀ l ∈ live', Served h.mem l) : Parts hand' live' free h :=
  { hp with
    packed := hp.packed.mono fun x => (cover_perm hpm x).ge
    aligned := fun s hs => hp.aligned s (hpm.mem_iff.mpr hs)
    served := hsr }

variable (layout : Layout)

lemma Parts.give {headerAddr blockSize : Nat}
    (hp : Parts (⟨headerAddr, blockSize⟩ :: hand) live free h)
    (hsz : 16 + layout.size ≤ blockSize) (hal : layout.align ∣ headerAddr + 16) :
    Parts hand (⟨headerAddr + 16, layout⟩ :: live) free (h.writeHeader headerAddr blockSize) := by
  have hwt := (hp.write (w := headerAddr) (mem_mk.mpr (by omega)) MAGIC).write
    (w := headerAddr + 8) (mem_mk.mpr (by omega)) blockSize
  have hfs : (h.writeHeader headerAddr blockSize).mem headerAddr = MAGIC := by
    show update (update h.mem headerAddr MAGIC) (headerAddr + 8) blockSize headerAddr = MAGIC
    rw [update_of_ne (by omega), update_self]
  have hsn : (h.writeHeader headerAddr blockSize).mem (headerAddr + 8) = blockSize := update_self ..
  have hbl : block (h.writeHeader headerAddr blockSize).mem ⟨headerAddr + 16, layout⟩
      = ⟨headerAddr, blockSize⟩ := by
    unfold block
    rw [Nat.add_sub_cancel, hsn]
  have hpm : (⟨headerAddr, blockSize⟩ :: hand ++
      (live.map (block (h.writeHeader headerAddr blockSize).mem) ++ free)).Perm
      (hand ++ ((⟨headerAddr + 16, layout⟩ :: live).map
        (block (h.writeHeader headerAddr blockSize).mem) ++ free)) := by
    rw [map_cons, hbl]
    exact perm_middle.symm
  refine hwt.rearrange hpm (forall_mem_cons.mpr ⟨⟨Nat.le_add_left _ _, ?_, ?_, hal⟩, hwt.served⟩)
  · exact hfs
  · exact hsz.trans_eq hsn.symm

lemma Parts.comeBack (hp : Parts hand live free h) (hl : l ∈ live) :
    Parts (l.block h.mem :: hand) (live.erase l) free h := by
  have hlv : (live.map (block h.mem)).Perm (l.block h.mem :: (live.erase l).map (block h.mem)) :=
    (perm_cons_erase hl).map _
  have hpm : (hand ++ (live.map (block h.mem) ++ free)).Perm
      (l.block h.mem :: hand ++ ((live.erase l).map (block h.mem) ++ free)) :=
    ((hlv.append_right free).append_left hand).trans perm_middle
  exact hp.rearrange hpm fun m hm => hp.served m (mem_of_mem_erase hm)

lemma giveBack_spec (hand' : List Span) (hp : Parts hand live free h)
    (hcv : ∀ x, cover (⟨addr, size⟩ :: hand') x ≤ cover hand x) (had : 8 ∣ addr)
    (hsz : 8 ∣ size) (hal : ∀ s ∈ hand', 8 ∣ s.start ∧ 8 ∣ s.length ∧ 16 ≤ s.length) :
    ∃ h' free', h.giveBack addr size = some h' ∧ Parts hand' live free' h' ∧ SameRegion h h' := by
  unfold giveBack
  by_cases hlg : size ≥ FREE_BLOCK_SIZE
  · rw [if_pos hlg]
    exact addToFreeList_spec (hp.regroup hcv (forall_mem_cons.mpr ⟨⟨had, hsz, hlg⟩, hal⟩))
  rw [if_neg hlg]
  refine ⟨h, free, rfl, hp.regroup (fun x => ?_) hal, .refl h⟩
  have := hcv x
  rw [cover_cons] at this
  omega

lemma giveBackRest_spec {start used rest : Nat} (hp : Parts [⟨start, used + rest⟩] live free h)
    (hus : 8 ∣ used) (hl : 16 ≤ used) (hr : 8 ∣ rest) :
    ∃ h' free', h.giveBackRest rest (start + (used + rest)) (start + used) = some h' ∧
      Parts [⟨start, used⟩] live free' h' ∧ SameRegion h h' := by
  have hs0 : 8 ∣ start := (hp.hand_aligned ⟨start, used + rest⟩ mem_cons_self).1
  have he : start + (used + rest) < 2 ^ 64 := hp.small mem_cons_self
  have hpc : ∀ s ∈ [(⟨start, used⟩ : Span)], 8 ∣ s.start ∧ 8 ∣ s.length ∧ 16 ≤ s.length :=
    forall_mem_singleton.mpr ⟨hs0, hus, hl⟩
  have hct : ∀ x, cover (⟨start + used, rest⟩ :: [⟨start, used⟩]) x
      ≤ cover [⟨start, used + rest⟩] x := fun x => by
    rw [cover_cut, cover_perm (.swap _ _ _)]
  unfold giveBackRest
  by_cases hlg : rest ≥ FREE_BLOCK_SIZE
  · have hlg' : 16 ≤ rest := hlg
    have hup : alignUp 64 (start + used) 8 = some (start + used) :=
      alignUp_of_dvd (show 3 ≤ 64 by decide) (show start + used + 2 ^ 3 < 2 ^ 64 by omega)
        (Nat.dvd_add hs0 hus)
    have hsb : sub (start + (used + rest)) (start + used) = some rest :=
      sub_eq_some_iff.mpr (by omega)
    rw [if_pos hlg, hup]
    show ∃ h' free', (sub (start + (used + rest)) (start + used)).bind _ = _ ∧ _
    rw [hsb]
    exact giveBack_spec _ hp hct (Nat.dvd_add hs0 hus) hr hpc
  rw [if_neg hlg]
  refine ⟨h, free, rfl, hp.regroup (fun x => ?_) hpc, .refl h⟩
  have := hct x
  rw [cover_cons] at this
  omega

variable {layout : Layout}

lemma placeIn_spec {blockAddr blockSize k allocationSize : Nat}
    (hp : Parts [⟨blockAddr, blockSize⟩] live free h) (hk : 3 ≤ k) (hk' : k ≤ 63)
    (hal : layout.align ∣ 2 ^ k) (hdv : 8 ∣ allocationSize)
    (hsz : layout.size ≤ allocationSize) (hfi : 16 + allocationSize + (2 ^ k - 1) ≤ blockSize) :
    ∃ ptr h' free', h.placeIn blockAddr blockSize (2 ^ k) allocationSize = some (ptr, h') ∧
      Parts [] (⟨ptr, layout⟩ :: live) free' h' ∧ SameRegion h h' ∧ ptr ≠ 0 := by
  have hbl := hp.hand_aligned ⟨blockAddr, blockSize⟩ mem_cons_self
  have he : blockAddr + blockSize < 2 ^ 64 := hp.small mem_cons_self
  have hblock8 : 8 ∣ blockAddr := hbl.1
  have hsize8 : 8 ∣ blockSize := hbl.2.1
  have heg : (8 : Nat) ∣ 2 ^ k := pow_dvd_pow 2 hk
  obtain ⟨ptr, hpt, _, _, hpr⟩ := alignUp_eq (show k ≤ 64 by omega)
    (show blockAddr + 16 + 2 ^ k < 2 ^ 64 by omega)
  have hptr8 : 8 ∣ ptr := dvd_trans heg hpr
  -- the pieces before the header, of the allocation, and behind it
  obtain ⟨lead, rfl⟩ : ∃ lead, ptr = blockAddr + lead + 16 := ⟨ptr - 16 - blockAddr, by omega⟩
  obtain ⟨rest, rfl⟩ : ∃ rest, blockSize = lead + (16 + allocationSize + rest) :=
    ⟨blockSize - (lead + (16 + allocationSize)), by omega⟩
  have hlead8 : 8 ∣ lead := by omega
  have hused8 : 8 ∣ 16 + allocationSize := by omega
  have hrest8 : 8 ∣ rest := by omega
  obtain ⟨_, _, hgive1, hp1, hsame1⟩ := giveBack_spec
    [⟨blockAddr + lead, 16 + allocationSize + rest⟩] hp (fun x => (cover_cut _ _ _ _ x).ge) hblock8
    hlead8 (forall_mem_singleton.mpr ⟨Nat.dvd_add hblock8 hlead8, Nat.dvd_add hused8 hrest8,
      show 16 ≤ 16 + allocationSize + rest by omega⟩)
  obtain ⟨_, free2, hgive2, hp2, hsame2⟩ := giveBackRest_spec hp1 hused8 (Nat.le_add_right _ _) hrest8
  have hgv := hp2.give layout (Nat.add_le_add_left hsz 16) (Nat.dvd_trans hal hpr)
  refine ⟨blockAddr + lead + 16, _, free2, ?_, hgv,
    (hsame1.trans hsame2).trans ⟨rfl, rfl, rfl⟩, by omega⟩
  have hhd : add 64 blockAddr HEADER_SIZE = some (blockAddr + 16) :=
    add_eq (show blockAddr + 16 < 2 ^ 64 by omega)
  have hheaderAddr : sub (blockAddr + lead + 16) HEADER_SIZE = some (blockAddr + lead) :=
    sub_eq_some_iff.mpr rfl
  have hblockEnd : add 64 blockAddr (lead + (16 + allocationSize + rest))
      = some (blockAddr + lead + (16 + allocationSize + rest)) := by
    rw [add_eq he]
    congr 1
    omega
  have hlf : sub (blockAddr + lead) blockAddr = some lead := sub_eq_some_iff.mpr (add_comm _ _)
  have hallocationEnd : add 64 (blockAddr + lead + 16) allocationSize
      = some (blockAddr + lead + (16 + allocationSize)) := by
    rw [add_eq (by omega), add_assoc (blockAddr + lead)]
  have husedSize : sub (blockAddr + lead + (16 + allocationSize)) (blockAddr + lead)
      = some (16 + allocationSize) :=
    sub_eq_some_iff.mpr (by omega)
  have husedEnd : add 64 (blockAddr + lead) (16 + allocationSize)
      = some (blockAddr + lead + (16 + allocationSize)) :=
    add_eq (by omega)
  have hrm : sub (blockAddr + lead + (16 + allocationSize + rest))
      (blockAddr + lead + (16 + allocationSize)) = some rest :=
    sub_eq_some_iff.mpr (by omega)
  simp only [placeIn, bind_eq_bind, hhd, hpt, hheaderAddr, hblockEnd,
    hlf, hgive1, hallocationEnd, husedSize, husedEnd, hrm, hgive2, bind_some]

def Chosen (free : List Span) (neededSize : Nat) (best : Nat × Nat × Nat) : Prop :=
  best.2.1 = 0 ∨ ∃ before after, free = before ++ ⟨best.2.1, best.2.2⟩ :: after ∧
    best.1 = prevOf 0 before ∧ neededSize ≤ best.2.2

lemma bestFit_spec (hp : Parts hand live free h) (neededSize : Nat) :
    ∃ best, h.bestFit neededSize = some best ∧ Chosen free neededSize best := by
  refine foldBlocks_keeps 0 hp.listed hp.length_free_lt (.inl rfl) ?_
  intro before b after best hf hI
  unfold better
  by_cases hbt : b.length ≥ neededSize ∧ b.length < best.2.2
  · rw [if_pos hbt]
    exact .inr ⟨before, after, hf, rfl, hbt.1⟩
  · rw [if_neg hbt]
    exact hI

lemma Layout.max_align : ∃ k, max layout.align 8 = 2 ^ k ∧ 3 ≤ k ∧ k ≤ 63 ∧ layout.align ∣ 2 ^ k ∧
      2 ^ k ≤ layout.align + 8 := by
  have hlg : layout.alignLog ≤ 63 := by
    by_contra hlt
    have h1 : 2 ^ 64 ≤ 2 ^ layout.alignLog := Nat.pow_le_pow_right (by decide) (by omega)
    have h2 := layout.fits
    omega
  unfold Layout.align
  rcases Nat.lt_or_ge layout.alignLog 3 with hlt | hge
  · have hle : 2 ^ layout.alignLog ≤ 2 ^ 3 := Nat.pow_le_pow_right (by decide) (by omega)
    exact ⟨3, max_eq_right hle, le_refl _, by decide, Nat.pow_dvd_pow 2 (by omega),
      Nat.le_add_left _ _⟩
  · have hle : 2 ^ 3 ≤ 2 ^ layout.alignLog := Nat.pow_le_pow_right (by decide) hge
    exact ⟨layout.alignLog, max_eq_left hle, hge, hlg, Nat.dvd_refl _, by omega⟩

lemma Layout.rounded :
    ∃ n, alignUp 64 layout.size 8 = some n ∧ layout.size ≤ n ∧ n < layout.size + 8 ∧ 8 ∣ n := by
  have hfi := layout.fits
  have hps := Nat.two_pow_pos layout.alignLog
  exact alignUp_eq (show 3 ≤ 64 by decide) (show layout.size + 2 ^ 3 < 2 ^ 64 by omega)

variable (hp : Parts [] live free h)
include hp

lemma allocFromFreeList_spec (layout : Layout) : h.allocFromFreeList layout = some (none, h) ∨
    ∃ ptr h' free', h.allocFromFreeList layout = some (some ptr, h') ∧
      Parts [] (⟨ptr, layout⟩ :: live) free' h' ∧ SameRegion h h' ∧ ptr ≠ 0 := by
  obtain ⟨k, hmx, hk, hk', hal, _⟩ := layout.max_align
  obtain ⟨allocationSize, hro, hle, _, hdv⟩ := layout.rounded
  have hfi := layout.fits
  have halignLe : layout.align + layout.size ≤ 2 ^ 63 := by
    unfold Layout.align
    omega
  have hwithHeader : add 64 HEADER_SIZE allocationSize = some (16 + allocationSize) :=
    add_eq (show 16 + allocationSize < 2 ^ 64 by omega)
  have hne : add 64 (16 + allocationSize) (2 ^ k - 1)
      = some (16 + allocationSize + (2 ^ k - 1)) := add_eq (by omega)
  obtain ⟨⟨_, best, size⟩, hbs, hch⟩ := bestFit_spec hp (16 + allocationSize + (2 ^ k - 1))
  by_cases h0 : best = 0
  · refine .inl ?_
    simp only [allocFromFreeList, bind_eq_bind, hro, hmx, hwithHeader, hne,
      hbs, bind_some, if_pos h0]
  obtain ⟨before, _, hf, hpv, hen⟩ := hch.resolve_left h0
  subst hf hpv
  obtain ⟨ptr, h', free', hpl, hps, hsm, hpt⟩ := placeIn_spec hp.take hk hk' hal hdv hle hen
  refine .inr ⟨ptr, h', free', ?_, hps, (SameRegion.relinked h _ _).trans hsm, hpt⟩
  have hpl' : (h.relinked (prevOf 0 before) (h.mem (best + 8))).placeIn best size (2 ^ k)
      allocationSize = some (ptr, h') := hpl
  simp only [allocFromFreeList, bind_eq_bind, hro, hmx, hwithHeader, hne,
    hbs, bind_some, if_neg h0, hpl']

lemma Parts.grow (had : 8 ∣ addr) (hsz : 8 ∣ size) (hl : 16 ≤ size) (hnx : h.next ≤ addr)
    (hro : addr + size ≤ h.base + h.size) :
    Parts [⟨addr, size⟩] live free { h with next := addr + size } := by
  have hb := hp.base_le
  refine ⟨hp.listed, ?_, ?_, hp.apart, ?_, hp.served, hp.base_pos, ?_, hro, hp.fits,
    Nat.dvd_add had hsz⟩
  · intro x
    have hx := hp.packed x
    rw [nil_append] at hx
    show cover (⟨addr, size⟩ :: (live.map (block h.mem) ++ free)) x
      ≤ if h.base ≤ x ∧ x < addr + size then 1 else 0
    rw [cover_cons]
    by_cases hin : h.base ≤ x ∧ x < h.next
    · rw [if_pos hin] at hx
      rw [if_neg (by rw [mem_mk]; omega), if_pos (show h.base ≤ x ∧ x < addr + size by omega)]
      omega
    rw [if_neg hin] at hx
    by_cases hbl : x ∈ (⟨addr, size⟩ : Span)
    · have hm : addr ≤ x ∧ x < addr + size := hbl
      rw [if_pos hbl, if_pos (show h.base ≤ x ∧ x < addr + size by omega)]
      omega
    · rw [if_neg hbl]
      omega
  · exact forall_mem_cons.mpr ⟨⟨had, hsz, hl⟩, hp.aligned⟩
  · intro c hc
    have := (hp.bounds (mem_blocks_of_free hc)).2
    show c.start + c.length ≠ addr + size
    omega
  · show h.base ≤ addr + size
    omega

lemma bump_spec {ptr : Nat} {h' : KernelHeap} (hbu : h.bump layout = some (ptr, h')) :
    (ptr = 0 ∧ h' = h) ∨
    (Parts [] (⟨ptr, layout⟩ :: live) free h' ∧ SameRegion h h' ∧ ptr ≠ 0) := by
  obtain ⟨k, hmx, hk, _, hal, _⟩ := layout.max_align
  obtain ⟨allocationSize, hro, _, _, hdv⟩ := layout.rounded
  unfold bump at hbu
  simp only [bind_eq_bind, hro, hmx, bind_some] at hbu
  obtain ⟨afterHeader, haf, hbu⟩ := bind_eq_some_iff.mp hbu
  obtain ⟨aligned, ha, hbu⟩ := bind_eq_some_iff.mp hbu
  obtain ⟨allocationEnd, hallocEnd, hbu⟩ := bind_eq_some_iff.mp hbu
  obtain ⟨newNext, hnewNext, hbu⟩ := bind_eq_some_iff.mp hbu
  obtain ⟨heapEnd, hheapEnd, hbu⟩ := bind_eq_some_iff.mp hbu
  have hafterEq : afterHeader = h.next + 16 := (add_eq_some_iff.mp haf).2
  have hendEq : allocationEnd = aligned + allocationSize := (add_eq_some_iff.mp hallocEnd).2
  have hheapEq : heapEnd = h.base + h.size := (add_eq_some_iff.mp hheapEnd).2
  subst hafterEq hendEq hheapEq
  obtain ⟨_, hr, _, _, hdd⟩ := alignUp_eq (show k ≤ 64 by omega) (lt_of_alignUp ha)
  rw [ha] at hr
  cases hr
  have haligned8 : 8 ∣ aligned := dvd_trans (pow_dvd_pow 2 hk) hdd
  -- the end is a multiple of 8 already
  have hnewEq : newNext = aligned + allocationSize := by
    have := alignUp_of_dvd (show 3 ≤ 64 by decide)
      (show aligned + allocationSize + 2 ^ 3 < 2 ^ 64 from lt_of_alignUp hnewNext)
      (Nat.dvd_add haligned8 hdv)
    rw [show (2 : Nat) ^ 3 = 8 from rfl, hnewNext] at this
    exact some.inj this
  subst hnewEq
  by_cases hfl : aligned + allocationSize > h.base + h.size
  · rw [if_pos hfl] at hbu
    cases hbu
    exact .inl ⟨rfl, rfl⟩
  rw [if_neg hfl] at hbu
  obtain ⟨headerAddr, rfl⟩ : ∃ a, aligned = a + 16 := ⟨aligned - 16, by omega⟩
  have hhd : sub (headerAddr + 16) HEADER_SIZE = some headerAddr := sub_eq_some_iff.mpr rfl
  have hbl : sub (headerAddr + 16 + allocationSize) headerAddr = some (16 + allocationSize) :=
    sub_eq_some_iff.mpr (by omega)
  rw [hhd, bind_some, hbl] at hbu
  have hgr := hp.grow (show 8 ∣ headerAddr by omega) (show 8 ∣ 16 + allocationSize by omega)
    (by omega) (by omega) (by omega)
  have hgv := hgr.give layout (by omega) (dvd_trans hal hdd)
  rw [show headerAddr + (16 + allocationSize) = headerAddr + 16 + allocationSize by omega] at hgv
  cases hbu
  exact .inr ⟨hgv, ⟨rfl, rfl, rfl⟩, by omega⟩

lemma bump_isSome (hrm : h.next + max layout.align 8 + layout.size + 32 < 2 ^ 64) :
    (h.bump layout).isSome := by
  obtain ⟨k, hmx, _, _, _, _⟩ := layout.max_align
  obtain ⟨allocationSize, hro, _, _, _⟩ := layout.rounded
  have haf : add 64 h.next HEADER_SIZE = some (h.next + 16) :=
    add_eq (show h.next + 16 < 2 ^ 64 by omega)
  obtain ⟨aligned, hal, _, _, _⟩ := alignUp_eq (show k ≤ 64 by omega)
    (show h.next + 16 + 2 ^ k < 2 ^ 64 by omega)
  have he : add 64 aligned allocationSize = some (aligned + allocationSize) := add_eq (by omega)
  obtain ⟨newNext, hnewNext, _, -, -⟩ := alignUp_eq (show 3 ≤ 64 by decide)
    (show aligned + allocationSize + 2 ^ 3 < 2 ^ 64 by omega)
  have hnewNext' : alignUp 64 (aligned + allocationSize) 8 = some newNext := hnewNext
  have hhd : sub aligned HEADER_SIZE = some (aligned - 16) := sub_eq (show 16 ≤ aligned by omega)
  have hbl : sub newNext (aligned - 16) = some (newNext - (aligned - 16)) := sub_eq (by omega)
  unfold bump
  simp only [bind_eq_bind, haf, hmx, hal, hro, he, hnewNext', add_eq hp.fits, hhd, hbl, bind_some]
  split <;> rfl

lemma alloc_spec {ptr : Nat} {h' : KernelHeap} (ha : h.alloc layout = some (ptr, h')) :
    (ptr = 0 ∧ h' = h) ∨
    (∃ free', Parts [] (⟨ptr, layout⟩ :: live) free' h' ∧ SameRegion h h' ∧ ptr ≠ 0) := by
  unfold alloc at ha
  split at ha
  · cases ha
    exact .inl ⟨rfl, rfl⟩
  rcases allocFromFreeList_spec hp layout with hn | ⟨ptr1, h1, free1, hso, hps, hsm, hne⟩
  · rw [hn] at ha
    rcases bump_spec hp ha with hnu | ⟨hps, hsm, hne⟩
    · exact .inl hnu
    · exact .inr ⟨free, hps, hsm, hne⟩
  rw [hso] at ha
  cases ha
  exact .inr ⟨free1, hps, hsm, hne⟩

lemma alloc_isSome (hro : h.next + max layout.align 8 + layout.size + 32 < 2 ^ 64) :
    (h.alloc layout).isSome := by
  unfold alloc
  split
  · rfl
  rcases allocFromFreeList_spec hp layout with hn | ⟨ptr1, h1, free1, hso, -⟩
  · rw [hn]
    exact bump_isSome hp hro
  · rw [hso]
    rfl

lemma dealloc_spec (hl : l ∈ live) :
    ∃ h' free', h.dealloc l.ptr = some h' ∧ Parts [] (live.erase l) free' h' ∧ SameRegion h h' := by
  have hsr := hp.served l hl
  have hba := hp.comeBack hl
  have hbn : h.base ≤ l.ptr - 16 ∧ l.ptr - 16 + h.mem (l.ptr - 16 + 8) ≤ h.next :=
    hba.bounds mem_cons_self
  have hln : 16 ≤ h.mem (l.ptr - 16 + 8) := (hba.aligned _ mem_cons_self).2.2
  have hro := hp.room
  have hfi := hp.fits
  have hhd := hsr.header
  obtain ⟨h', free', had, hps, hsa⟩ := addToFreeList_spec hba
  refine ⟨h', free', ?_, hps, hsa⟩
  have hrg : h.isInHeapRange (l.ptr - 16) (h.mem (l.ptr - 16 + 8)) = some true := by
    unfold isInHeapRange
    simp only [bind_eq_bind, add_eq hfi, bind_some]
    rw [if_pos hbn.1, add_eq (by omega), map_some, decide_eq_true (by omega)]
  have hok : ¬ (h.mem (l.ptr - 16) ≠ MAGIC ∨ h.mem (l.ptr - 16 + 8) < FREE_BLOCK_SIZE) := by
    rintro (hmg | hsm)
    · exact hmg hsr.magic
    · exact absurd hln (not_le.mpr hsm)
  unfold dealloc
  rw [if_pos (show l.ptr ≠ 0 ∧ l.ptr ≥ HEADER_SIZE from ⟨by omega, hhd⟩)]
  show release h (l.ptr - 16) = some h'
  unfold release
  simp only [if_neg hok, hrg]
  exact had

lemma Parts.store (hl : l ∈ live) {w : Nat} (hlo : l.ptr ≤ w)
    (hhi : w < l.ptr + l.layout.size) (v : Nat) :
    Parts [] live free { h with mem := update h.mem w v } := by
  have hsr := hp.served l hl
  have hhd := hsr.header
  have hsz := hsr.size
  have hba := hp.comeBack hl
  -- the word lies in the block of the allocation behind its header
  have hot : ∀ {c : Span}, c ∈ [] ++ ((live.erase l).map (block h.mem) ++ free) →
      w ≠ c.start ∧ w ≠ c.start + 8 := by
    intro c hc
    have hap : l.ptr - 16 + h.mem (l.ptr - 16 + 8) ≤ c.start ∨ c.start + c.length ≤ l.ptr - 16 :=
      hba.apart_of_hand hc
    omega
  refine hp.congr_mem (fun c hc => ?_) (fun m hm => ?_)
  · have hne := hot (mem_blocks_of_free hc)
    exact ⟨update_of_ne hne.1.symm _ _, update_of_ne hne.2.symm _ _⟩
  by_cases hml : m = l
  · subst hml
    exact ⟨update_of_ne (by omega) _ _, update_of_ne (by omega) _ _⟩
  have hm' : m ∈ live.erase l := (mem_erase_of_ne hml).mpr hm
  have hne := hot (mem_blocks_of_live hm')
  exact ⟨update_of_ne hne.1.symm _ _, update_of_ne hne.2.symm _ _⟩

end

/-! ## Runs -/

structure State where
  heap : KernelHeap
  live : List Live

inductive Op where
  | alloc (layout : Layout)
  | dealloc (l : Live)
  /-- The caller writes a word of an allocation. -/
  | store (l : Live) (w v : Nat)

/-- Callers free and write what they hold. -/
def allowed (s : State) : Op → Prop
  | .alloc _ => True
  | .dealloc l => l ∈ s.live
  | .store l w _ => l ∈ s.live ∧ l.ptr ≤ w ∧ w < l.ptr + l.layout.size

instance (s : State) (op : Op) : Decidable (allowed s op) :=
  match op with
  | .alloc _ => inferInstanceAs (Decidable True)
  | .dealloc l => inferInstanceAs (Decidable (l ∈ s.live))
  | .store l w _ => inferInstanceAs (Decidable (l ∈ s.live ∧ l.ptr ≤ w ∧ w < l.ptr + l.layout.size))

def step : Op → State → Option State
  | .alloc layout, s => do
    let (ptr, heap) ← s.heap.alloc layout
    some ⟨heap, if ptr = 0 then s.live else ⟨ptr, layout⟩ :: s.live⟩
  | .dealloc l, s => do
    let heap ← s.heap.dealloc l.ptr
    some ⟨heap, s.live.erase l⟩
  | .store _ w v, s => some { s with heap := { s.heap with mem := update s.heap.mem w v } }

/-- A heap that was just configured, over memory with any contents. -/
def start (base size : Nat) : State := ⟨(new mem).configure base size, []⟩

/-- Nothing was ever allocated: there is no room, or the region is not one. -/
def Idle (base size : Nat) (s : State) : Prop :=
  (base = 0 ∨ 2 ^ 64 ≤ base + size) ∧ s.live = [] ∧ s.heap.base = base ∧ s.heap.size = size ∧
    s.heap.next = base ∧ s.heap.freeListHead = 0

/-- What holds between two calls. -/
def Inv (base size : Nat) (s : State) : Prop :=
  Idle base size s ∨ (s.heap.base = base ∧ s.heap.size = size ∧ ∃ free, Parts [] s.live free s.heap)

variable {base size : Nat}

lemma inv_start (hb : 8 ∣ base) : Inv base size (start mem base size) := by
  by_cases hrg : base = 0 ∨ 2 ^ 64 ≤ base + size
  · exact .inl ⟨hrg, rfl, rfl, rfl, rfl, rfl⟩
  refine .inr ⟨rfl, rfl, [], ⟨rfl, packed_nil _ _, nofun, nofun, nofun, nofun, ?_, le_refl _,
    le_add_right _ _, ?_, hb⟩⟩
  · show 0 < base
    omega
  · show base + size < 2 ^ 64
    omega

lemma Idle.alloc {s : State} (h : Idle base size s) {layout : Layout} {ptr : Nat}
    {heap : KernelHeap} (ha : s.heap.alloc layout = some (ptr, heap)) :
    ptr = 0 ∧ heap = s.heap := by
  obtain ⟨_, -, _, _, -, hhd⟩ := h
  unfold KernelHeap.alloc at ha
  by_cases hof : (!s.heap.initialized) = true ∨ s.heap.base = 0 ∨ s.heap.size = 0
  · rw [if_pos hof] at ha
    cases ha
    exact ⟨rfl, rfl⟩
  rw [if_neg hof] at ha
  have hbg : ¬ s.heap.base + s.heap.size < 2 ^ 64 := by omega
  have hbs : ∀ n, s.heap.bestFit n = some (0, 0, 2 ^ 64 - 1) := by
    intro n
    unfold bestFit
    rw [hhd]
    rfl
  obtain ⟨⟨found, h1⟩, hli, ha⟩ := bind_eq_some_iff.mp ha
  have hfn : found = none ∧ h1 = s.heap := by
    unfold allocFromFreeList at hli
    simp only [hbs] at hli
    obtain ⟨_, -, hli⟩ := bind_eq_some_iff.mp hli
    obtain ⟨_, -, hli⟩ := bind_eq_some_iff.mp hli
    obtain ⟨_, -, hli⟩ := bind_eq_some_iff.mp hli
    cases hli
    exact ⟨rfl, rfl⟩
  obtain ⟨rfl, rfl⟩ := hfn
  -- the end of the region overflows
  have hbu : s.heap.bump layout = some (ptr, heap) := ha
  unfold bump at hbu
  obtain ⟨_, -, hbu⟩ := bind_eq_some_iff.mp hbu
  obtain ⟨_, -, hbu⟩ := bind_eq_some_iff.mp hbu
  obtain ⟨_, -, hbu⟩ := bind_eq_some_iff.mp hbu
  obtain ⟨_, -, hbu⟩ := bind_eq_some_iff.mp hbu
  obtain ⟨_, -, hbu⟩ := bind_eq_some_iff.mp hbu
  obtain ⟨_, he, -⟩ := bind_eq_some_iff.mp hbu
  exact absurd (add_eq_some_iff.mp he).1 hbg

lemma inv_step {s s' : State} {op : Op} (hi : Inv base size s)
    (hal : allowed s op) (hst : step op s = some s') : Inv base size s' := by
  cases op with
  | alloc layout =>
    obtain ⟨⟨ptr, heap⟩, ha, hs'⟩ := bind_eq_some_iff.mp hst
    cases hs'
    rcases hi with hid | ⟨hb, hsz, free, hp⟩
    · obtain ⟨rfl, rfl⟩ := hid.alloc ha
      exact .inl hid
    rcases alloc_spec hp ha with ⟨rfl, rfl⟩ | ⟨free', hps, hsm, hne⟩
    · exact .inr ⟨hb, hsz, free, hp⟩
    refine .inr ⟨hsm.base.trans hb, hsm.size.trans hsz, free', ?_⟩
    rw [if_neg hne]
    exact hps
  | dealloc l =>
    obtain ⟨heap, hde, hs'⟩ := bind_eq_some_iff.mp hst
    cases hs'
    have hl : l ∈ s.live := hal
    rcases hi with hid | ⟨hb, hsz, free, hp⟩
    · rw [hid.2.1] at hl
      cases hl
    obtain ⟨_, free', hde', hps, hsm⟩ := dealloc_spec hp hl
    rw [hde] at hde'
    cases hde'
    exact .inr ⟨hsm.base.trans hb, hsm.size.trans hsz, free', hps⟩
  | store l w v =>
    cases hst
    obtain ⟨hl, hlo, hhi⟩ := hal
    rcases hi with hid | ⟨hb, hsz, free, hp⟩
    · rw [hid.2.1] at hl
      cases hl
    · exact .inr ⟨hb, hsz, free, hp.store hl hlo hhi v⟩

variable {h : KernelHeap} {live : List Live}

lemma allowed_append (more : List Live) {op : Op}
    (hal : allowed ⟨h, live⟩ op) : allowed ⟨h, live ++ more⟩ op := by
  cases op with
  | alloc layout => trivial
  | dealloc l => exact mem_append_left _ hal
  | store l w v => exact ⟨mem_append_left _ hal.1, hal.2⟩

lemma step_append {s' : State} (more : List Live) {op : Op}
    (hal : allowed ⟨h, live⟩ op) (hst : step op ⟨h, live⟩ = some s') :
    step op ⟨h, live ++ more⟩ = some ⟨s'.heap, s'.live ++ more⟩ := by
  cases op with
  | alloc layout =>
    obtain ⟨⟨ptr, heap⟩, ha, hs'⟩ := bind_eq_some_iff.mp hst
    cases hs'
    have ha' : h.alloc layout = some (ptr, heap) := ha
    unfold step
    simp only [ha', bind_eq_bind, bind_some]
    split <;> rfl
  | dealloc l =>
    obtain ⟨heap, hde, hs'⟩ := bind_eq_some_iff.mp hst
    cases hs'
    have hde' : h.dealloc l.ptr = some heap := hde
    have hl : l ∈ live := hal
    unfold step
    simp only [hde', bind_eq_bind, bind_some, erase_append_left more hl]
  | store l w v =>
    cases hst
    rfl

/-- The bytes of an allocation and of its header. -/
def Live.ranges (l : Live) : List Span := [⟨l.ptr, l.layout.size⟩, ⟨l.ptr - HEADER_SIZE, HEADER_SIZE⟩]

lemma cover_ranges_le {mem : Nat → Nat} {l : Live} (h : Served mem l) (x : Nat) :
    cover l.ranges x ≤ cover [l.block mem] x := by
  have hhd := h.header
  have hsz := h.size
  unfold Live.ranges Live.block HEADER_SIZE
  simp only [cover_cons, cover_nil, Span.mem_def]
  by_cases h1 : l.ptr ≤ x ∧ x < l.ptr + l.layout.size
  · rw [if_pos h1, if_neg (by omega), if_pos (by omega)]
  rw [if_neg h1]
  by_cases h2 : l.ptr - 16 ≤ x ∧ x < l.ptr - 16 + 16
  · rw [if_pos h2, if_pos (by omega)]
  · rw [if_neg h2]
    omega

lemma cover_live_le {mem : Nat → Nat} (h : ∀ l ∈ live, Served mem l) (x : Nat) :
    cover (live.flatMap ranges) x ≤ cover (live.map (block mem)) x := by
  induction live with
  | nil => exact le_refl _
  | cons l live ih =>
    have hl := cover_ranges_le (h l mem_cons_self) x
    have hr := ih fun m hm => h m (mem_cons_of_mem _ hm)
    rw [flatMap_cons, cover_append, map_cons, cover_cons]
    rw [cover_cons, cover_nil] at hl
    omega

lemma Inv.perm {live live' : List Live}
    (hi : Inv base size ⟨h, live⟩) (hpm : live'.Perm live) : Inv base size ⟨h, live'⟩ := by
  rcases hi with ⟨hrg, hlv, hr⟩ | ⟨hb, hsz, free, hp⟩
  · refine .inl ⟨hrg, ?_, hr⟩
    have hnl : live = [] := hlv
    rw [hnl] at hpm
    exact hpm.eq_nil
  exact .inr ⟨hb, hsz, free, hp.rearrange ((hpm.symm.map _).append_right free)
    fun l hl => hp.served l (hpm.mem_iff.mp hl)⟩

def Live.payload (l : Live) : Span := ⟨l.ptr, l.layout.size⟩

lemma Inv.cover_payload_le {s : State} (hi : Inv base size s) (x : Nat) :
    cover (s.live.map payload) x ≤ if 0 < x ∧ x + 1 < 2 ^ 64 then 1 else 0 := by
  rcases hi with ⟨-, hlv, -⟩ | ⟨-, -, free, hp⟩
  · rw [hlv]
    exact zero_le _
  have hrg : ∀ live : List Live, cover (live.map payload) x ≤ cover (live.flatMap ranges) x := by
    intro live
    induction live with
    | nil => exact le_refl _
    | cons l live ih =>
      rw [map_cons, cover_cons, flatMap_cons, cover_append]
      unfold Live.ranges Live.payload at *
      rw [cover_cons]
      omega
  have hcv := (hrg s.live).trans (cover_live_le hp.served x)
  have hx := hp.packed x
  rw [nil_append, cover_append] at hx
  have hps := hp.base_pos
  have hro := hp.room
  have hfi := hp.fits
  refine hcv.trans ((le_add_right _ _).trans (hx.trans ?_))
  by_cases hin : s.heap.base ≤ x ∧ x < s.heap.next
  · rw [if_pos hin, if_pos (by omega)]
  · rw [if_neg hin]
    exact zero_le _

/-- After any calls the allocations, their headers and the free blocks are disjoint and lie between
the start of the region and the bump pointer; every pointer is aligned as asked for; no two free
blocks are neighbours. A live pointer is freed by `dealloc`, and `alloc` only stops if an address
overflows. -/
theorem heap_never_overlaps {base size : Nat} (hbase : 8 ∣ base) {ops : List Op}
    {s : State} (hrun : Run step allowed (start mem base size) ops s) :
    (∃ free, Listed s.heap.mem s.heap.freeListHead free ∧
      (s.live.flatMap Live.ranges ++ free).Pairwise Span.Disjoint ∧
      (∀ r ∈ s.live.flatMap Live.ranges ++ free, ∀ x ∈ r, base ≤ x ∧ x < s.heap.next) ∧
      (∀ b ∈ free, ∀ c ∈ free, b.start + b.length ≠ c.start) ∧
      ∀ b ∈ free, b.start + b.length ≠ s.heap.next) ∧ s.heap.next ≤ base + size ∧
    (∀ l ∈ s.live, l.layout.align ∣ l.ptr) ∧ (∀ l ∈ s.live, (step (.dealloc l) s).isSome) ∧
    (base ≠ 0 → base + size < 2 ^ 64 → ∀ layout : Layout,
      s.heap.next + max layout.align 8 + layout.size + 32 < 2 ^ 64 →
      (step (.alloc layout) s).isSome) := by
  rcases hrun.keeps inv_step (inv_start mem hbase) with hid | ⟨hb, hs, free, hp⟩
  · obtain ⟨_, hlv, -, -, hnx, hhd⟩ := hid
    rw [hlv, hnx, hhd]
    refine ⟨⟨[], rfl, List.Pairwise.nil, by simp, by simp, by simp⟩, le_add_right _ _, by simp,
      by simp, fun hne hlt => ?_⟩
    omega
  have hpc : Packed s.heap.base s.heap.next (s.live.flatMap Live.ranges ++ free) :=
    hp.packed.mono fun x => by
      rw [nil_append, cover_append, cover_append]
      exact Nat.add_le_add_right (cover_live_le hp.served x) _
  rw [← hb, ← hs]
  refine ⟨⟨free, hp.listed, hpc.pairwise, fun r hr x hx => hpc.mem_bounds hr hx, hp.apart,
    hp.top⟩, hp.room, fun l hl => (hp.served l hl).align, fun l hl => ?_, fun _ _ layout hro => ?_⟩
  · obtain ⟨_, _, hde, -⟩ := dealloc_spec hp hl
    show ((s.heap.dealloc l.ptr).bind _).isSome
    rw [hde]
    rfl
  obtain ⟨r, hr⟩ := isSome_iff_exists.mp (alloc_isSome hp hro)
  show ((s.heap.alloc layout).bind _).isSome
  rw [hr]
  rfl

def smallLayout : Layout := ⟨24, 3, by decide⟩

def wideLayout : Layout := ⟨100, 6, by decide⟩

/-- Three allocations; the one in the middle is freed and its block used again in part. -/
def reuse : List Op :=
  [.alloc smallLayout, .alloc wideLayout, .alloc smallLayout, .store ⟨4112, smallLayout⟩ 4112 7,
    .dealloc ⟨4160, wideLayout⟩, .alloc smallLayout]

theorem heap_never_overlaps_reuse : ∃ s, Run step allowed (start (fun _ => 5) 4096 1024) reuse s ∧
      s.live.map Live.ptr = [4160, 4280, 4112] ∧ s.heap.next = 4304 ∧
      ∃ free, Listed s.heap.mem s.heap.freeListHead free ∧
        (s.live.flatMap Live.ranges ++ free).Pairwise Span.Disjoint := by
  have hev : (executeAllowed step allowed reuse (start (fun _ => 5) 4096 1024)).map
      (fun s => (s.live.map Live.ptr, s.heap.next)) = some ([4160, 4280, 4112], 4304) := by
    decide +kernel
  obtain ⟨s, hs, heq⟩ := map_eq_some_iff.mp hev
  have hr := Run.of_executeAllowed hs
  obtain ⟨⟨free, hls, hds, -⟩, -⟩ := heap_never_overlaps _ (by decide) hr
  exact ⟨s, hr, congrArg Prod.fst heq, congrArg Prod.snd heq, free, hls, hds⟩

end Nt61.Heap
