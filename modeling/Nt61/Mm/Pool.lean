/-
Pool — the kernel pool of `mm/pool.rs`.

The pool takes blocks from the kernel heap, puts a header in front of each, and keeps freed blocks
in two lists of addresses. Memory is byte by byte; the header and the free block share their first
bytes, as in the source. A free block that is larger than the request by 32 bytes or more is split;
the address of the rest is computed on a pointer to `FreeBlock`, which counts in units of 16 bytes
(`splitBlock`).
-/
import Nt61.Mm.Heap
import Nt61.Lib.Store

namespace Nt61.Pool

open Lib Lib.Checked List Option Nat Span Heap.Live

/-! ## Pool types, headers and free blocks -/

inductive PoolType where
  | nonPaged
  | paged
  | nonPagedSession
  | pagedSession
  | nonPagedMustSucceed
  | nonPagedExecute
  | pagedExecute
  | nonPagedSessionExecute
  | pagedSessionExecute
  | nonPagedNxCache
  | nonPagedNxCacheExecute
  deriving DecidableEq, Repr

namespace PoolType

def code : PoolType → Nat
  | .nonPaged => 0
  | .paged => 1
  | .nonPagedSession => 2
  | .pagedSession => 3
  | .nonPagedMustSucceed => 4
  | .nonPagedExecute => 5
  | .pagedExecute => 6
  | .nonPagedSessionExecute => 7
  | .pagedSessionExecute => 8
  | .nonPagedNxCache => 9
  | .nonPagedNxCacheExecute => 10

/-- The match in `free`. -/
def ofCode (code : Nat) : PoolType :=
  if code = 0 then .nonPaged
  else if code = 1 then .paged
  else if code = 2 then .nonPagedSession
  else if code = 3 then .pagedSession
  else if code = 4 then .nonPagedMustSucceed
  else if code = 5 then .nonPagedExecute
  else if code = 6 then .pagedExecute
  else if code = 7 then .nonPagedSessionExecute
  else if code = 8 then .pagedSessionExecute
  else if code = 9 then .nonPagedNxCache
  else if code = 10 then .nonPagedNxCacheExecute
  else .nonPaged

def isPaged : PoolType → Bool
  | .paged | .pagedSession | .pagedExecute | .pagedSessionExecute => true
  | _ => false

variable (t : PoolType)

lemma ofCode_code : ofCode t.code = t := by cases t <;> rfl

lemma code_lt : t.code < 256 := by cases t <;> decide

end PoolType

def HEADER_SIZE : Nat := 32

def MIN_FREE_BLOCK_SIZE : Nat := 32

def FREE_BLOCK_SIZE : Nat := 16

variable (mem : Store)

/-- Write an integer of `n` bytes. -/
def poke (addr n v : Nat) : Store := mem.blit addr n (Store.ofBytes (leBytes n v))

def sizeAt (block : Nat) : Nat := mem.readLe block 8

def blockSizeAt (header : Nat) : Nat := mem.readLe (header + 4) 4

def poolTypeAt (header : Nat) : Nat := mem.readLe (header + 8) 1

def flagsAt (header : Nat) : Nat := mem.readLe (header + 9) 1

def writeFreeBlock (block size : Nat) (t : PoolType) : Store :=
  poke (poke mem block 8 size) (block + 8) 1 t.code

/-- The fields that are written for every allocation. -/
def initHeader (header total : Nat) (t : PoolType) : Store :=
  poke (poke (poke mem (header + 4) 4 total) (header + 8) 1 t.code) (header + 9) 1 0

/-- `previous_size` and `pool_tag`. -/
def tagHeader (header tag : Nat) : Store := poke (poke mem header 4 0) (header + 12) 4 tag

def zero (addr n : Nat) : Store := mem.blit addr n fun _ => 0

/-! ## The free lists -/

/-- The pool with the heap under it; a null entry of a list is `0`. -/
structure PoolState where
  heap : Heap.KernelHeap
  mem : Store
  nonpagedFreelist : List Nat
  pagedFreelist : List Nat

namespace PoolState

variable (p : PoolState)

variable (t : PoolType)

def freelist : List Nat := if t.isPaged then p.pagedFreelist else p.nonpagedFreelist

def setFreelist (list : List Nat) : PoolState :=
  if t.isPaged then { p with pagedFreelist := list } else { p with nonpagedFreelist := list }

/-- The first block that is large enough, with the entries before and after it. -/
def findBlock (mem : Store) (size : Nat) : List Nat → Option (List Nat × Nat × List Nat)
  | [] => none
  | block :: rest =>
    if block = 0 ∨ sizeAt mem block < size then
      (findBlock mem size rest).map fun found => (block :: found.1, found.2)
    else some ([], block, rest)

/-- The entry that takes the place of the block: the rest of it, or null. `block_ptr.add(size)`
counts in free blocks. -/
def splitBlock (t : PoolType) (block size : Nat) : Option (Nat × Store) :=
  if sizeAt mem block - size ≥ MIN_FREE_BLOCK_SIZE then do
    let distance ← mul 64 FREE_BLOCK_SIZE size
    let newBlock ← add 64 block distance
    some (newBlock, writeFreeBlock mem newBlock (sizeAt mem block - size) t)
  else some (0, mem)

def allocateFromFreelist (size : Nat) : Option (Option Nat × PoolState) :=
  match findBlock p.mem size (p.freelist t) with
  | none => some (none, p)
  | some (before, block, after) => do
    let (entry, mem) ← splitBlock p.mem t block size
    let mem := zero (initHeader mem block size t) (block + HEADER_SIZE) (size - HEADER_SIZE)
    some (some (block + HEADER_SIZE), { p with mem := mem }.setFreelist t (before ++ entry :: after))

/-- What the loop of `free_to_freelist` finds. -/
inductive Neighbour where
  /-- The block ends where the freed one starts. -/
  | before (block : Nat)
  /-- The block, an entry of the list, starts where the freed one ends. -/
  | after (index block : Nat)
  /-- No neighbour; the place that keeps the list sorted. -/
  | none (insertPos : Nat)
  deriving DecidableEq, Repr

def findNeighbour (mem : Store) (blockStart blockEnd length : Nat) :
    Nat → Nat → List Nat → Option Neighbour
  | _, insertPos, [] => some (.none insertPos)
  | i, insertPos, existing :: rest =>
    if existing = 0 then findNeighbour mem blockStart blockEnd length (i + 1) insertPos rest
    else
      let insertPos := if existing > blockStart ∧ insertPos = length then i else insertPos
      (add 64 existing (sizeAt mem existing)).bind fun existingEnd =>
        if existingEnd = blockStart then some (.before existing)
        else if blockEnd = existing then some (.after i existing)
        else findNeighbour mem blockStart blockEnd length (i + 1) insertPos rest

def freeToFreelist (block totalSize : Nat) (t : PoolType) : Option PoolState := do
  let mem := writeFreeBlock p.mem block totalSize t
  let list := p.freelist t
  let blockEnd ← add 64 block totalSize
  match ← findNeighbour mem block blockEnd list.length 0 list.length list with
  | .before existing => do
    let size ← add 64 (sizeAt mem existing) totalSize
    some { p with mem := poke mem existing 8 size }
  | .after index existing => do
    let size ← add 64 (sizeAt mem block) (sizeAt mem existing)
    some ({ p with mem := poke mem block 8 size }.setFreelist t (list.set index block))
  | .none insertPos =>
    some ({ p with mem := mem }.setFreelist t
      (if insertPos ≥ list.length then list ++ [block] else list.insertIdx insertPos block))

/-! ## Allocation and release -/

/-- The layout of `total` bytes at a multiple of 32. -/
def layoutOf (total : Nat) : Option Heap.Layout :=
  if h : total + 2 ^ 5 ≤ 2 ^ 63 then some ⟨total, 5, h⟩ else none

/-- A block of the heap gets its header and is zeroed. -/
def allocFromHeap (tag padded total : Nat) (layout : Heap.Layout) : Option (Nat × PoolState) := do
  let (block, heap) ← p.heap.alloc layout
  if block = 0 then some (0, { p with heap := heap })
  else
    let mem := tagHeader (initHeader p.mem block total t) block tag
    some (block + HEADER_SIZE,
      { p with heap := heap, mem := zero mem (block + HEADER_SIZE) padded })

/-- `alloc_raw`; the null pointer is `0`. -/
def allocRaw (totalSize : Nat) (t : PoolType) (tag : Nat) : Option (Nat × PoolState) := do
  let padded ← alignUp 64 totalSize 16
  let total ← add 64 HEADER_SIZE padded
  match layoutOf total with
  | none => some (0, p)
  | some layout =>
    match ← p.allocateFromFreelist t total with
    | (some ptr, p) => some (ptr, { p with mem := tagHeader p.mem (ptr - HEADER_SIZE) tag })
    | (none, p) => p.allocFromHeap t tag padded total layout

def allocate (size : Nat) : Option (Nat × PoolState) := p.allocRaw size t 0

def allocateTagged (size tag : Nat) : Option (Nat × PoolState) := do
  let (ptr, p) ← p.allocRaw size t tag
  if ptr = 0 then some (ptr, p)
  else some (ptr, { p with mem := poke p.mem (ptr - HEADER_SIZE + 12) 4 tag })

/-- `free`; a block that is marked as freed already stops the system. -/
def free (ptr : Nat) : Option PoolState :=
  if ptr = 0 then some p
  else do
    let header ← sub ptr HEADER_SIZE
    if flagsAt p.mem header &&& 1 ≠ 0 then none
    else
      let mem := poke p.mem (header + 9) 1 (flagsAt p.mem header ||| 1)
      { p with mem := mem }.freeToFreelist header (blockSizeAt mem header)
        (PoolType.ofCode (poolTypeAt mem header))

end PoolState

open PoolState

/-! ## The blocks of the pool -/

/-- A block that a caller holds, header included. -/
structure Block where
  start : Nat
  size : Nat
  poolType : PoolType
  deriving DecidableEq, Repr

def Block.span (b : Block) : Span := ⟨b.start, b.size⟩

/-- The header of a block says what `free` has to know. -/
structure Header (mem : Store) (b : Block) : Prop where
  large : HEADER_SIZE ≤ b.size
  size : blockSizeAt mem b.start = b.size % 2 ^ 32
  flags : flagsAt mem b.start = 0
  poolType : poolTypeAt mem b.start = b.poolType.code

/-- The bytes of a free block, as the list has them. -/
def range (e : Nat) : Span := ⟨e, sizeAt mem e⟩

/-- The bytes that belong to an entry of a free list: a block of more than `u32::MAX` bytes may be
recorded as shorter than its own header. -/
def foot (e : Nat) : Span := ⟨e, max (sizeAt mem e) 32⟩

def PoolState.entries (p : PoolState) : List Nat :=
  (p.nonpagedFreelist ++ p.pagedFreelist).filter (· ≠ 0)

/-- The blocks in hand, those of the callers and the free ones are disjoint and lie in what the heap
has given to the pool. -/
structure Parts (owned : List Heap.Live) (hand : List Span) (live : List Block)
    (entries : List Nat) (mem : Store) : Prop where
  covered : ∀ x, cover (hand ++ (live.map Block.span ++ entries.map (foot mem))) x
    ≤ cover (owned.map payload) x
  room : ∀ x, cover (owned.map payload) x ≤ if 0 < x ∧ x + 1 < 2 ^ 64 then 1 else 0
  headers : ∀ b ∈ live, Header mem b

lemma fields_congr {mem mem' : Store} {a : Nat} (h : ∀ i, i < 32 → mem' (a + i) = mem (a + i)) :
    sizeAt mem' a = sizeAt mem a ∧ blockSizeAt mem' a = blockSizeAt mem a ∧
      flagsAt mem' a = flagsAt mem a ∧ poolTypeAt mem' a = poolTypeAt mem a := by
  have hrd : ∀ k n, k + n ≤ 32 → mem'.readLe (a + k) n = mem.readLe (a + k) n := by
    intro k n hkn
    refine Store.readLe_congr fun i hi => ?_
    rw [add_assoc]
    exact h (k + i) (by omega)
  exact ⟨hrd 0 8 (by decide), hrd 4 4 (by decide), hrd 9 1 (by decide), hrd 8 1 (by decide)⟩

section

variable {owned : List Heap.Live} {hand hand' : List Span} {live live' : List Block}
  {entries entries' : List Nat} {mem mem' : Store} {s : Span} {b : Block} {e x : Nat}

lemma mem_foot : x ∈ foot mem e ↔ e ≤ x ∧ x < e + max (sizeAt mem e) 32 := Iff.rfl

lemma mem_range_congr (h : sizeAt mem' e = sizeAt mem e) (hx : x ∈ range mem' e) :
    x ∈ range mem e := by
  unfold range at hx ⊢
  rwa [h] at hx

section

variable (hp : Parts owned (s :: hand) live entries mem)
include hp

lemma Parts.notMem_of_hand (hx : x ∈ s)
    {t : Span} (ht : t ∈ hand ++ (live.map Block.span ++ entries.map (foot mem))) : x ∉ t := by
  intro hxt
  have h1 := (hp.covered x).trans (hp.room x)
  rw [cons_append, cover_cons, if_pos hx] at h1
  have h2 := cover_le_of_mem ht hxt
  split at h1 <;> omega

lemma Parts.outside_entry (he : e ∈ entries)
    (hx : x ∈ s) : x < e ∨ e + max (sizeAt mem e) 32 ≤ x := by
  have ho := hp.notMem_of_hand hx (mem_append_right _ (mem_append_right _ (mem_map_of_mem he)))
  rw [mem_foot] at ho
  omega

lemma Parts.hand_bounds (hx : x ∈ s) : 0 < x ∧ x + 1 < 2 ^ 64 := by
  by_contra ho
  have h1 := (hp.covered x).trans (hp.room x)
  rw [cons_append, cover_cons, if_pos hx, if_neg ho] at h1
  omega

variable (hmem : ∀ x, x < s.start ∨ s.start + s.length ≤ x → mem' x = mem x)
include hmem

lemma Parts.sizeAt_frame (he : e ∈ entries) : sizeAt mem' e = sizeAt mem e := by
  refine (fields_congr fun i hi => hmem _ ?_).1
  by_contra hs
  have ho := hp.outside_entry he (mem_def.mpr (show _ ≤ e + i ∧ _ by omega))
  omega

lemma Parts.frame : Parts owned (s :: hand) live entries mem' := by
  have hlv : ∀ c ∈ live, ∀ i, i < 32 → mem' (c.start + i) = mem (c.start + i) := by
    intro c hc i hi
    refine hmem _ ?_
    by_contra hs
    have hlg := (hp.headers c hc).large
    unfold HEADER_SIZE at hlg
    refine hp.notMem_of_hand (x := c.start + i) (mem_def.mpr (by omega)) (mem_append_right _
      (mem_append_left _ (mem_map_of_mem hc))) (mem_def.mpr ⟨le_add_right _ _, ?_⟩)
    show c.start + i < c.start + c.size
    omega
  have hft : ∀ c ∈ entries, foot mem' c = foot mem c := by
    intro c hc
    unfold foot
    rw [hp.sizeAt_frame hmem hc]
  refine ⟨fun x => ?_, hp.room, fun c hc => ?_⟩
  · rw [map_congr_left hft]
    exact hp.covered x
  have hh := hp.headers c hc
  obtain ⟨-, hsz, hfl, hty⟩ := fields_congr (hlv c hc)
  exact ⟨hh.large, hsz.trans hh.size, hfl.trans hh.flags, hty.trans hh.poolType⟩

end

section

variable (hp : Parts owned hand live entries mem)
include hp

lemma Parts.of_cover
    (hcv : ∀ x, cover hand' x + (cover (live'.map Block.span) x + cover (entries'.map (foot mem)) x)
      ≤ cover hand x + (cover (live.map Block.span) x + cover (entries.map (foot mem)) x))
    (hhd : ∀ c ∈ live', Header mem c) : Parts owned hand' live' entries' mem := by
  refine ⟨fun x => ?_, hp.room, hhd⟩
  have hx := hp.covered x
  simp only [cover_append] at hx ⊢
  exact (hcv x).trans hx

lemma Parts.regroup
    (hcv : ∀ x, cover hand' x ≤ cover hand x) : Parts owned hand' live entries mem :=
  hp.of_cover (fun x => Nat.add_le_add_right (hcv x) _) hp.headers

lemma Parts.comeBack (hb : b ∈ live) : Parts owned (b.span :: hand) (live.erase b) entries mem := by
  refine hp.of_cover (fun x => ?_) fun c hc => hp.headers c (mem_of_mem_erase hc)
  rw [cover_perm ((perm_cons_erase hb).map Block.span) x, map_cons, cover_cons, cover_cons]
  omega

end

lemma Parts.give (hp : Parts owned (b.span :: hand) live entries mem) (hhd : Header mem b) :
    Parts owned hand (b :: live) entries mem := by
  refine hp.of_cover (fun x => ?_) (forall_mem_cons.mpr ⟨hhd, hp.headers⟩)
  rw [map_cons, cover_cons, cover_cons]
  omega

lemma Parts.takeEntry (hp : Parts owned hand live entries mem)
    (hpm : entries.Perm (e :: entries')) :
    Parts owned (foot mem e :: hand) live entries' mem := by
  refine hp.of_cover (fun x => ?_) hp.headers
  rw [cover_perm (hpm.map (foot mem)) x, map_cons, cover_cons, cover_cons]
  omega

lemma cover_shorten (a : Nat) {m n : Nat} (h : m ≤ n) (spans : List Span) (x : Nat) :
    cover (⟨a, m⟩ :: spans) x ≤ cover (⟨a, n⟩ :: spans) x := by
  rw [cover_cons, cover_cons]
  by_cases hx : x ∈ (⟨a, m⟩ : Span)
  · have hx' : x ∈ (⟨a, n⟩ : Span) := by
      rw [Span.mem_def] at hx ⊢
      dsimp only at hx ⊢
      omega
    rw [if_pos hx, if_pos hx']
  · rw [if_neg hx]
    omega

lemma Parts.putEntry {m : Nat} (hp : Parts owned (⟨e, m⟩ :: hand) live entries mem)
    (hlg : 32 ≤ m) (hsz : sizeAt mem e ≤ m) (hpm : entries'.Perm (e :: entries)) :
    Parts owned hand live entries' mem := by
  refine hp.of_cover (fun x => ?_) hp.headers
  have hsh : cover (foot mem e :: hand) x ≤ cover (⟨e, m⟩ :: hand) x :=
    cover_shorten e (by omega) hand x
  rw [cover_cons] at hsh
  rw [cover_perm (hpm.map (foot mem)) x, map_cons, cover_cons]
  omega

variable (hp : Parts owned hand live entries mem)
include hp

lemma Parts.perm_live (hpm : live'.Perm live) : Parts owned hand live' entries mem := by
  refine hp.of_cover (fun x => ?_) fun c hc => hp.headers c (hpm.mem_iff.mp hc)
  rw [cover_perm (hpm.map Block.span) x]

lemma Parts.perm_entries (hpm : entries'.Perm entries) : Parts owned hand live entries' mem := by
  refine hp.of_cover (fun x => ?_) hp.headers
  rw [cover_perm (hpm.map (foot mem)) x]

lemma Parts.rewrite (hb : b ∈ live)
    (hmem : ∀ x, x < b.start ∨ b.start + b.size ≤ x → mem' x = mem x) (hhd : Header mem' b) :
    Parts owned hand live entries mem' :=
  (((hp.comeBack hb).frame hmem).give hhd).perm_live (perm_cons_erase hb)

end

/-! ## Allocation -/

section

variable {mem : Store} {a : Nat}

lemma poke_outside {n v x : Nat} (h : x < a ∨ a + n ≤ x) : poke mem a n v x = mem x :=
  Store.blit_outside mem _ h

lemma readLe_poke_same (n v : Nat) : (poke mem a n v).readLe a n = v % 256 ^ n :=
  Store.readLe_blit_same mem a n v

lemma readLe_poke_disjoint {b n k v : Nat} (h : b + k ≤ a ∨ a + n ≤ b) :
    (poke mem a n v).readLe b k = mem.readLe b k :=
  Store.readLe_blit_disjoint mem _ h

lemma sizeAt_writeFreeBlock {size : Nat} (h : size < 2 ^ 64) (t : PoolType) :
    sizeAt (writeFreeBlock mem a size t) a = size := by
  unfold sizeAt writeFreeBlock
  rw [readLe_poke_disjoint (by omega), readLe_poke_same]
  exact mod_eq_of_lt h

lemma writeFreeBlock_outside {size x : Nat} {t : PoolType} (h : x < a ∨ a + 32 ≤ x) :
    writeFreeBlock mem a size t x = mem x := by
  unfold writeFreeBlock
  rw [poke_outside (by omega), poke_outside (by omega)]

lemma initHeader_outside {total x : Nat} {t : PoolType} (h : x < a ∨ a + 32 ≤ x) :
    initHeader mem a total t x = mem x := by
  unfold initHeader
  rw [poke_outside (by omega), poke_outside (by omega), poke_outside (by omega)]

lemma tagHeader_outside {tag x : Nat} (h : x < a ∨ a + 32 ≤ x) : tagHeader mem a tag x = mem x := by
  unfold tagHeader
  rw [poke_outside (by omega), poke_outside (by omega)]

lemma zero_outside {n x : Nat} (h : x < a ∨ a + n ≤ x) : zero mem a n x = mem x :=
  Store.blit_outside mem _ h

lemma header_initHeader {total : Nat} (t : PoolType) (hlg : HEADER_SIZE ≤ total) :
    Header (initHeader mem a total t) ⟨a, total, t⟩ where
  large := hlg
  size := by
    show (poke (poke (poke mem (a + 4) 4 total) (a + 8) 1 t.code) (a + 9) 1 0).readLe (a + 4) 4
      = total % 2 ^ 32
    rw [readLe_poke_disjoint (by omega), readLe_poke_disjoint (by omega), readLe_poke_same]
    rfl
  flags := readLe_poke_same 1 0
  poolType := by
    show (poke (poke (poke mem (a + 4) 4 total) (a + 8) 1 t.code) (a + 9) 1 0).readLe (a + 8) 1
      = t.code
    rw [readLe_poke_disjoint (by omega), readLe_poke_same]
    exact mod_eq_of_lt t.code_lt

variable {b : Block}

lemma Header.congr {mem' : Store} (h : Header mem b)
    (hs : ∀ i, 4 ≤ i → i < 10 → mem' (b.start + i) = mem (b.start + i)) : Header mem' b := by
  have hrd : ∀ k n, 4 ≤ k → k + n ≤ 10 →
      mem'.readLe (b.start + k) n = mem.readLe (b.start + k) n := by
    intro k n hk hkn
    refine Store.readLe_congr fun i hi => ?_
    rw [add_assoc]
    exact hs (k + i) (by omega) (by omega)
  exact ⟨h.large, (hrd 4 4 (by decide) (by decide)).trans h.size,
    (hrd 9 1 (by decide) (by decide)).trans h.flags,
    (hrd 8 1 (by decide) (by decide)).trans h.poolType⟩

lemma Header.tagHeader (h : Header mem b) (tag : Nat) : Header (tagHeader mem b.start tag) b := by
  refine h.congr fun i h1 h2 => ?_
  unfold Pool.tagHeader
  rw [poke_outside (by omega), poke_outside (by omega)]

lemma Header.zero (h : Header mem b) (n : Nat) : Header (zero mem (b.start + HEADER_SIZE) n) b := by
  refine h.congr fun i h1 h2 => ?_
  unfold HEADER_SIZE
  rw [zero_outside (by omega)]

end

section

variable {owned : List Heap.Live} {live : List Block} {p p' : PoolState} {t : PoolType}

lemma findBlock_spec {mem : Store} {size : Nat} {list before after : List Nat} {block : Nat}
    (h : findBlock mem size list = some (before, block, after)) :
    list = before ++ block :: after ∧ block ≠ 0 ∧ size ≤ sizeAt mem block := by
  induction list generalizing before with
  | nil => cases h
  | cons e list ih =>
    unfold findBlock at h
    by_cases hsk : e = 0 ∨ sizeAt mem e < size
    · rw [if_pos hsk] at h
      obtain ⟨⟨_, _, _⟩, hfn, heq⟩ := map_eq_some_iff.mp h
      cases heq
      obtain ⟨rfl, hne, hle⟩ := ih hfn
      exact ⟨rfl, hne, hle⟩
    rw [if_neg hsk] at h
    cases h
    exact ⟨rfl, by omega, by omega⟩

@[simp]
lemma heap_setFreelist (list : List Nat) : (p.setFreelist t list).heap = p.heap := by
  unfold setFreelist
  split <;> rfl

@[simp]
lemma mem_setFreelist (list : List Nat) : (p.setFreelist t list).mem = p.mem := by
  unfold setFreelist
  split <;> rfl

lemma entries_setFreelist (p : PoolState) (t : PoolType) :
    ∃ other : List Nat, p.entries.Perm ((p.freelist t).filter (· ≠ 0) ++ other) ∧
      ∀ (mem : Store) (list : List Nat),
        ({ p with mem := mem }.setFreelist t list).entries.Perm (list.filter (· ≠ 0) ++ other) := by
  unfold entries freelist setFreelist
  cases t.isPaged with
  | true =>
    refine ⟨p.nonpagedFreelist.filter (· ≠ 0), ?_, fun mem list => ?_⟩
    · rw [filter_append]
      exact perm_append_comm
    · rw [filter_append]
      exact perm_append_comm
  | false =>
    refine ⟨p.pagedFreelist.filter (· ≠ 0), ?_, fun mem list => ?_⟩
    · rw [filter_append]
      rfl
    · show ((list ++ p.pagedFreelist).filter (· ≠ 0)).Perm _
      rw [filter_append]

lemma entries_serve {before after : List Nat} {block : Nat} (mem : Store)
    (hli : p.freelist t = before ++ block :: after) (hne : block ≠ 0) : p.entries.Perm (block ::
      ({ p with mem := mem }.setFreelist t (before ++ 0 :: after)).entries) := by
  obtain ⟨other, hold, hw⟩ := entries_setFreelist p t
  refine hold.trans (.trans ?_ ((hw mem _).cons block).symm)
  rw [hli, filter_append, filter_append, filter_cons_of_pos (by simpa using hne)]
  exact perm_middle.append_right other

structure SplitsAt (p : PoolState) (t : PoolType) (size : Nat) (before : List Nat) (block : Nat)
    (after : List Nat) : Prop where
  layout : (layoutOf size).isSome
  found : findBlock p.mem size (p.freelist t) = some (before, block, after)
  rest : sizeAt p.mem block - size ≥ MIN_FREE_BLOCK_SIZE

def Splits (p : PoolState) (t : PoolType) (size : Nat) : Prop :=
  ∃ before block after, SplitsAt p t size before block after

instance (p : PoolState) (t : PoolType) (size : Nat) : Decidable (Splits p t size) :=
  decidable_of_iff ((layoutOf size).isSome ∧ ∃ found, found ∈ findBlock p.mem size (p.freelist t) ∧
        sizeAt p.mem found.2.1 - size ≥ MIN_FREE_BLOCK_SIZE)
    ⟨fun ⟨hlayout, found, hfound, hrest⟩ => ⟨found.1, found.2.1, found.2.2, hlayout, hfound, hrest⟩,
      fun ⟨before, block, after, hsplit⟩ =>
        ⟨hsplit.layout, (before, block, after), hsplit.found, hsplit.rest⟩⟩

lemma allocateFromFreelist_spec {size : Nat} (hp : Parts owned [] live p.entries p.mem)
    (hsz : HEADER_SIZE ≤ size) (hly : (layoutOf size).isSome)
    (hsp : ¬ Splits p t size) {found : Option Nat}
    (ha : p.allocateFromFreelist t size = some (found, p')) : (found = none ∧ p' = p) ∨
    ∃ block, found = some (block + HEADER_SIZE) ∧ block ∈ p.entries ∧ p'.heap = p.heap ∧
      Parts owned [] (⟨block, size, t⟩ :: live) p'.entries p'.mem ∧
      (∀ e ∈ p'.entries, e ∈ p.entries ∧ sizeAt p'.mem e = sizeAt p.mem e) ∧
      Header p'.mem ⟨block, size, t⟩ := by
  unfold allocateFromFreelist at ha
  cases hfi : findBlock p.mem size (p.freelist t) with
  | none =>
    rw [hfi] at ha
    cases ha
    exact .inl ⟨rfl, rfl⟩
  | some result =>
    obtain ⟨before, block, after⟩ := result
    rw [hfi] at ha
    obtain ⟨hli, hne, _⟩ := findBlock_spec hfi
    have hwh : ¬ sizeAt p.mem block - size ≥ MIN_FREE_BLOCK_SIZE := fun h =>
      hsp ⟨before, block, after, hly, hfi, h⟩
    have hsp' : splitBlock p.mem t block size = some (0, p.mem) := if_neg hwh
    simp only [hsp'] at ha
    cases ha
    obtain ⟨mem', hm'⟩ : ∃ mem', mem' = zero (initHeader p.mem block size t) (block + HEADER_SIZE)
        (size - HEADER_SIZE) := ⟨_, rfl⟩
    rw [← hm']
    have hsv := entries_serve mem' hli hne
    have hhd : Header mem' ⟨block, size, t⟩ := by
      rw [hm']
      exact (header_initHeader t hsz).zero _
    -- the foot of the entry is cut down to what was asked for
    have hha : Parts owned [Block.span ⟨block, size, t⟩] live
        ({ p with mem := mem' }.setFreelist t (before ++ 0 :: after)).entries p.mem :=
      (hp.takeEntry hsv).regroup
        (cover_shorten block (show size ≤ max (sizeAt p.mem block) 32 by omega) [])
    have ho : ∀ x, x < block ∨ block + size ≤ x → mem' x = p.mem x := by
      intro x hx
      unfold HEADER_SIZE at hsz hm'
      rw [hm', zero_outside (by omega), initHeader_outside (by omega)]
    refine .inr ⟨block, rfl, hsv.mem_iff.mpr mem_cons_self, by simp, ?_, ?_, ?_⟩
    · rw [mem_setFreelist]
      exact (hha.frame ho).give hhd
    · intro e he
      rw [mem_setFreelist]
      exact ⟨hsv.mem_iff.mpr (mem_cons_of_mem _ he), hha.sizeAt_frame ho he⟩
    · rw [mem_setFreelist]
      exact hhd

lemma Parts.fromHeap {entries : List Nat} {mem : Store} {l : Heap.Live}
    (hp : Parts owned [] live entries mem)
    (hro : ∀ x, cover ((l :: owned).map payload) x ≤ if 0 < x ∧ x + 1 < 2 ^ 64 then 1 else 0) :
    Parts (l :: owned) [l.payload] live entries mem := by
  refine ⟨fun x => ?_, hro, hp.headers⟩
  have hx := hp.covered x
  rw [nil_append] at hx
  rw [cons_append, nil_append, cover_cons, map_cons, cover_cons]
  omega

lemma allocRaw_spec {size tag ptr padded : Nat} (hp : Parts owned [] live p.entries p.mem)
    (hpd : alignUp 64 size 16 = some padded) (hsp : ¬ Splits p t (HEADER_SIZE + padded))
    (hhp : ∀ layout block heap, p.heap.alloc layout = some (block, heap) → block ≠ 0 →
      ∀ x, cover ((⟨block, layout⟩ :: owned).map payload) x
        ≤ if 0 < x ∧ x + 1 < 2 ^ 64 then 1 else 0)
    (ha : p.allocRaw size t tag = some (ptr, p')) :
    (ptr = 0 ∧ p'.entries = p.entries ∧ p'.mem = p.mem ∧ (p'.heap = p.heap ∨
      ∃ layout, p.heap.alloc layout = some (0, p'.heap))) ∨ ∃ owned' : List Heap.Live,
      ((owned' = owned ∧ p'.heap = p.heap) ∨ ∃ layout block, p.heap.alloc layout
        = some (block, p'.heap) ∧ block ≠ 0 ∧ owned' = ⟨block, layout⟩ :: owned) ∧
      HEADER_SIZE ≤ ptr ∧
      Parts owned' [] (⟨ptr - HEADER_SIZE, HEADER_SIZE + padded, t⟩ :: live) p'.entries p'.mem ∧
      ∀ e ∈ p'.entries, e ∈ p.entries ∧ sizeAt p'.mem e = sizeAt p.mem e := by
  unfold allocRaw at ha
  simp only [hpd, bind_eq_bind, bind_some] at ha
  obtain ⟨total, htt, ha⟩ := bind_eq_some_iff.mp ha
  have htt' : total = HEADER_SIZE + padded := (add_eq_some_iff.mp htt).2
  have hlg : HEADER_SIZE ≤ total := by omega
  rw [← htt'] at hsp ⊢
  cases hly : layoutOf total with rw [hly] at ha
  | none =>
    cases ha
    exact .inl ⟨rfl, rfl, rfl, .inl rfl⟩
  | some layout =>
    have hlayoutSize : layout.size = total := by
      unfold layoutOf at hly
      split at hly <;> cases hly
      rfl
    obtain ⟨⟨_, p1⟩, hf, hr⟩ := bind_eq_some_iff.mp ha
    have hso : (layoutOf total).isSome := by
      rw [hly]
      rfl
    rcases allocateFromFreelist_spec hp hlg hso hsp hf with
      ⟨rfl, rfl⟩ | ⟨block, rfl, -, hheap1, hps, hes, hhd⟩
    · -- from the heap
      obtain ⟨⟨block, heap⟩, hbl, hrs⟩ := bind_eq_some_iff.mp hr
      dsimp only at hrs
      by_cases h0 : block = 0
      · rw [if_pos h0] at hrs
        cases hrs
        subst h0
        exact .inl ⟨rfl, rfl, rfl, .inr ⟨layout, hbl⟩⟩
      rw [if_neg h0] at hrs
      cases hrs
      have hsn : payload ⟨block, layout⟩ = Block.span ⟨block, total, t⟩ := by
        unfold payload Block.span
        rw [hlayoutSize]
      have hha := hp.fromHeap (hhp layout block heap hbl h0)
      rw [hsn] at hha
      have hhd : Header (zero (tagHeader (initHeader p1.mem block total t) block tag)
          (block + HEADER_SIZE) padded) ⟨block, total, t⟩ :=
        ((header_initHeader t hlg).tagHeader tag).zero padded
      have ho : ∀ x, x < block ∨ block + total ≤ x →
          zero (tagHeader (initHeader p1.mem block total t) block tag) (block + HEADER_SIZE) padded x
            = p1.mem x := by
        intro x hx
        unfold HEADER_SIZE at hlg htt' ⊢
        rw [zero_outside (by omega), tagHeader_outside (by omega), initHeader_outside (by omega)]
      refine .inr ⟨⟨block, layout⟩ :: owned, .inr ⟨layout, block, hbl, h0, rfl⟩,
        Nat.le_add_left _ _, ?_, fun e he => ⟨he, ?_⟩⟩
      · exact (hha.frame ho).give hhd
      · exact hha.sizeAt_frame ho he
    -- from the free list; the tag is written into the header
    cases hr
    have hmem : (⟨block, total, t⟩ : Block) ∈ (⟨block, total, t⟩ : Block) :: live := mem_cons_self
    have hhd' : Header (tagHeader p1.mem block tag) ⟨block, total, t⟩ := hhd.tagHeader tag
    have ho : ∀ x, x < block ∨ block + total ≤ x → tagHeader p1.mem block tag x = p1.mem x := by
      intro x hx
      unfold HEADER_SIZE at hlg
      exact tagHeader_outside (by omega)
    refine .inr ⟨owned, .inl ⟨rfl, hheap1⟩, Nat.le_add_left _ _, ?_, fun e he => ?_⟩
    · exact hps.rewrite hmem ho hhd'
    obtain ⟨hold, hsz⟩ := hes e he
    refine ⟨hold, Eq.trans ?_ hsz⟩
    have hba := hps.comeBack hmem
    exact hba.sizeAt_frame ho he

end

/-! ## Release -/

section

variable {owned : List Heap.Live} {hand : List Span} {live : List Block} {entries : List Nat}
  {mem : Store} {p : PoolState} {t : PoolType}

/-- What the loop says about the block that it has found. -/
def Neighbouring (mem : Store) (blockStart blockEnd offset : Nat) (list : List Nat) :
    PoolState.Neighbour → Prop
  | .before e => e ∈ list ∧ e ≠ 0 ∧ e + sizeAt mem e = blockStart
  | .after i e => ∃ before after, list = before ++ e :: after ∧ i = offset + before.length ∧ e ≠ 0 ∧
      blockEnd = e
  | .none _ => True

lemma findNeighbour_spec {blockStart blockEnd length : Nat} (i insertPos : Nat) (list : List Nat)
    (hsm : ∀ e ∈ list, e ≠ 0 → e + sizeAt mem e < 2 ^ 64) :
    ∃ found, findNeighbour mem blockStart blockEnd length i insertPos list = some found ∧
      Neighbouring mem blockStart blockEnd i list found := by
  induction list generalizing i insertPos with
  | nil => exact ⟨_, rfl, trivial⟩
  | cons e list ih =>
    have hr : ∀ c ∈ list, c ≠ 0 → c + sizeAt mem c < 2 ^ 64 := fun c hc =>
      hsm c (mem_cons_of_mem _ hc)
    -- what is found further on is found in the whole list
    have hwk : ∀ found, Neighbouring mem blockStart blockEnd (i + 1) list found →
        Neighbouring mem blockStart blockEnd i (e :: list) found := by
      intro found hfn
      cases found with
      | before c => exact ⟨mem_cons_of_mem _ hfn.1, hfn.2⟩
      | after k c =>
        obtain ⟨before, after, rfl, rfl, hc, he⟩ := hfn
        refine ⟨e :: before, after, rfl, ?_, hc, he⟩
        rw [length_cons]
        omega
      | none pos => trivial
    unfold findNeighbour
    by_cases h0 : e = 0
    · rw [if_pos h0]
      obtain ⟨found, heq, hfn⟩ := ih (i + 1) insertPos hr
      exact ⟨found, heq, hwk found hfn⟩
    rw [if_neg h0]
    simp only [add_eq (hsm e mem_cons_self h0), bind_some]
    by_cases hbf : e + sizeAt mem e = blockStart
    · rw [if_pos hbf]
      exact ⟨_, rfl, mem_cons_self, h0, hbf⟩
    rw [if_neg hbf]
    by_cases haf : blockEnd = e
    · rw [if_pos haf]
      exact ⟨_, rfl, [], list, rfl, rfl, h0, haf⟩
    rw [if_neg haf]
    obtain ⟨found, heq, hfn⟩ := ih (i + 1) _ hr
    exact ⟨found, heq, hwk found hfn⟩

lemma Parts.enter {e m total : Nat} {entries' : List Nat}
    (hp : Parts owned (⟨e, m⟩ :: hand) live entries mem) (hpm : entries'.Perm (e :: entries))
    (hm : 32 ≤ m) (htt : total ≤ m) (hsm : total < 2 ^ 64) :
    Parts owned hand live entries' (poke mem e 8 total) ∧ sizeAt (poke mem e 8 total) e = total ∧
    ∀ c ∈ entries, sizeAt (poke mem e 8 total) c = sizeAt mem c := by
  have ho : ∀ x, x < e ∨ e + m ≤ x → poke mem e 8 total x = mem x := fun x hx =>
    poke_outside (by omega)
  have hsz : sizeAt (poke mem e 8 total) e = total :=
    (readLe_poke_same 8 _).trans (mod_eq_of_lt hsm)
  exact ⟨(hp.frame ho).putEntry hm (hsz.trans_le htt) hpm, hsz, fun c hc => hp.sizeAt_frame ho hc⟩

lemma Parts.mergeBefore {e start m total : Nat}
    (hp : Parts owned (⟨start, m⟩ :: hand) live entries mem) (he : e ∈ entries)
    (hen : e + sizeAt mem e = start) (hm : 32 ≤ m) (htt : total ≤ m)
    (hsm : sizeAt mem e + total < 2 ^ 64) :
    Parts owned hand live entries (poke mem e 8 (sizeAt mem e + total)) ∧
    sizeAt (poke mem e 8 (sizeAt mem e + total)) e = sizeAt mem e + total ∧
    ∀ c ∈ entries.erase e, sizeAt (poke mem e 8 (sizeAt mem e + total)) c = sizeAt mem c := by
  -- the entry is as long as it says: its first 32 bytes end before the freed block starts
  have hlg : 32 ≤ sizeAt mem e := by
    have ho := hp.outside_entry (x := start) he (mem_mk.mpr (by omega))
    omega
  have hpm : entries.Perm (e :: entries.erase e) := perm_cons_erase he
  have hjn : Parts owned (⟨e, sizeAt mem e + m⟩ :: hand) live (entries.erase e) mem := by
    refine (hp.takeEntry hpm).regroup fun x => ?_
    rw [cover_cut, hen]
    unfold foot
    rw [max_eq_left hlg]
  exact hjn.enter hpm (by omega) (by omega) hsm

lemma Parts.mergeAfter {e start m total : Nat} {entries' : List Nat}
    (hp : Parts owned (⟨start, m⟩ :: hand) live entries mem) (hpm : entries.Perm (e :: entries'))
    (hen : start + total = e) (hm : 32 ≤ m) (htt : total ≤ m)
    (hsm : total + sizeAt mem e < 2 ^ 64) :
    Parts owned hand live (start :: entries') (poke mem start 8 (total + sizeAt mem e)) ∧
    sizeAt (poke mem start 8 (total + sizeAt mem e)) start = total + sizeAt mem e ∧
    ∀ c ∈ entries', sizeAt (poke mem start 8 (total + sizeAt mem e)) c = sizeAt mem c := by
  have he : e ∈ entries := hpm.mem_iff.mpr mem_cons_self
  -- the freed block is as long as it says: the entry starts behind it
  have hex : total = m := by
    by_contra hne
    have ho := hp.outside_entry (x := e) he (mem_mk.mpr (by omega))
    omega
  subst hex
  have hjn : Parts owned (⟨start, total + max (sizeAt mem e) 32⟩ :: hand) live entries' mem := by
    refine (hp.takeEntry hpm).regroup fun x => ?_
    rw [cover_cut, hen]
    exact (cover_perm (.swap _ _ _) x).le
  exact hjn.enter (.refl _) (by omega) (by omega) hsm

def PoolState.Free (p : PoolState) (x : Nat) : Prop := ∃ e ∈ p.entries, x ∈ range p.mem e

lemma Parts.entry_bounds {e : Nat} (hp : Parts owned hand live entries mem) (he : e ∈ entries) :
    0 < e ∧ e + sizeAt mem e < 2 ^ 64 := by
  have htk := hp.takeEntry (perm_cons_erase he)
  have hfs := htk.hand_bounds (x := e) (mem_foot.mpr (by omega))
  have hla := htk.hand_bounds (x := e + max (sizeAt mem e) 32 - 1) (mem_foot.mpr (by omega))
  omega

lemma entries_replace {before after : List Nat} {e : Nat} (hli : p.freelist t = before ++ e :: after)
    (hne : e ≠ 0) {block : Nat} (hbl : block ≠ 0) (mem : Store) :
    ∃ entries', p.entries.Perm (e :: entries') ∧
      ({ p with mem := mem }.setFreelist t (before ++ block :: after)).entries.Perm
        (block :: entries') := by
  obtain ⟨other, hold, hw⟩ := entries_setFreelist p t
  refine ⟨(before ++ after).filter (· ≠ 0) ++ other, hold.trans ?_, (hw mem _).trans ?_⟩
  · rw [hli, filter_append, filter_append, filter_cons_of_pos (by simpa using hne)]
    exact perm_middle.append_right other
  · rw [filter_append, filter_append, filter_cons_of_pos (by simpa using hbl)]
    exact perm_middle.append_right other

lemma entries_enter {list : List Nat} {block : Nat} (hpm : list.Perm (block :: p.freelist t))
    (hbl : block ≠ 0) (mem : Store) :
    ({ p with mem := mem }.setFreelist t list).entries.Perm (block :: p.entries) := by
  obtain ⟨other, hold, hw⟩ := entries_setFreelist p t
  refine (hw mem list).trans (.trans ?_ (hold.cons block).symm)
  have hfl := hpm.filter (· ≠ 0)
  rw [filter_cons_of_pos (by simpa using hbl)] at hfl
  exact hfl.append_right other

lemma mem_entries_of_freelist {e : Nat} (he : e ∈ p.freelist t) (hne : e ≠ 0) : e ∈ p.entries := by
  obtain ⟨_, hold, -⟩ := entries_setFreelist p t
  exact hold.mem_iff.mpr (mem_append_left _ (mem_filter.mpr ⟨he, by simpa using hne⟩))

lemma freeToFreelist_spec {start m total : Nat}
    (hp : Parts owned (⟨start, m⟩ :: hand) live p.entries p.mem) (hm : 32 ≤ m) (htt : total ≤ m) :
    ∃ p', p.freeToFreelist start total t = some p' ∧ p'.heap = p.heap ∧
      Parts owned hand live p'.entries p'.mem ∧
      ∀ x, p'.Free x → p.Free x ∨ x ∈ (⟨start, total⟩ : Span) := by
  have hfs := hp.hand_bounds (x := start) (mem_mk.mpr (by omega))
  have hla := hp.hand_bounds (x := start + m - 1) (mem_mk.mpr (by omega))
  obtain ⟨mem', hm'⟩ : ∃ mem', mem' = writeFreeBlock p.mem start total t := ⟨_, rfl⟩
  have ho : ∀ x, x < start ∨ start + m ≤ x → mem' x = p.mem x := by
    intro x hx
    rw [hm', writeFreeBlock_outside (by omega)]
  have hp' := hp.frame ho
  have hs : ∀ c ∈ p.entries, sizeAt mem' c = sizeAt p.mem c := fun c hc => hp.sizeAt_frame ho hc
  have hsz : sizeAt mem' start = total := by
    rw [hm']
    exact sizeAt_writeFreeBlock (by omega) t
  obtain ⟨found, hfn, hnr⟩ := @findNeighbour_spec mem' start (start + total)
    (p.freelist t).length 0 (p.freelist t).length (p.freelist t)
    fun e he hne => (hp'.entry_bounds (mem_entries_of_freelist he hne)).2
  unfold freeToFreelist
  simp only [← hm', bind_eq_bind, add_eq (show start + total < 2 ^ 64 by omega), bind_some, hfn]
  cases found with
  | before e =>
    obtain ⟨he, hne, hed⟩ := hnr
    have hen := mem_entries_of_freelist he hne
    have hsm : sizeAt mem' e + total < 2 ^ 64 := by omega
    obtain ⟨hps, hmg, hot⟩ := hp'.mergeBefore hen hed hm htt hsm
    simp only [add_eq hsm]
    refine ⟨_, rfl, rfl, hps, ?_⟩
    rintro x ⟨c, hc, hx⟩
    have hc' : c ∈ p.entries := hc
    by_cases hce : c = e
    · -- the entry has grown by the block
      subst hce
      have hx' : c ≤ x ∧ x < c + sizeAt (poke mem' c 8 (sizeAt mem' c + total)) c := hx
      have hold := hs c hc'
      by_cases hin : x < start
      · exact .inl ⟨c, hc', mem_mk.mpr (by omega)⟩
      · exact .inr (mem_mk.mpr (by omega))
    · have hkp := hot c ((mem_erase_of_ne hce).mpr hc')
      exact .inl ⟨c, hc', mem_range_congr (hkp.trans (hs c hc')) hx⟩
  | after i e =>
    obtain ⟨before, after, hli, rfl, hne, hed⟩ := hnr
    have hst : (p.freelist t).set (0 + before.length) start = before ++ start :: after := by
      rw [hli, Nat.zero_add, set_append_right _ _ (le_refl _), Nat.sub_self]
      rfl
    have hs0 : start ≠ 0 := by omega
    obtain ⟨_, hold, hw⟩ := entries_replace hli hne hs0 (poke mem' start 8 (total + sizeAt mem' e))
    have hen : e ∈ p.entries := hold.mem_iff.mpr mem_cons_self
    have hbd := hp'.entry_bounds hen
    have hsm : total + sizeAt mem' e < 2 ^ 64 := by omega
    obtain ⟨hps, hmg, hot⟩ := hp'.mergeAfter hold hed hm htt hsm
    simp only [hsz, add_eq hsm, hst]
    refine ⟨_, rfl, by simp, ?_, ?_⟩
    · rw [mem_setFreelist]
      exact hps.perm_entries hw
    rintro x ⟨c, hc, hx⟩
    rw [mem_setFreelist] at hx
    rcases mem_cons.mp (hw.mem_iff.mp hc) with rfl | hc'
    · have hx' : c ≤ x ∧ x < c + sizeAt (poke mem' c 8 (total + sizeAt mem' e)) c := hx
      have hkp := hs e hen
      by_cases hin : x < e
      · exact .inr (mem_mk.mpr (by omega))
      · exact .inl ⟨e, hen, mem_mk.mpr (by omega)⟩
    · have hc'' : c ∈ p.entries := hold.mem_iff.mpr (mem_cons_of_mem _ hc')
      exact .inl ⟨c, hc'', mem_range_congr ((hot c hc').trans (hs c hc'')) hx⟩
  | none insertPos =>
    obtain ⟨list, hli⟩ : ∃ list, list = if insertPos ≥ (p.freelist t).length then
        p.freelist t ++ [start] else (p.freelist t).insertIdx insertPos start := ⟨_, rfl⟩
    have hpm : list.Perm (start :: p.freelist t) := by
      rw [hli]
      split
      · exact perm_append_singleton _ _
      · exact perm_insertIdx _ _ (by omega)
    have hs0 : start ≠ 0 := by omega
    have hw := entries_enter hpm hs0 mem'
    simp only [← hli]
    refine ⟨_, rfl, by simp, ?_, ?_⟩
    · rw [mem_setFreelist]
      exact hp'.putEntry hm (by omega) hw
    rintro x ⟨c, hc, hx⟩
    rw [mem_setFreelist] at hx
    rcases mem_cons.mp (hw.mem_iff.mp hc) with rfl | hc'
    · refine .inr ?_
      unfold range at hx
      rwa [hsz] at hx
    · exact .inl ⟨c, hc', mem_range_congr (hs c hc') hx⟩

lemma free_spec {b : Block} (hp : Parts owned [] live p.entries p.mem) (hb : b ∈ live) :
    ∃ p', p.free (b.start + HEADER_SIZE) = some p' ∧ p'.heap = p.heap ∧
      Parts owned [] (live.erase b) p'.entries p'.mem ∧ ∀ x, p'.Free x → p.Free x ∨ x ∈ b.span := by
  obtain ⟨hlg, hsz, hfl, hty⟩ := hp.headers b hb
  unfold HEADER_SIZE at hlg
  obtain ⟨mem', hm'⟩ : ∃ mem', mem' = poke p.mem (b.start + 9) 1 1 := ⟨_, rfl⟩
  have ho : ∀ x, x < b.start ∨ b.start + b.size ≤ x → mem' x = p.mem x := by
    intro x hx
    rw [hm', poke_outside (by omega)]
  have hha := hp.comeBack hb
  have hsz' : blockSizeAt mem' b.start = b.size % 2 ^ 32 := by
    rw [hm', ← hsz]
    exact readLe_poke_disjoint (by omega)
  have hty' : poolTypeAt mem' b.start = b.poolType.code := by
    rw [hm', ← hty]
    exact readLe_poke_disjoint (by omega)
  obtain ⟨p', hf, hhp, hps, hby⟩ :=
    @freeToFreelist_spec owned [] (live.erase b) { p with mem := mem' } b.poolType b.start b.size
      (b.size % 2 ^ 32) (hha.frame ho) hlg (mod_le _ _)
  refine ⟨p', ?_, hhp, hps, fun x hx => ?_⟩
  · unfold free
    have hsb : sub (b.start + HEADER_SIZE) HEADER_SIZE = some b.start := sub_eq_some_iff.mpr rfl
    have hcl : ¬ (flagsAt p.mem b.start &&& 1 ≠ 0) := by
      rw [hfl]
      decide
    have hmk : flagsAt p.mem b.start ||| 1 = 1 := by
      rw [hfl]
      rfl
    simp only [hsb, bind_eq_bind, bind_some, if_neg hcl, hmk, ← hm', hsz',
      hty', PoolType.ofCode_code]
    exact hf
  rcases hby x hx with ⟨e, he, hx⟩ | hx
  · exact .inl ⟨e, he, mem_range_congr (hha.sizeAt_frame ho he) hx⟩
  · have hx' : b.start ≤ x ∧ x < b.start + b.size % 2 ^ 32 := hx
    exact .inr (mem_mk.mpr (by omega))

end

/-! ## Runs -/

/-- With the blocks that callers hold, what was ever freed, and the allocations of other users of
the heap. -/
structure State where
  pool : PoolState
  live : List Block
  freed : List Span
  others : List Heap.Live

inductive Op where
  | allocate (t : PoolType) (size : Nat)
  | allocateTagged (t : PoolType) (size tag : Nat)
  | free (b : Block)
  /-- The caller writes a byte of its block. -/
  | write (b : Block) (addr v : Nat)
  /-- Another user of the heap. -/
  | heap (op : Heap.Op)

def allowed (s : State) : Op → Prop
  | .allocate _ _ => True
  | .allocateTagged _ _ _ => True
  | .free b => b ∈ s.live
  | .write b addr _ => b ∈ s.live ∧ b.start + HEADER_SIZE ≤ addr ∧ addr < b.start + b.size
  | .heap op => Heap.allowed ⟨s.pool.heap, s.others⟩ op

instance (s : State) (op : Op) : Decidable (allowed s op) :=
  match op with
  | .allocate _ _ => inferInstanceAs (Decidable True)
  | .allocateTagged _ _ _ => inferInstanceAs (Decidable True)
  | .free b => inferInstanceAs (Decidable (b ∈ s.live))
  | .write b addr _ =>
    inferInstanceAs (Decidable (b ∈ s.live ∧ b.start + HEADER_SIZE ≤ addr ∧ addr < b.start + b.size))
  | .heap op => inferInstanceAs (Decidable (Heap.allowed ⟨s.pool.heap, s.others⟩ op))

/-- The caller gets the block of that pointer, unless it is null. -/
def State.serve (s : State) (t : PoolType) (padded ptr : Nat) (pool : PoolState) : State :=
  { s with
    pool := pool
    live := if ptr = 0 then s.live else ⟨ptr - HEADER_SIZE, HEADER_SIZE + padded, t⟩ :: s.live }

def step : Op → State → Option State
  | .allocate t size, s => do
    let padded ← alignUp 64 size 16
    let (ptr, pool) ← s.pool.allocate t size
    some (s.serve t padded ptr pool)
  | .allocateTagged t size tag, s => do
    let padded ← alignUp 64 size 16
    let (ptr, pool) ← s.pool.allocateTagged t size tag
    some (s.serve t padded ptr pool)
  | .free b, s => do
    let pool ← s.pool.free (b.start + HEADER_SIZE)
    some { s with pool := pool, live := s.live.erase b, freed := b.span :: s.freed }
  | .write _ addr v, s => some { s with pool := { s.pool with mem := poke s.pool.mem addr 1 v } }
  | .heap op, s => do
    let heap ← Heap.step op ⟨s.pool.heap, s.others⟩
    some { s with pool := { s.pool with heap := heap.heap }, others := heap.live }

/-- An empty pool over a heap that was just configured, and memory with any contents. -/
def start (words : Nat → Nat) (mem : Store) (base size : Nat) : State :=
  ⟨⟨(Heap.start words base size).heap, mem, [], []⟩, [], [], []⟩

/-- What holds between two calls as long as no block was split. -/
def Inv (base size : Nat) (s : State) : Prop :=
  ∃ owned, Heap.Inv base size ⟨s.pool.heap, s.others ++ owned⟩ ∧
    Parts owned [] s.live s.pool.entries s.pool.mem ∧ ∀ x, s.pool.Free x → ∃ f ∈ s.freed, x ∈ f

def Op.request : Op → Option (PoolType × Nat)
  | .allocate t size => some (t, size)
  | .allocateTagged t size _ => some (t, size)
  | _ => none

structure SplitsBlock (s : State) (op : Op) (t : PoolType) (total : Nat) (before : List Nat)
    (block : Nat) (after : List Nat) : Prop where
  request : ∃ size padded, op.request = some (t, size) ∧ alignUp 64 size 16 = some padded ∧
    total = HEADER_SIZE + padded
  splits : SplitsAt s.pool t total before block after

def NoSplit (s : State) (op : Op) : Prop :=
  ∀ t total before block after, ¬ SplitsBlock s op t total before block after

lemma noSplit_iff {s : State} {op : Op} : NoSplit s op ↔
    ∀ r, r ∈ op.request → ∀ padded, padded ∈ alignUp 64 r.2 16 →
      ¬ Splits s.pool r.1 (HEADER_SIZE + padded) := by
  constructor
  · rintro hno ⟨t, size⟩ hrq padded hpd ⟨before, block, after, hsp⟩
    exact hno t _ before block after ⟨⟨size, padded, hrq, hpd, rfl⟩, hsp⟩
  · rintro hno t total before block after ⟨⟨size, padded, hrq, hpd, rfl⟩, hsp⟩
    exact hno (t, size) hrq padded hpd ⟨before, block, after, hsp⟩

instance (s : State) (op : Op) : Decidable (NoSplit s op) := decidable_of_iff _ noSplit_iff.symm

section

variable {base size : Nat} {s s' : State}

lemma inv_start (words : Nat → Nat) (mem : Store) (hb : 8 ∣ base) :
    Inv base size (start words mem base size) := by
  refine ⟨[], Heap.inv_start words hb, ⟨fun x => le_refl _, fun x => zero_le _, nofun⟩, ?_⟩
  rintro x ⟨e, he, -⟩
  cases he

lemma Inv.poke {b : Block} (hv : Inv base size s) (hb : b ∈ s.live) {addr n : Nat} (v : Nat)
    (had : b.start + 10 ≤ addr) (hn : addr + n ≤ b.start + b.size) :
    Inv base size { s with pool := { s.pool with mem := poke s.pool.mem addr n v } } := by
  obtain ⟨owned, hhp, hp, hfd⟩ := hv
  have ho : ∀ x, x < b.start ∨ b.start + b.size ≤ x →
      Pool.poke s.pool.mem addr n v x = s.pool.mem x := fun x hx => poke_outside (by omega)
  have hhd : Header (Pool.poke s.pool.mem addr n v) b :=
    (hp.headers b hb).congr fun i _ hi => poke_outside (by omega)
  refine ⟨owned, hhp, hp.rewrite hb ho hhd, ?_⟩
  rintro x ⟨e, he, hx⟩
  exact hfd x ⟨e, he, mem_range_congr ((hp.comeBack hb).sizeAt_frame ho he) hx⟩

lemma Heap.Inv.serve {heap heap' : Heap.KernelHeap} {others owned : List Heap.Live}
    (hi : Heap.Inv base size ⟨heap, others ++ owned⟩) {layout : Heap.Layout} {block : Nat}
    (ha : heap.alloc layout = some (block, heap')) :
    if block = 0 then Heap.Inv base size ⟨heap', others ++ owned⟩
    else Heap.Inv base size ⟨heap', others ++ ⟨block, layout⟩ :: owned⟩ := by
  have hs : Heap.step (.alloc layout) ⟨heap, others ++ owned⟩
      = some ⟨heap', if block = 0 then others ++ owned else ⟨block, layout⟩ :: (others ++ owned)⟩ := by
    unfold Heap.step
    simp only [ha, bind_eq_bind, bind_some]
  have hnx := Heap.inv_step hi (show Heap.allowed _ (.alloc layout) from trivial) hs
  by_cases h0 : block = 0
  · rw [if_pos h0] at hnx ⊢
    exact hnx
  · rw [if_neg h0] at hnx ⊢
    exact hnx.perm perm_middle

lemma Heap.Inv.cover_owned {heap : Heap.KernelHeap} {others owned : List Heap.Live}
    (hi : Heap.Inv base size ⟨heap, others ++ owned⟩) (x : Nat) :
    cover (owned.map payload) x ≤ if 0 < x ∧ x + 1 < 2 ^ 64 then 1 else 0 := by
  refine le_trans ?_ (hi.cover_payload_le x)
  rw [map_append, cover_append]
  exact le_add_left _ _

lemma Inv.allocRaw {t : PoolType} {request tag padded ptr : Nat} {pool : PoolState}
    (hi : Inv base size s) (hpd : alignUp 64 request 16 = some padded)
    (hsp : ¬ Splits s.pool t (HEADER_SIZE + padded))
    (ha : s.pool.allocRaw request t tag = some (ptr, pool)) :
    Inv base size (s.serve t padded ptr pool) := by
  obtain ⟨owned, hhp, hp, hfd⟩ := hi
  have hro : ∀ layout block heap, s.pool.heap.alloc layout = some (block, heap) → block ≠ 0 →
      ∀ x, cover ((⟨block, layout⟩ :: owned).map payload) x
        ≤ if 0 < x ∧ x + 1 < 2 ^ 64 then 1 else 0 := by
    intro layout block heap hbl hne x
    have hsv := Heap.Inv.serve hhp hbl
    rw [if_neg hne] at hsv
    exact Heap.Inv.cover_owned hsv x
  rcases allocRaw_spec hp hpd hsp hro ha with
    ⟨rfl, hes, hmem, hs⟩ | ⟨owned', hon, hpt, hps, hby⟩
  · -- nothing was allocated, but the heap has looked
    refine ⟨owned, ?_, ?_, ?_⟩
    · rcases hs with hs | ⟨layout, hbl⟩
      · show Heap.Inv base size ⟨pool.heap, _⟩
        rw [hs]
        exact hhp
      · have hsv := Heap.Inv.serve hhp hbl
        rwa [if_pos rfl] at hsv
    · show Parts owned [] s.live pool.entries pool.mem
      rw [hes, hmem]
      exact hp
    rintro x ⟨e, he, hx⟩
    refine hfd x ⟨e, hes ▸ he, ?_⟩
    rw [← hmem]
    exact hx
  have hne : ptr ≠ 0 := by
    unfold HEADER_SIZE at hpt
    omega
  refine ⟨owned', ?_, ?_, ?_⟩
  · rcases hon with ⟨rfl, hs⟩ | ⟨layout, block, hbl, hbl', rfl⟩
    · show Heap.Inv base size ⟨pool.heap, _⟩
      rw [hs]
      exact hhp
    · have hsv := Heap.Inv.serve hhp hbl
      rwa [if_neg hbl'] at hsv
  · show Parts owned' [] (if ptr = 0 then _ else _) pool.entries pool.mem
    rw [if_neg hne]
    exact hps
  rintro x ⟨e, he, hx⟩
  obtain ⟨hold, hsz⟩ := hby e he
  exact hfd x ⟨e, hold, mem_range_congr hsz hx⟩

lemma inv_step {op : Op} (hi : Inv base size s) (hal : allowed s op ∧ NoSplit s op)
    (hst : step op s = some s') : Inv base size s' := by
  obtain ⟨hal, hsp⟩ := hal
  have hwh := noSplit_iff.mp hsp
  cases op with
  | allocate t request =>
    obtain ⟨padded, hpd, hst⟩ := bind_eq_some_iff.mp hst
    obtain ⟨⟨ptr, pool⟩, ha, hs'⟩ := bind_eq_some_iff.mp hst
    cases hs'
    exact hi.allocRaw hpd (hwh _ rfl padded hpd) ha
  | allocateTagged t request tag =>
    obtain ⟨padded, hpd, hst⟩ := bind_eq_some_iff.mp hst
    obtain ⟨⟨ptr, pool⟩, ha, hs'⟩ := bind_eq_some_iff.mp hst
    cases hs'
    obtain ⟨⟨ptr', pool'⟩, hrw, htg⟩ := bind_eq_some_iff.mp ha
    have hsr := hi.allocRaw hpd (hwh _ rfl padded hpd) hrw
    dsimp only at htg
    by_cases h0 : ptr' = 0
    · rw [if_pos h0] at htg
      cases htg
      exact hsr
    rw [if_neg h0] at htg
    cases htg
    -- the tag is written once more
    have hlv : (⟨ptr - HEADER_SIZE, HEADER_SIZE + padded, t⟩ : Block)
        ∈ (s.serve t padded ptr pool').live := by
      unfold State.serve
      rw [if_neg h0]
      exact mem_cons_self
    refine hsr.poke hlv tag ?_ ?_
    · show ptr - HEADER_SIZE + 10 ≤ ptr - HEADER_SIZE + 12
      omega
    show ptr - HEADER_SIZE + 12 + 4 ≤ ptr - HEADER_SIZE + (HEADER_SIZE + padded)
    unfold HEADER_SIZE
    omega
  | free b =>
    obtain ⟨pool, hfr, hs'⟩ := bind_eq_some_iff.mp hst
    cases hs'
    obtain ⟨owned, hhp, hp, hfd⟩ := hi
    obtain ⟨pool', hf', hsm, hps, hby⟩ := free_spec hp hal
    rw [hfr] at hf'
    cases hf'
    refine ⟨owned, ?_, hps, fun x hx => ?_⟩
    · rw [hsm]
      exact hhp
    rcases hby x hx with hx | hx
    · obtain ⟨f, hf, hxf⟩ := hfd x hx
      exact ⟨f, mem_cons_of_mem _ hf, hxf⟩
    · exact ⟨b.span, mem_cons_self, hx⟩
  | write b addr v =>
    cases hst
    obtain ⟨hb, hlo, _⟩ := hal
    unfold HEADER_SIZE at hlo
    exact hi.poke hb v (by omega) (by omega)
  | heap op =>
    obtain ⟨heap, hheapStep, hs'⟩ := bind_eq_some_iff.mp hst
    cases hs'
    obtain ⟨owned, hhp, hp, hfd⟩ := hi
    have hbt := Heap.step_append owned hal hheapStep
    have hal' : Heap.allowed ⟨s.pool.heap, s.others ++ owned⟩ op := Heap.allowed_append owned hal
    exact ⟨owned, Heap.inv_step hhp hal' hbt, hp, hfd⟩

/-- The blocks of the callers and the free blocks are disjoint, and what is free was freed. -/
structure Sound (s : State) : Prop where
  disjoint : (s.live.map Block.span ++ s.pool.entries.map (range s.pool.mem)).Pairwise Span.Disjoint
  freed : ∀ e ∈ s.pool.entries, ∀ x ∈ range s.pool.mem e, ∃ f ∈ s.freed, x ∈ f

lemma cover_range_le (mem : Store) (entries : List Nat) (x : Nat) :
    cover (entries.map (range mem)) x ≤ cover (entries.map (foot mem)) x := by
  induction entries with
  | nil => exact le_refl (cover [] x)
  | cons e entries ih =>
    have hft : cover (range mem e :: entries.map (range mem)) x
        ≤ cover (foot mem e :: entries.map (range mem)) x :=
      cover_shorten e (le_max_left _ _) _ x
    rw [map_cons, map_cons]
    rw [cover_cons (foot mem e)] at hft ⊢
    omega

lemma Inv.sound (hi : Inv base size s) : Sound s := by
  obtain ⟨_, -, hp, hfd⟩ := hi
  refine ⟨cover_le_one_iff.mp fun x => ?_, fun e he x hx => hfd x ⟨e, he, hx⟩⟩
  have hcv := (hp.covered x).trans (hp.room x)
  have hrg := cover_range_le s.pool.mem s.pool.entries x
  rw [nil_append, cover_append] at hcv
  rw [cover_append]
  split at hcv <;> omega

/-- Where the operation splits a block, the rest of the block is entered in its place. -/
def Exact (s : State) (op : Op) (s' : State) : Prop :=
  ∀ t total before block after, SplitsBlock s op t total before block after →
    ∃ entry, s'.pool.freelist t = before ++ entry :: after ∧
      range s'.pool.mem entry = ⟨block + total, sizeAt s.pool.mem block - total⟩

@[simp]
lemma freelist_setFreelist (p : PoolState) (t : PoolType) (list : List Nat) :
    (p.setFreelist t list).freelist t = list := by
  unfold setFreelist freelist
  split <;> rfl

lemma allocRaw_split {p p' : PoolState} {t : PoolType} {request tag padded ptr : Nat}
    {before after : List Nat} {block : Nat} (hpd : alignUp 64 request 16 = some padded)
    (hsp : SplitsAt p t (HEADER_SIZE + padded) before block after)
    (ha : p.allocRaw request t tag = some (ptr, p')) :
    p'.freelist t = before ++ (block + FREE_BLOCK_SIZE * (HEADER_SIZE + padded)) :: after := by
  obtain ⟨hly, hfn, hr⟩ := hsp
  obtain ⟨_, hly⟩ := isSome_iff_exists.mp hly
  unfold allocRaw at ha
  simp only [hpd, bind_eq_bind, bind_some] at ha
  obtain ⟨total, htt, ha⟩ := bind_eq_some_iff.mp ha
  rw [← (add_eq_some_iff.mp htt).2] at hly hfn hr ⊢
  rw [hly] at ha
  obtain ⟨⟨found, p1⟩, hf, hrs⟩ := bind_eq_some_iff.mp ha
  have hli : found ≠ none ∧ p1.freelist t = before ++ (block + FREE_BLOCK_SIZE * total) :: after := by
    unfold allocateFromFreelist at hf
    rw [hfn] at hf
    obtain ⟨⟨_, _⟩, hen, hf⟩ := bind_eq_some_iff.mp hf
    cases hf
    unfold splitBlock at hen
    rw [if_pos hr] at hen
    obtain ⟨_, hds, hen⟩ := bind_eq_some_iff.mp hen
    obtain ⟨_, hw, hen⟩ := bind_eq_some_iff.mp hen
    cases hen
    refine ⟨by simp, ?_⟩
    rw [freelist_setFreelist, (add_eq_some_iff.mp hw).2, (mul_eq_some_iff.mp hds).2]
  cases found with
  | none => exact absurd rfl hli.1
  | some _ =>
    cases hrs
    exact hli.2

lemma not_exact_of_split {op : Op} {t : PoolType} {total : Nat} {before after : List Nat}
    {block : Nat} (hsp : SplitsBlock s op t total before block after)
    (hst : step op s = some s') : ¬ Exact s op s' := by
  intro hex
  obtain ⟨entry, hen, hrg⟩ := hex t total before block after hsp
  have hs0 : entry = block + total := congrArg Span.start hrg
  obtain ⟨⟨_, padded, hrq, hpd, rfl⟩, hat⟩ := hsp
  have hli : s'.pool.freelist t
      = before ++ (block + FREE_BLOCK_SIZE * (HEADER_SIZE + padded)) :: after := by
    cases op with
    | allocate t' request' =>
      cases hrq
      obtain ⟨padded', hpd', hst⟩ := bind_eq_some_iff.mp hst
      obtain ⟨⟨ptr, pool⟩, ha, hs'⟩ := bind_eq_some_iff.mp hst
      cases hs'
      exact allocRaw_split hpd hat ha
    | allocateTagged t' request' tag =>
      cases hrq
      obtain ⟨padded', hpd', hst⟩ := bind_eq_some_iff.mp hst
      obtain ⟨⟨ptr, pool⟩, ha, hs'⟩ := bind_eq_some_iff.mp hst
      cases hs'
      obtain ⟨⟨_, _⟩, hrw, htg⟩ := bind_eq_some_iff.mp ha
      have hsp := allocRaw_split hpd hat hrw
      dsimp only at htg
      split at htg <;> cases htg
      · exact hsp
      · exact hsp
    | free b => cases hrq
    | write b addr v => cases hrq
    | heap op => cases hrq
  rw [hli] at hen
  have hsm : block + FREE_BLOCK_SIZE * (HEADER_SIZE + padded) = entry :=
    (List.cons.inj (append_cancel_left hen)).1
  unfold FREE_BLOCK_SIZE HEADER_SIZE at hsm
  unfold HEADER_SIZE at hs0
  omega

end

/-- In a run that callers may make, the live and the free blocks are always disjoint, what is free
was freed, and the rest of every block that is split is entered exactly — if and only if no block is
ever split. -/
theorem pool_sound_iff_no_split (words : Nat → Nat) (mem : Store) {base size : Nat} (hbase : 8 ∣ base)
    {ops : List Op} {s : State} (hrun : Run step allowed (start words mem base size) ops s) :
    ((∀ before after s₁, ops = before ++ after →
        Run step allowed (start words mem base size) before s₁ → Sound s₁) ∧
      (∀ before op after s₁ s₂, ops = before ++ op :: after →
        Run step allowed (start words mem base size) before s₁ → step op s₁ = some s₂ →
        Exact s₁ op s₂)) ↔ ∀ before op after s₁, ops = before ++ op :: after →
      Run step allowed (start words mem base size) before s₁ → NoSplit s₁ op := by
  constructor
  · rintro ⟨-, hex⟩ before op after s₁ rfl hbf t total front block back hsp
    obtain ⟨s₂, hs⟩ := hrun.step_at hbf
    exact not_exact_of_split hsp hs (hex before op after s₁ s₂ rfl hbf hs)
  intro hno
  refine ⟨?_, ?_⟩
  · rintro before after s₁ rfl hbf
    have hbt := Run.and_iff.mpr ⟨hbf, fun front op back s₂ heq hft =>
      hno front op (back ++ after) s₂ (by rw [heq, append_assoc]; rfl) hft⟩
    exact (hbt.keeps inv_step (inv_start words mem hbase)).sound
  · intro before op after s₁ s₂ heq hbf _ t total front block back hsp
    exact absurd hsp (hno before op after s₁ heq hbf t total front block back)

/-- A block is freed and serves the next request of its size; another one stays with its caller. -/
def reuse : List Op :=
  [.allocate .nonPaged 64, .allocateTagged .paged 100 7, .write ⟨4128, 96, .nonPaged⟩ 4160 255,
    .free ⟨4128, 96, .nonPaged⟩, .allocate .nonPaged 50, .free ⟨4256, 144, .paged⟩]

theorem pool_sound_iff_no_split_reuse :
    ∃ s, Run step allowed (start (fun _ => 0) (fun _ => 9) 4096 65536) reuse s ∧
      s.live = [⟨4128, 96, .nonPaged⟩] ∧ s.pool.entries = [4256] ∧ Sound s := by
  have hev : (executeAllowed step (fun s op => allowed s op ∧ NoSplit s op) reuse
      (start (fun _ => 0) (fun _ => 9) 4096 65536)).map (fun s => (s.live, s.pool.entries))
        = some ([⟨4128, 96, .nonPaged⟩], [4256]) := by
    decide +kernel
  obtain ⟨s, hs, heq⟩ := map_eq_some_iff.mp hev
  obtain ⟨hr, hno⟩ := Run.and_iff.mp (Run.of_executeAllowed hs)
  have hso := (pool_sound_iff_no_split _ _ (by decide) hr).mpr hno
  exact ⟨s, hr, congrArg Prod.fst heq, congrArg Prod.snd heq,
    hso.1 reuse [] s (append_nil _).symm hr⟩

/-- A block of 96 bytes is freed and serves a request of 48; behind it lies a large block. -/
def overrun : List Op :=
  [.allocate .nonPaged 64, .allocate .nonPaged 1024, .free ⟨4128, 96, .nonPaged⟩,
    .allocate .nonPaged 16]

/-- The rest of the split block is entered at 4896, inside the large block, and not at 4176. -/
theorem split_enters_live_memory :
    ∃ s, Run step allowed (start (fun _ => 0) (fun _ => 9) 4096 65536) overrun s ∧
      s.live = [⟨4128, 48, .nonPaged⟩, ⟨4256, 1056, .nonPaged⟩] ∧
      s.pool.entries.map (range s.pool.mem) = [⟨4896, 48⟩] ∧ ¬ Sound s := by
  have hev : (executeAllowed step allowed overrun (start (fun _ => 0) (fun _ => 9) 4096 65536)).map
        (fun s => (s.live, s.pool.entries.map (range s.pool.mem)))
      = some ([⟨4128, 48, .nonPaged⟩, ⟨4256, 1056, .nonPaged⟩], [⟨4896, 48⟩]) := by
    decide +kernel
  obtain ⟨s, hs, heq⟩ := map_eq_some_iff.mp hev
  have hlv : s.live = _ := congrArg Prod.fst heq
  have hf : s.pool.entries.map (range s.pool.mem) = _ := congrArg Prod.snd heq
  refine ⟨s, Run.of_executeAllowed hs, hlv, hf, fun hso => ?_⟩
  have hds := hso.disjoint
  rw [hlv, hf] at hds
  have hap : Span.Disjoint ⟨4256, 1056⟩ ⟨4896, 48⟩ :=
    rel_of_pairwise_cons (List.Pairwise.of_cons hds) mem_cons_self
  exact hap 4896 (by decide)

end Nt61.Pool
