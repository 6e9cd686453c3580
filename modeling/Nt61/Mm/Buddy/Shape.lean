/-
Shape — what a valid state of the buddy allocator is.

`Holds`: the nodes and the list heads hold lists of frame numbers, one for each order, with the
`on_list` marks of exactly their members. `Shape` adds that the blocks on the lists and those handed
out tile the frames. Inside the loops of `allocate` and `free` one block is in hand: it counts as
handed out. `take`, `give`, `split` and `merge` are all that the two functions do.
-/
import Nt61.Lib.DList
import Nt61.Mm.Buddy.Model

namespace Nt61.Buddy

open Lib DList Function List

/-! ## Links -/

/-- A frame number as a pointer. -/
def optionOf (x : Nat) : Option Nat := if x = FREE_LIST_END then none else some x

@[simp]
lemma optionOf_end : optionOf FREE_LIST_END = none := if_pos rfl

lemma optionOf_of_ne {x : Nat} (h : x ≠ FREE_LIST_END) : optionOf x = some x := if_neg h

lemma optionOf_of_lt {x : Nat} (h : x < FREE_LIST_END) : optionOf x = some x :=
  optionOf_of_ne (Nat.ne_of_lt h)

lemma isNone_optionOf {x : Nat} : (optionOf x).isNone = decide (x = FREE_LIST_END) := by
  unfold optionOf
  by_cases h : x = FREE_LIST_END <;> simp [h]

def linkOf (node : BuddyNode) : Links Nat := ⟨optionOf node.next, optionOf node.prev⟩

def linksOf (nodes : Nat → BuddyNode) : Nat → Links Nat := linkOf ∘ nodes

variable (nodes : Nat → BuddyNode)

lemma linksOf_update (i : Nat) (node : BuddyNode) :
    linksOf (update nodes i node) = update (linksOf nodes) i (linkOf node) :=
  comp_update linkOf nodes i node

def headsOf (b : BuddyAllocator) (lists : Nat → List Nat) : Nat → Head Nat :=
  fun k => ⟨optionOf (b.freeLists k).head, (lists k).getLast?⟩

namespace BuddyAllocator

variable (b : BuddyAllocator) (head frame i : Nat)

lemma linksOf_pushNodes (blink : Option Nat) (hfr : frame ≠ FREE_LIST_END) :
    linksOf (b.pushNodes head frame)
      = (addHead ⟨optionOf head, blink⟩ (linksOf b.nodes) frame).2 := by
  have hw : linkOf ⟨head, FREE_LIST_END, 1⟩ = ⟨optionOf head, none⟩ := by simp [linkOf]
  simp only [pushNodes, addHead]
  by_cases hhd : head = FREE_LIST_END
  · rw [if_neg (not_not.mpr hhd), linksOf_update, hhd]
    rfl
  rw [if_pos hhd, linksOf_update, linksOf_update, hw, optionOf_of_ne hhd, setBlink]
  -- the old head keeps its forward link
  rw [linkOf, optionOf_of_ne hfr]
  by_cases hs : head = frame
  · subst hs
    simp [optionOf_of_ne hhd]
  · rw [update_of_ne hs, update_of_ne hs]
    rfl

lemma onList_pushNodes :
    (b.pushNodes head frame i).onList = if i = frame then 1 else (b.nodes i).onList := by
  have hw : (update b.nodes frame ⟨head, FREE_LIST_END, 1⟩ i).onList
      = if i = frame then 1 else (b.nodes i).onList := by
    by_cases hi : i = frame
    · rw [hi, update_self, if_pos rfl]
    · rw [update_of_ne hi, if_neg hi]
  simp only [pushNodes]
  split
  · by_cases hi : i = head
    · subst hi
      rw [update_self]
      exact hw
    · rw [update_of_ne hi]
      exact hw
  · exact hw

lemma linksOf_setNext (at_ next : Nat) : linksOf (if at_ ≠ FREE_LIST_END then
        update nodes at_ { nodes at_ with next := next } else nodes)
      = setFlink (linksOf nodes) (optionOf at_) (optionOf next) := by
  by_cases h : at_ = FREE_LIST_END
  · rw [h]
    rfl
  · rw [if_pos h, linksOf_update, optionOf_of_ne h]
    rfl

lemma linksOf_setPrev (at_ prev : Nat) : linksOf (if at_ ≠ FREE_LIST_END then
        update nodes at_ { nodes at_ with prev := prev } else nodes)
      = setBlink (linksOf nodes) (optionOf at_) (optionOf prev) := by
  by_cases h : at_ = FREE_LIST_END
  · rw [h]
    rfl
  · rw [if_pos h, linksOf_update, optionOf_of_ne h]
    rfl

lemma linksOf_removeNodes (q : Head Nat) :
    linksOf (b.removeNodes frame) = (unlink q (linksOf b.nodes) frame).2 := by
  simp only [removeNodes, unlink]
  rw [linksOf_update, linksOf_setPrev, linksOf_setNext]
  simp [linkOf, linksOf]

lemma onList_removeNodes :
    (b.removeNodes frame i).onList = if i = frame then 0 else (b.nodes i).onList := by
  -- a link that is written keeps the mark
  have hke : ∀ (nodes : Nat → BuddyNode) (at_ : Nat) (node : BuddyNode),
      node.onList = (nodes at_).onList →
        ((if at_ ≠ FREE_LIST_END then update nodes at_ node else nodes) i).onList
          = (nodes i).onList := by
    intro nodes at_ node hno
    split
    · by_cases hi : i = at_
      · rw [hi, update_self, hno]
      · rw [update_of_ne hi]
    · rfl
  simp only [removeNodes]
  by_cases hi : i = frame
  · rw [hi, update_self, if_pos rfl]
  · rw [update_of_ne hi, if_neg hi]
    refine (hke _ _ _ ?_).trans (hke _ _ _ ?_) <;> rfl

/-- Only nodes and lists change. -/
def Relinked (b b' : BuddyAllocator) : Prop :=
  ∃ nodes freeLists, b' = { b with nodes := nodes, freeLists := freeLists }

lemma Relinked.refl : Relinked b b := ⟨b.nodes, b.freeLists, rfl⟩

variable {b} {b1 b2 : BuddyAllocator}

lemma Relinked.trans (h1 : Relinked b b1) (h2 : Relinked b1 b2) : Relinked b b2 := by
  obtain ⟨_, _, rfl⟩ := h1
  obtain ⟨nodes, freeLists, rfl⟩ := h2
  exact ⟨nodes, freeLists, rfl⟩

section

variable (h : Relinked b b1)
include h

lemma Relinked.numFrames : b1.numFrames = b.numFrames := by
  obtain ⟨_, _, rfl⟩ := h
  rfl

lemma Relinked.freeFrames : b1.freeFrames = b.freeFrames := by
  obtain ⟨_, _, rfl⟩ := h
  rfl

lemma Relinked.baseAddress : b1.baseAddress = b.baseAddress := by
  obtain ⟨_, _, rfl⟩ := h
  rfl

lemma Relinked.initialised : b1.initialised = b.initialised := by
  obtain ⟨_, _, rfl⟩ := h
  rfl

end

lemma pushHead_eq_some {order : Nat} (h : b.pushHead order frame = some b1) :
    Relinked b b1 ∧ b1.nodes = b.pushNodes (b.freeLists order).head frame ∧ b1.freeLists
        = update b.freeLists order ⟨frame, (b.freeLists order).count + 1⟩ := by
  simp only [pushHead, Checked.add, Option.map_eq_some_iff] at h
  obtain ⟨count, hcn, rfl⟩ := h
  split at hcn <;> cases hcn
  exact ⟨⟨_, _, rfl⟩, rfl, rfl⟩

lemma removeNode_eq_some {order : Nat} (h : b.removeNode order frame = some b1) :
    Relinked b b1 ∧ b1.nodes = b.removeNodes frame
      ∧ ∀ k ≠ order, b1.freeLists k = b.freeLists k := by
  simp only [removeNode, Option.map_eq_some_iff] at h
  obtain ⟨_, -, rfl⟩ := h
  exact ⟨⟨_, _, rfl⟩, rfl, fun k hk => update_of_ne hk _ _⟩

end BuddyAllocator

open BuddyAllocator

/-! ## The lists in memory -/

structure Holds (b : BuddyAllocator) (lists : Nat → List Nat) : Prop where
  represents : Represents (linksOf b.nodes) (headsOf b lists) lists
  /-- Frame numbers are `u32`, and the largest one ends a list. -/
  numbers : ∀ k, ∀ f ∈ lists k, f < FREE_LIST_END
  count : ∀ k, (b.freeLists k).count = (lists k).length
  marked : ∀ k, ∀ f ∈ lists k, (b.nodes f).onList = 1
  unmarked : ∀ f < b.numFrames, (∀ k, f ∉ lists k) → (b.nodes f).onList = 0

namespace Holds

variable {b b1 : BuddyAllocator} {lists : Nat → List Nat} {k f : Nat}

section

variable (h : Holds b lists)
include h

lemma nodup (k : Nat) : (lists k).Nodup := (h.represents.linked k).nodup

lemma onList_ne_zero (hf : f < b.numFrames) : (b.nodes f).onList ≠ 0 ↔ ∃ k, f ∈ lists k := by
  constructor
  · intro hon
    by_contra hn
    exact hon (h.unmarked f hf (not_exists.mp hn))
  rintro ⟨k, hk⟩
  rw [h.marked k f hk]
  exact Nat.one_ne_zero

lemma mem_of_head (hf : f ≠ FREE_LIST_END) (hhd : (b.freeLists k).head = f) : f ∈ lists k := by
  have hso : (lists k).head? = some f := by
    rw [← (h.represents.linked k).head]
    show optionOf (b.freeLists k).head = some f
    rw [hhd, optionOf_of_ne hf]
  exact mem_of_head? hso

lemma eq_nil_of_head (hhd : (b.freeLists k).head = FREE_LIST_END) : lists k = [] := by
  have hn : (lists k).head? = none := by
    rw [← (h.represents.linked k).head]
    show optionOf (b.freeLists k).head = none
    rw [hhd, optionOf_end]
  exact head?_eq_none_iff.mp hn

end

lemma represents_of {m : Nat → Links Nat} {heads : Nat → Head Nat}
    (h : Represents m heads lists) (hhe : ∀ k, (heads k).head = optionOf (b.freeLists k).head) :
    Represents m (headsOf b lists) lists :=
  ⟨fun k => ⟨(h.linked k).nodup, (hhe k).symm.trans (h.linked k).head, rfl, (h.linked k).seg⟩,
    h.apart⟩

lemma pushHead (h : Holds b lists) (k : Nat) (hf : f < FREE_LIST_END) (hw : ∀ k, f ∉ lists k) :
    ∃ b1, b.pushHead k f = some b1 ∧ b.Relinked b1 ∧ Holds b1 (update lists k (f :: lists k)) := by
  -- with the new node the list still has fewer nodes than there are numbers
  have hro : (b.freeLists k).count + 1 < 2 ^ 32 := by
    have hsb : f :: lists k ⊆ range FREE_LIST_END := by
      intro g hg
      rcases mem_cons.mp hg with rfl | hg
      · exact mem_range.mpr hf
      · exact mem_range.mpr (h.numbers k g hg)
    have hle := ((nodup_cons.mpr ⟨hw k, h.nodup k⟩).subperm hsb).length_le
    rw [length_cons, length_range, FREE_LIST_END] at hle
    rw [h.count k]
    omega
  have hr : b.pushHead k f = some
      { b with
        nodes := b.pushNodes (b.freeLists k).head f
        freeLists := update b.freeLists k ⟨f, (b.freeLists k).count + 1⟩ } := by
    rw [BuddyAllocator.pushHead, Checked.add_eq hro, Option.map_some]
  refine ⟨_, hr, ⟨_, _, rfl⟩, ?_⟩
  constructor
  · rw [b.linksOf_pushNodes _ _ (lists k).getLast? (Nat.ne_of_lt hf)]
    refine represents_of (h.represents.addHead k hw) fun j => ?_
    by_cases hj : j = k
    · subst hj
      simp [addHead, optionOf_of_lt hf]
    show _ = optionOf (update b.freeLists k _ j).head
    rw [update_of_ne hj, update_of_ne hj]
    rfl
  · intro j g hg
    rcases mem_update_cons.mp hg with hg | ⟨rfl, -⟩
    · exact h.numbers j g hg
    · exact hf
  · intro j
    by_cases hj : j = k
    · subst hj
      simp [h.count j]
    · simpa [update_of_ne hj] using h.count j
  · intro j g hg
    rw [b.onList_pushNodes]
    rcases mem_update_cons.mp hg with hg | ⟨rfl, -⟩
    · rw [h.marked j g hg, ite_self]
    · exact if_pos rfl
  intro g hg ho
  have hgf : g ≠ f := by
    rintro rfl
    exact ho k (mem_update_cons.mpr (.inr ⟨rfl, rfl⟩))
  rw [b.onList_pushNodes, if_neg hgf]
  exact h.unmarked g hg fun j hj => ho j (mem_update_cons.mpr (.inl hj))

lemma removeNode (h : Holds b lists) (hf : f ∈ lists k) :
    ∃ b1, b.removeNode k f = some b1 ∧ b.Relinked b1
      ∧ Holds b1 (update lists k ((lists k).erase f)) := by
  have hp : 1 ≤ (b.freeLists k).count := by
    rw [h.count k]
    exact length_pos_of_mem hf
  have hm : ∀ {g j}, g ∈ update lists k ((lists k).erase f) j ↔ g ∈ lists j ∧ g ≠ f :=
    h.represents.mem_update_erase hf
  refine ⟨_, by rw [BuddyAllocator.removeNode, Checked.sub_eq hp, Option.map_some], ⟨_, _, rfl⟩, ?_⟩
  constructor
  · rw [b.linksOf_removeNodes _ (headsOf b lists k)]
    refine represents_of (h.represents.unlink hf) fun j => ?_
    by_cases hj : j = k
    · subst hj
      show _ = optionOf (update b.freeLists j _ j).head
      rw [update_self, update_self]
      show (if (optionOf (b.nodes f).prev).isNone then optionOf (b.nodes f).next
        else optionOf (b.freeLists j).head) = optionOf (if _ then _ else _)
      rw [isNone_optionOf]
      by_cases hpv : (b.nodes f).prev = FREE_LIST_END <;> simp [hpv]
    show _ = optionOf (update b.freeLists k _ j).head
    rw [update_of_ne hj, update_of_ne hj]
    rfl
  · intro j g hg
    exact h.numbers j g (hm.mp hg).1
  · intro j
    by_cases hj : j = k
    · subst hj
      simp [h.count j, length_erase_of_mem hf]
    · simpa [update_of_ne hj] using h.count j
  · intro j g hg
    rw [b.onList_removeNodes, if_neg (hm.mp hg).2, h.marked j g (hm.mp hg).1]
  intro g hg ho
  rw [b.onList_removeNodes]
  split
  · rfl
  · rename_i hgf
    exact h.unmarked g hg fun j hj => ho j (hm.mpr ⟨hj, hgf⟩)

end Holds

/-! ## The blocks on the lists -/

def blocksOf (lists : Nat → List Nat) : Set (Nat × Nat) := {x | x.1 ∈ lists x.2}

variable {lists : Nat → List Nat} {f k : Nat}

lemma mem_blocksOf : (f, k) ∈ blocksOf lists ↔ f ∈ lists k := Iff.rfl

variable {x : Nat × Nat}

lemma mem_blocksOf_push :
    x ∈ blocksOf (update lists k (f :: lists k)) ↔ x = (f, k) ∨ x ∈ blocksOf lists := by
  obtain ⟨_, j⟩ := x
  rw [mem_blocksOf, mem_blocksOf]
  by_cases hj : j = k
  · subst hj
    simp
  · simp [hj]

lemma mem_blocksOf_erase (hnd : (lists k).Nodup) :
    x ∈ blocksOf (update lists k ((lists k).erase f)) ↔ x ≠ (f, k) ∧ x ∈ blocksOf lists := by
  obtain ⟨_, j⟩ := x
  rw [mem_blocksOf, mem_blocksOf]
  by_cases hj : j = k
  · subst hj
    simp [hnd.mem_erase_iff]
  · simp [hj]

def freeSet (lists : Nat → List Nat) : Set Nat := {i | ∃ x ∈ blocksOf lists, i ∈ span x}

def freeSize (lists : Nat → List Nat) : Nat := weight MAX_BUDDY_ORDER fun k => (lists k).length

lemma freeSize_update {k : Nat} (hk : k < MAX_BUDDY_ORDER) (l : List Nat) :
    freeSize (update lists k l) + (lists k).length * 2 ^ k = freeSize lists + l.length * 2 ^ k := by
  have hwg := @weight_update MAX_BUDDY_ORDER k hk (fun j => (lists j).length)
    (fun j => (update lists k l j).length) fun j hj => by rw [update_of_ne hj]
  rwa [update_self] at hwg

lemma freeSize_nil : freeSize (fun _ => []) = 0 := by
  unfold freeSize
  exact Finset.sum_eq_zero fun _ _ => Nat.zero_mul _

lemma freeSize_push (hk : k < MAX_BUDDY_ORDER) :
    freeSize (update lists k (f :: lists k)) = freeSize lists + 2 ^ k := by
  have hup := @freeSize_update lists k hk (f :: lists k)
  rw [length_cons, Nat.succ_mul] at hup
  omega

lemma freeSize_erase (hk : k < MAX_BUDDY_ORDER) (hf : f ∈ lists k) :
    freeSize (update lists k ((lists k).erase f)) + 2 ^ k = freeSize lists := by
  have hup := @freeSize_update lists k hk ((lists k).erase f)
  have hl : (lists k).length = ((lists k).erase f).length + 1 := by
    have hp := length_pos_of_mem hf
    rw [length_erase_of_mem hf]
    omega
  rw [hl, Nat.succ_mul] at hup
  omega

/-! ## Valid states -/

structure Shape (b : BuddyAllocator) (lists : Nat → List Nat) (live : Set (Nat × Nat)) : Prop where
  holds : Holds b lists
  /-- The number of frames is a `u64`. -/
  words : b.numFrames < 2 ^ 64
  orders : ∀ x ∈ blocksOf lists ∪ live, x.2 < MAX_BUDDY_ORDER
  apart : ∀ x ∈ live, x ∉ blocksOf lists
  tiling : Tiling b.numFrames (blocksOf lists ∪ live)

structure Valid (b : BuddyAllocator) (lists : Nat → List Nat) (live : Set (Nat × Nat)) : Prop
    extends Shape b lists live where
  initialised : b.initialised = true
  freeFrames : b.freeFrames = freeSize lists

namespace Shape

variable {b b1 : BuddyAllocator} {lists : Nat → List Nat} {live : Set (Nat × Nat)} {f k : Nat}

section

variable (h : Shape b lists live)
include h

lemma order_lt (hf : f ∈ lists k) : k < MAX_BUDDY_ORDER := h.orders (f, k) (.inl hf)

lemma frame_lt (hf : f ∈ lists k) : f < b.numFrames := by
  have hin : f + 2 ^ k ≤ b.numFrames := h.tiling.inside (f, k) (.inl hf)
  have hp := Nat.two_pow_pos k
  omega

lemma mem_freeSet {i : Nat} : i ∈ freeSet lists ↔ i < b.numFrames ∧ ∀ x ∈ live, i ∉ span x := by
  constructor
  · rintro ⟨x, hx, hi⟩
    have hin := h.tiling.inside x (.inl hx)
    refine ⟨Nat.lt_of_lt_of_le hi.2 hin, fun y hy hiy => ?_⟩
    rw [h.tiling.disjoint x (.inl hx) y (.inr hy) i hi hiy] at hx
    exact h.apart y hy hx
  rintro ⟨hlt, ho⟩
  obtain ⟨x, hx | hx, hi⟩ := h.tiling.cover i hlt
  · exact ⟨x, hx, hi⟩
  · exact absurd hi (ho x hx)

lemma freeSize_le : freeSize lists ≤ b.numFrames := by
  -- the listed blocks as a finite set
  let T : Finset (Nat × Nat) := (Finset.range MAX_BUDDY_ORDER).biUnion fun k =>
    (lists k).toFinset.image fun f => (f, k)
  have hT : ∀ x ∈ T, x ∈ blocksOf lists ∪ live := by
    intro x hx
    obtain ⟨k, -, hx⟩ := Finset.mem_biUnion.mp hx
    obtain ⟨f, hf, rfl⟩ := Finset.mem_image.mp hx
    exact .inl (mem_toFinset.mp hf)
  have hsm : ∑ x ∈ T, 2 ^ x.2 = freeSize lists := by
    unfold freeSize
    rw [Finset.sum_biUnion]
    · refine Finset.sum_congr rfl fun k _ => ?_
      rw [Finset.sum_image (fun f _ g _ hfg => congrArg Prod.fst hfg)]
      dsimp only
      rw [← toFinset_card_of_nodup (h.holds.nodup k)]
      exact Finset.sum_const_nat fun _ _ => rfl
    intro j _ k _ hjk
    refine Finset.disjoint_left.mpr fun x hx hx' => hjk ?_
    obtain ⟨_, _, rfl⟩ := Finset.mem_image.mp hx
    obtain ⟨_, _, heq⟩ := Finset.mem_image.mp hx'
    exact (congrArg Prod.snd heq).symm
  rw [← hsm]
  exact h.tiling.sum_le hT

lemma congr (hns : b1.nodes = b.nodes)
    (hls : b1.freeLists = b.freeLists) (hnm : b1.numFrames = b.numFrames) :
    Shape b1 lists live := by
  refine ⟨⟨?_, h.holds.numbers, ?_, ?_, ?_⟩, hnm ▸ h.words, h.orders, h.apart, hnm ▸ h.tiling⟩
  · rw [hns]
    exact Holds.represents_of h.holds.represents fun k => by rw [hls]; rfl
  · rw [hls]
    exact h.holds.count
  · rw [hns]
    exact h.holds.marked
  · rw [hns, hnm]
    exact h.holds.unmarked

lemma notMem_lists (hx : x ∈ live) {i : Nat} (hi : i ∈ span x) (k : Nat) : i ∉ lists k := by
  intro hm
  have heq : (i, k) = x :=
    h.tiling.disjoint (i, k) (.inl hm) x (.inr hx) i (first_mem_span (i, k)) hi
  exact h.apart x hx (heq ▸ hm)

lemma take (hf : f ∈ lists k) : ∃ b1, b.removeNode k f = some b1 ∧ b.Relinked b1
      ∧ Shape b1 (update lists k ((lists k).erase f)) (insert (f, k) live) ∧ (f, k) ∉ live := by
  obtain ⟨b1, hr, hs, hho⟩ := h.holds.removeNode hf
  have hnm := hs.numFrames
  have hm : ∀ x, x ∈ blocksOf (update lists k ((lists k).erase f)) ∪ insert (f, k) live
      ↔ x ∈ blocksOf lists ∪ live := by
    intro x
    rw [Set.mem_union, mem_blocksOf_erase (h.holds.nodup k)]
    by_cases hx : x = (f, k)
    · simp [hx, mem_blocksOf.mpr hf]
    · simp [hx]
  refine ⟨b1, hr, hs, ⟨hho, hnm ▸ h.words, ?_, ?_, ?_⟩, fun hlv => h.apart _ hlv hf⟩
  · exact fun x hx => h.orders x ((hm x).mp hx)
  · intro x hx hbl
    obtain ⟨hne, hbl⟩ := (mem_blocksOf_erase (h.holds.nodup k)).mp hbl
    rcases Set.mem_insert_iff.mp hx with rfl | hx
    · exact hne rfl
    · exact h.apart x hx hbl
  · rw [hnm]
    exact h.tiling.congr hm

end

lemma give (h : Shape b lists (insert (f, k) live)) (hw : (f, k) ∉ live)
    (hf : f < FREE_LIST_END) : ∃ b1, b.pushHead k f = some b1 ∧ b.Relinked b1
      ∧ Shape b1 (update lists k (f :: lists k)) live := by
  have ho : ∀ j, f ∉ lists j := h.notMem_lists (Set.mem_insert (f, k) live) (first_mem_span (f, k))
  obtain ⟨b1, hr, hs, hho⟩ := h.holds.pushHead k hf ho
  have hnm := hs.numFrames
  have hm : ∀ x, x ∈ blocksOf (update lists k (f :: lists k)) ∪ live
      ↔ x ∈ blocksOf lists ∪ insert (f, k) live := by
    intro x
    rw [Set.mem_union, Set.mem_union, mem_blocksOf_push, Set.mem_insert_iff, or_assoc, or_left_comm]
  refine ⟨b1, hr, hs, ⟨hho, hnm ▸ h.words, ?_, ?_, ?_⟩⟩
  · exact fun x hx => h.orders x ((hm x).mp hx)
  · intro x hx hbl
    rcases mem_blocksOf_push.mp hbl with rfl | hbl
    · exact hw hx
    · exact h.apart x (Set.mem_insert_of_mem _ hx) hbl
  · rw [hnm]
    exact h.tiling.congr hm

lemma halve (h : Shape b lists (insert (f, k + 1) live)) (hw : (f, k + 1) ∉ live) :
    Shape b lists (insert (f + 2 ^ k, k) (insert (f, k) live))
      ∧ (f + 2 ^ k, k) ∉ insert (f, k) live ∧ (f, k) ∉ live := by
  have hold : (f, k + 1) ∈ blocksOf lists ∪ insert (f, k + 1) live := .inr (Set.mem_insert _ _)
  have hk : k + 1 < MAX_BUDDY_ORDER := h.orders _ hold
  -- neither half was a block before
  have hlw : (f, k) ∉ blocksOf lists ∪ insert (f, k + 1) live :=
    h.tiling.notMem hold (fun heq => Nat.ne_of_lt (Nat.lt_succ_self k) (congrArg Prod.snd heq))
      (first_mem_span (f, k)) (first_mem_span (f, k + 1))
  have hhi : (f + 2 ^ k, k) ∉ blocksOf lists ∪ insert (f, k + 1) live :=
    h.tiling.notMem hold (fun heq => Nat.ne_of_lt (Nat.lt_succ_self k) (congrArg Prod.snd heq))
      (first_mem_span (f + 2 ^ k, k))
      ((span_halves f k _).mpr (.inr (first_mem_span (f + 2 ^ k, k))))
  have hr : (f, k + 1) ∉ blocksOf lists ∪ live := by
    rintro (hbl | hlv)
    · exact h.apart _ (Set.mem_insert _ _) hbl
    · exact hw hlv
  refine ⟨⟨h.holds, h.words, ?_, ?_, ?_⟩, ?_, ?_⟩
  · rintro x (hx | rfl | rfl | hx)
    · exact h.orders x (.inl hx)
    · exact Nat.lt_of_succ_lt hk
    · exact Nat.lt_of_succ_lt hk
    · exact h.orders x (.inr (Set.mem_insert_of_mem _ hx))
  · rintro x (rfl | rfl | hx) hbl
    · exact hhi (.inl hbl)
    · exact hlw (.inl hbl)
    · exact h.apart x (Set.mem_insert_of_mem _ hx) hbl
  · have htl := h.tiling
    rw [Set.union_insert] at htl
    rw [Set.union_insert, Set.union_insert]
    exact htl.split hr
  · rintro (heq | hlv)
    · have hp := Nat.two_pow_pos k
      have hfs : f + 2 ^ k = f := congrArg Prod.fst heq
      omega
    · exact hhi (.inr (Set.mem_insert_of_mem _ hlv))
  · exact fun hlv => hlw (.inr (Set.mem_insert_of_mem _ hlv))

lemma join (h : Shape b lists (insert (f + 2 ^ k, k) (insert (f, k) live)))
    (hk : k + 1 < MAX_BUDDY_ORDER) (hal : 2 ^ (k + 1) ∣ f) (hlw : (f, k) ∉ live)
    (hhi : (f + 2 ^ k, k) ∉ live) :
    Shape b lists (insert (f, k + 1) live) ∧ (f, k + 1) ∉ live := by
  have hlowMem : (f, k) ∈ insert (f + 2 ^ k, k) (insert (f, k) live) :=
    Set.mem_insert_of_mem _ (Set.mem_insert _ _)
  have hwh : (f, k + 1) ∉ blocksOf lists ∪ insert (f + 2 ^ k, k) (insert (f, k) live) :=
    h.tiling.notMem (.inr hlowMem)
      (fun heq => Nat.ne_of_gt (Nat.lt_succ_self k) (congrArg Prod.snd heq))
      (first_mem_span (f, k + 1)) (first_mem_span (f, k))
  refine ⟨⟨h.holds, h.words, ?_, ?_, ?_⟩, ?_⟩
  · rintro x (hx | rfl | hx)
    · exact h.orders x (.inl hx)
    · exact hk
    · exact h.orders x (.inr (Set.mem_insert_of_mem _ (Set.mem_insert_of_mem _ hx)))
  · rintro x (rfl | hx) hbl
    · exact hwh (.inl hbl)
    · exact h.apart x (Set.mem_insert_of_mem _ (Set.mem_insert_of_mem _ hx)) hbl
  · have htl := h.tiling
    rw [Set.union_insert, Set.union_insert] at htl
    rw [Set.union_insert]
    refine htl.merge hal ?_ ?_
    · rintro (hbl | hlv)
      · exact h.apart _ hlowMem hbl
      · exact hlw hlv
    rintro (hbl | hlv)
    · exact h.apart _ (Set.mem_insert _ _) hbl
    · exact hhi hlv
  · exact fun hlv => hwh (.inr (Set.mem_insert_of_mem _ (Set.mem_insert_of_mem _ hlv)))

lemma split (h : Shape b lists (insert (f, k + 1) live)) (hw : (f, k + 1) ∉ live)
    (hha : f + 2 ^ k < FREE_LIST_END) : ∃ b1, b.pushHead k (f + 2 ^ k) = some b1 ∧ b.Relinked b1
      ∧ Shape b1 (update lists k ((f + 2 ^ k) :: lists k)) (insert (f, k) live)
      ∧ (f, k) ∉ live := by
  obtain ⟨hhl, hhi, hlw⟩ := h.halve hw
  obtain ⟨b1, hr, hs, hgv⟩ := hhl.give hhi hha
  exact ⟨b1, hr, hs, hgv, hlw⟩

lemma merge (h : Shape b lists (insert (f, k) live)) (hw : (f, k) ∉ live)
    (hk : k + 1 < MAX_BUDDY_ORDER) (hbu : buddy f k ∈ lists k) :
    ∃ b1, b.removeNode k (buddy f k) = some b1 ∧ b.Relinked b1
      ∧ Shape b1 (update lists k ((lists k).erase (buddy f k)))
          (insert (min f (buddy f k), k + 1) live) ∧ (min f (buddy f k), k + 1) ∉ live := by
  obtain ⟨b1, hr, hs, htk, ho⟩ := h.take hbu
  have hal : 2 ^ k ∣ f := h.tiling.aligned (f, k) (.inr (Set.mem_insert _ _))
  have hbuddyNew : (buddy f k, k) ∉ live := fun hlv => ho (Set.mem_insert_of_mem _ hlv)
  refine ⟨b1, hr, hs, ?_⟩
  rcases buddy_cases hal with ⟨hdv, heq⟩ | ⟨hdv, heq⟩
  · -- the buddy stands behind the block
    rw [Nat.min_eq_left (by omega)]
    rw [heq] at htk hbuddyNew ⊢
    exact htk.join hk hdv hw hbuddyNew
  -- the buddy stands before the block
  rw [Nat.min_eq_right (by omega)]
  have hhi : (buddy f k + 2 ^ k, k) ∉ live := heq ▸ hw
  rw [Set.insert_comm] at htk
  refine Shape.join ?_ hk hdv hbuddyNew hhi
  rw [← heq]
  exact htk

end Shape

/-! ## Allocators with one free block -/

/-- The only free block is the one of order `k` at `f`. -/
def singleBlock (numFrames baseAddress f k : Nat) : BuddyAllocator :=
  { new with
    freeLists := update new.freeLists k ⟨f, 1⟩
    nodes := update new.nodes f ⟨FREE_LIST_END, FREE_LIST_END, 1⟩
    numFrames := numFrames
    baseAddress := baseAddress
    freeFrames := 2 ^ k
    initialised := true }

def singleList (f k : Nat) : Nat → List Nat := update (fun _ => []) k [f]

lemma mem_blocksOf_singleList : x ∈ blocksOf (singleList f k) ↔ x = (f, k) := by
  have hn : x ∉ blocksOf (fun _ => []) := not_mem_nil
  unfold singleList
  rw [@mem_blocksOf_push (fun _ => []) f k x, or_iff_left hn]

lemma Holds.new {b : BuddyAllocator} (hls : ∀ k, b.freeLists k = FreeListHead.empty)
    (hns : ∀ f < b.numFrames, (b.nodes f).onList = 0) : Holds b fun _ => [] :=
  ⟨represents_of (Represents.empty _) fun k => by rw [hls]; exact optionOf_end.symm,
    fun _ _ hf => absurd hf not_mem_nil, fun k => by rw [hls]; rfl,
    fun _ _ hf => absurd hf not_mem_nil, fun f hf _ => hns f hf⟩

lemma singleBlock_valid {numFrames baseAddress f k : Nat} {live : Set (Nat × Nat)}
    (hf : f < FREE_LIST_END) (hws : numFrames < 2 ^ 64)
    (hos : ∀ x ∈ insert (f, k) live, x.2 < MAX_BUDDY_ORDER) (hw : (f, k) ∉ live)
    (htl : Tiling numFrames (insert (f, k) live)) :
    Valid (singleBlock numFrames baseAddress f k) (singleList f k) live := by
  have hm : ∀ x, x ∈ blocksOf (singleList f k) ∪ live ↔ x ∈ insert (f, k) live := fun x => by
    rw [Set.mem_union, mem_blocksOf_singleList, Set.mem_insert_iff]
  have hk : k < MAX_BUDDY_ORDER := hos (f, k) (Set.mem_insert _ _)
  refine ⟨⟨?_, hws, fun x hx => hos x ((hm x).mp hx), ?_, htl.congr hm⟩, rfl, ?_⟩
  · -- the block is pushed on the empty list
    have hem : Holds { singleBlock numFrames baseAddress f k with
        freeLists := new.freeLists, nodes := new.nodes }
        fun _ => [] := Holds.new (fun _ => rfl) fun _ _ => rfl
    obtain ⟨b1, hr, -, hho⟩ := hem.pushHead k hf fun _ => not_mem_nil
    have hso : some (singleBlock numFrames baseAddress f k) = some b1 := hr
    rw [Option.some.inj hso]
    exact hho
  · intro x hx hbl
    exact hw (mem_blocksOf_singleList.mp hbl ▸ hx)
  show 2 ^ k = freeSize (singleList f k)
  unfold singleList
  rw [@freeSize_push (fun _ => []) f k hk, freeSize_nil, Nat.zero_add]

end Nt61.Buddy
