/-
Allocate — `allocate` hands out a free block.

The function takes the first block without a reserved frame, of the smallest order that has one, and
splits it down. With more than `u32::MAX` frames a buddy can have the number that ends a list, and
is lost.
-/
import Nt61.Mm.Buddy.Shape

namespace Nt61.Buddy

open Lib DList Nat Option Set List Function

/-! ## The order of a request -/

lemma le_two_pow_orderOf (count : Nat) : count ≤ 2 ^ orderOf count := by
  unfold orderOf
  split
  · assumption
  have hlt : count < 2 ^ (count.log2 + 1) := lt_log2_self
  dsimp only
  split
  · exact le_of_lt hlt
  · omega

lemma orderOf_le {count n : Nat} (h : count ≤ 2 ^ n) : orderOf count ≤ n := by
  unfold orderOf
  split
  · exact zero_le n
  have hle : 2 ^ count.log2 ≤ count := log2_self_le (by omega)
  dsimp only
  split
  · rename_i hgt
    exact (Nat.pow_lt_pow_iff_right Nat.one_lt_two).mp (Nat.lt_of_lt_of_le hgt h)
  · exact (Nat.pow_le_pow_iff_right Nat.one_lt_two).mp (Nat.le_trans hle h)

namespace BuddyAllocator

variable (b : BuddyAllocator)

lemma blockContainsReserved_eq_false {frame order : Nat} :
    b.blockContainsReserved frame order = false
      ↔ ∀ i ∈ span (frame, order), i < b.numFrames → b.flags i ≠ .reserved := by
  simp only [blockContainsReserved, List.any_eq_false, List.mem_range, Bool.and_eq_true,
    decide_eq_true_eq, not_and, mem_span]
  constructor
  · intro h i hi
    have hat := h (i - frame) (by omega)
    rwa [Nat.add_sub_cancel' hi.1] at hat
  · intro h i hi
    exact h (frame + i) ⟨Nat.le_add_right _ _, Nat.add_lt_add_left hi _⟩

lemma firstAllocatable_eq (order fuel cur : Nat) : b.firstAllocatable order fuel cur
      = find (linksOf b.nodes) (fun f => !b.blockContainsReserved f order) fuel (optionOf cur) := by
  induction fuel generalizing cur with unfold firstAllocatable optionOf
  | zero => split <;> rfl
  | succ fuel ih =>
    split
    · rfl
    show (if ¬ b.blockContainsReserved cur order then some (some cur)
      else b.firstAllocatable order fuel (b.nodes cur).next) = _
    rw [find, ih]
    cases b.blockContainsReserved cur order <;> rfl

end BuddyAllocator

/-! ## Taking a block -/

variable {b b1 : BuddyAllocator} {lists : Nat → List Nat} {live : Set (Nat × Nat)}

lemma Shape.length_le (h : Shape b lists live) (k : Nat) : (lists k).length ≤ b.numFrames := by
  have hsb : lists k ⊆ range b.numFrames := fun f hf => mem_range.mpr (h.frame_lt hf)
  have hle := ((h.holds.nodup k).subperm hsb).length_le
  rwa [length_range] at hle

lemma Shape.takeAllocatable (h : Shape b lists live) (k : Nat) : b.takeAllocatable k = some none
      ∨ ∃ f b1, b.takeAllocatable k = some (some (f, b1)) ∧ f ∈ lists k
        ∧ b.blockContainsReserved f k = false ∧ b.Relinked b1
        ∧ Shape b1 (update lists k ((lists k).erase f)) (insert (f, k) live) ∧ (f, k) ∉ live := by
  have hfi : b.firstAllocatable k b.numFrames (b.freeLists k).head
      = some ((lists k).find? fun f => !b.blockContainsReserved f k) := by
    rw [b.firstAllocatable_eq]
    exact (h.holds.represents.linked k).find _ (h.length_le k)
  unfold BuddyAllocator.takeAllocatable
  rw [hfi]
  cases hfn : (lists k).find? fun f => !b.blockContainsReserved f k with
  | none => exact .inl rfl
  | some f =>
    have hm : f ∈ lists k := mem_of_find?_eq_some hfn
    have hf : b.blockContainsReserved f k = false := by simpa using find?_some hfn
    obtain ⟨b1, hr, hs, hsh, hw⟩ := h.take hm
    refine .inr ⟨f, b1, ?_, hm, hf, hs, hsh, hw⟩
    show (b.removeNode k f).map _ = _
    rw [hr]
    rfl

/-! ## Splitting it -/

/-- The lists with the upper halves that splitting a block from order `c` down to `o` leaves. -/
def splitLists (lists : Nat → List Nat) (f o c : Nat) : Nat → List Nat :=
  fun k => if o ≤ k ∧ k < c then (f + 2 ^ k) :: lists k else lists k

lemma splitLists_self (lists : Nat → List Nat) (f o : Nat) : splitLists lists f o o = lists := by
  funext k
  exact if_neg (by omega)

lemma splitLists_succ (lists : Nat → List Nat) (f : Nat) {o c : Nat} (h : o ≤ c) :
    splitLists (update lists c ((f + 2 ^ c) :: lists c)) f o c = splitLists lists f o (c + 1) := by
  funext k
  unfold splitLists
  by_cases hk : k = c
  · subst hk
    rw [update_self, if_neg (by omega), if_pos (by omega)]
  · rw [update_of_ne hk]
    exact if_congr (by omega) rfl rfl

lemma Shape.splitDown {f o c : Nat} (h : Shape b lists (insert (f, c) live))
    (hw : (f, c) ∉ live) (hoc : o ≤ c) (hsmall : b.numFrames ≤ FREE_LIST_END) :
    ∃ b1, BuddyAllocator.splitDown f o c b = some b1 ∧ b.Relinked b1
      ∧ Shape b1 (splitLists lists f o c) (insert (f, o) live) ∧ (f, o) ∉ live
      ∧ freeSize (splitLists lists f o c) + 2 ^ o = freeSize lists + 2 ^ c := by
  induction c generalizing b lists with
  | zero =>
    obtain rfl : o = 0 := by omega
    exact ⟨b, rfl, BuddyAllocator.Relinked.refl b, h, hw, rfl⟩
  | succ c ih =>
    rw [BuddyAllocator.splitDown]
    by_cases ho : c + 1 > o
    · have hin : (f, c + 1) ∈ blocksOf lists ∪ insert (f, c + 1) live := .inr (mem_insert _ _)
      have hi : f + 2 ^ (c + 1) ≤ b.numFrames := h.tiling.inside _ hin
      have hbu : buddy f c = f + 2 ^ c := buddy_of_aligned (h.tiling.aligned _ hin)
      have hha : f + 2 ^ c < FREE_LIST_END := by
        have hpos := Nat.two_pow_pos c
        omega
      have hc : c < MAX_BUDDY_ORDER := lt_of_succ_lt (h.orders _ hin)
      -- one split, and then the rest of the way down
      obtain ⟨b1, hpu, hsame1, hshape1, hnew1⟩ := h.split hw hha
      obtain ⟨b2, hr, hsame2, hshape2, hnew2, hsz⟩ :=
        ih hshape1 hnew1 (by omega) (hsame1.numFrames ▸ hsmall)
      rw [splitLists_succ lists f (by omega)] at hshape2 hsz
      rw [if_pos ho, hbu, hpu]
      refine ⟨b2, hr, hsame1.trans hsame2, hshape2, hnew2, ?_⟩
      rw [hsz, freeSize_push hc]
      omega
    obtain rfl : o = c + 1 := by omega
    rw [if_neg ho, splitLists_self]
    exact ⟨b, rfl, BuddyAllocator.Relinked.refl b, h, hw, rfl⟩

/-! ## The whole call -/

/-- The lists after a block of order `c` is taken and split down to `o`. -/
def allocatedLists (lists : Nat → List Nat) (f o c : Nat) : Nat → List Nat :=
  splitLists (update lists c ((lists c).erase f)) f o c

/-- What a successful call for a block of order `o` leaves. -/
structure Allocated (b : BuddyAllocator) (lists : Nat → List Nat) (live : Set (Nat × Nat))
    (o f c : Nat) (b' : BuddyAllocator) : Prop where
  /-- A listed block of order `c`, from the same frame on, was taken. -/
  taken : f ∈ lists c
  orders : o ≤ c
  /-- It has no reserved frame. -/
  unreserved : ∀ i ∈ span (f, c), b.flags i ≠ .reserved
  /-- The block is live then, and the upper halves are listed. -/
  valid : Valid b' (allocatedLists lists f o c) (insert (f, o) live)
  new : (f, o) ∉ live
  numFrames : b'.numFrames = b.numFrames
  baseAddress : b'.baseAddress = b.baseAddress
  freeFrames : b'.freeFrames + 2 ^ o = b.freeFrames

lemma counter_sub {total size left : Nat} (h : left + size = total) (ht : total < 2 ^ 64) :
    (total + 2 ^ 64 - size) % 2 ^ 64 = left := by
  omega

lemma Valid.handOut {f o c : Nat} (h : Valid b lists live) (hf : f ∈ lists c) (hoc : o ≤ c)
    (hfr : b.blockContainsReserved f c = false) (hs : b.Relinked b1)
    (hsh : Shape b1 (update lists c ((lists c).erase f)) (insert (f, c) live))
    (hw : (f, c) ∉ live) (hsmall : b.numFrames ≤ FREE_LIST_END) :
    ∃ b', Allocated b lists live o f c b'
      ∧ b1.handOut f o c = (Checked.add 64 b.baseAddress (f * 4096)).map fun a => (some a, b') := by
  have hc := h.order_lt hf
  obtain ⟨b2, hsp, hsame2, hshape2, hnew2, hsz⟩ := hsh.splitDown hw hoc (hs.numFrames ▸ hsmall)
  have ha : b.Relinked b2 := hs.trans hsame2
  -- the free frames before and after
  have her := freeSize_erase hc hf
  have htt : freeSize (allocatedLists lists f o c) + 2 ^ o = freeSize lists := hsz.trans her
  have hcn : (b2.freeFrames + 2 ^ 64 - 2 ^ o) % 2 ^ 64 = freeSize (allocatedLists lists f o c) := by
    rw [ha.freeFrames, h.freeFrames]
    exact counter_sub htt (lt_of_le_of_lt h.freeSize_le h.words)
  refine ⟨{ b2 with
      flags := b2.markBlock f o .used
      freeFrames := (b2.freeFrames + 2 ^ 64 - 2 ^ o) % 2 ^ 64 },
    ⟨hf, hoc, ?_, ⟨hshape2.congr rfl rfl rfl, ha.initialised.trans h.initialised, hcn⟩,
      hnew2, ha.numFrames, ha.baseAddress, ?_⟩, ?_⟩
  · intro i hi
    have hin := h.tiling.inside (f, c) (.inl hf)
    exact (b.blockContainsReserved_eq_false).mp hfr i hi (lt_of_lt_of_le hi.2 hin)
  · rw [hcn, h.freeFrames, htt]
  · unfold BuddyAllocator.handOut
    rw [hsp, bind_some, ha.baseAddress]

lemma Valid.allocateFrom {o : Nat} (h : Valid b lists live)
    (hsmall : b.numFrames ≤ FREE_LIST_END) (orders : List Nat) (hos : ∀ c ∈ orders, o ≤ c) :
    b.allocateFrom o orders = some (none, b)
      ∨ ∃ f c b', Allocated b lists live o f c b' ∧ b.allocateFrom o orders
          = (Checked.add 64 b.baseAddress (f * 4096)).map fun a => (some a, b') := by
  induction orders with
  | nil => exact .inl rfl
  | cons c orders ih =>
    rw [BuddyAllocator.allocateFrom]
    rcases h.takeAllocatable c with hn | ⟨f, b1, hta, hf, hfr, hs, hsh, hw⟩
    · rw [hn]
      exact ih fun c hc => hos c (mem_cons_of_mem _ hc)
    obtain ⟨b', hal, hr⟩ := h.handOut hf (hos c mem_cons_self) hfr hs hsh hw hsmall
    rw [hta]
    exact .inr ⟨f, c, b', hal, hr⟩

lemma Valid.allocate {count : Nat} (h : Valid b lists live)
    (hsmall : b.numFrames ≤ FREE_LIST_END) (hpos : 1 ≤ count) : b.allocate count = some (none, b)
      ∨ ∃ f c b', Allocated b lists live (min (orderOf count) (MAX_BUDDY_ORDER - 1)) f c b'
        ∧ b.allocate count
          = (Checked.add 64 b.baseAddress (f * 4096)).map fun a => (some a, b') := by
  have hrd : ¬ (¬ b.initialised ∨ count = 0) := by
    simp only [h.initialised, not_true_eq_false, false_or]
    omega
  unfold BuddyAllocator.allocate
  rw [if_neg hrd]
  exact h.allocateFrom hsmall _ fun c hc => (mem_range'_1.mp hc).1

/-! ## What a request gets -/

lemma Allocated.freeSet_eq {o f c : Nat} {b' : BuddyAllocator} (h : Shape b lists live)
    (ha : Allocated b lists live o f c b') :
    freeSet (allocatedLists lists f o c) = freeSet lists \ span (f, o) := by
  ext i
  rw [ha.valid.mem_freeSet, mem_sdiff, h.mem_freeSet, ha.numFrames, forall_mem_insert,
    and_assoc, and_comm (a := i ∉ span (f, o))]

lemma Allocated.mem_span {o f c i : Nat} {b' : BuddyAllocator}
    (ha : Allocated b lists live o f c b') (hi : i ∈ span (f, o)) : i ∈ span (f, c) :=
  ⟨hi.1, Nat.lt_of_lt_of_le hi.2
    (Nat.add_le_add_left (Nat.pow_le_pow_right Nat.two_pos ha.orders) f)⟩

section

variable {count : Nat} (h : Valid b lists live) (hsmall : b.numFrames ≤ FREE_LIST_END)
  (hpos : 1 ≤ count)
include h hsmall hpos

lemma Valid.allocate_some {address : Nat} (hr : b.allocate count = some (some address, b1)) :
    ∃ f c, address = b.baseAddress + 4096 * f
      ∧ Allocated b lists live (min (orderOf count) (MAX_BUDDY_ORDER - 1)) f c b1 := by
  rcases h.allocate hsmall hpos with hn | ⟨f, c, b', hal, hso⟩
  · rw [hn] at hr
    simp at hr
  rw [hso] at hr
  obtain ⟨a, had, hpr⟩ := map_eq_some_iff.mp hr
  obtain ⟨rfl, rfl⟩ : a = address ∧ b' = b1 := by simpa using hpr
  refine ⟨f, c, ?_, hal⟩
  rw [(Checked.add_eq_some_iff.mp had).2, mul_comm]

lemma Valid.allocate_twice {b2 : BuddyAllocator} {count' address address' : Nat}
    (hp' : 1 ≤ count') (h1 : b.allocate count = some (some address, b1))
    (h2 : b1.allocate count' = some (some address', b2)) : address ≠ address' := by
  obtain ⟨f, _, rfl, ha⟩ := h.allocate_some hsmall hpos h1
  obtain ⟨f', _, rfl, ha'⟩ := ha.valid.allocate_some (ha.numFrames ▸ hsmall) hp' h2
  rw [ha.baseAddress]
  intro heq
  obtain rfl : f = f' := by omega
  -- two live blocks that start at the same frame are one
  have hlv : (f, min (orderOf count) (MAX_BUDDY_ORDER - 1)) ∈ insert
      (f, min (orderOf count') (MAX_BUDDY_ORDER - 1))
      (insert (f, min (orderOf count) (MAX_BUDDY_ORDER - 1)) live) :=
    mem_insert_of_mem _ (mem_insert _ _)
  have hs := ha'.valid.tiling.disjoint _ (.inr hlv) _ (.inr (mem_insert _ _)) f
    (first_mem_span _) (first_mem_span _)
  exact ha'.new (hs ▸ mem_insert _ _)

/-- An aligned free block is taken, and what is left of it is listed. -/
theorem allocate_valid (hcount : count ≤ 2 ^ 20) :
    (∀ address b', b.allocate count = some (some address, b') →
      ∃ f o c, address = b.baseAddress + 4096 * f ∧ count ≤ 2 ^ o ∧ 2 ^ o ∣ f
        ∧ (∀ i ∈ span (f, o), i ∈ freeSet lists ∧ b.flags i ≠ .reserved)
        ∧ Valid b' (allocatedLists lists f o c) (insert (f, o) live)
        ∧ freeSet (allocatedLists lists f o c) = freeSet lists \ span (f, o)
        ∧ (∀ k, o ≤ k → k < c → f + 2 ^ k ∈ allocatedLists lists f o c k)
        ∧ b'.freeFrames + 2 ^ o = b.freeFrames)
    ∧ (∀ b', b.allocate count = some (none, b') → b' = b)
    ∧ (b.baseAddress + 4096 * b.numFrames ≤ 2 ^ 64 → b.allocate count ≠ none) := by
  have hor : min (orderOf count) (MAX_BUDDY_ORDER - 1) = orderOf count :=
    min_eq_left (orderOf_le hcount)
  refine ⟨fun address b' hr => ?_, fun b' hr => ?_, fun hro hn => ?_⟩
  · obtain ⟨f, c, had, hal⟩ := h.allocate_some hsmall hpos hr
    rw [hor] at hal
    refine ⟨f, orderOf count, c, had, le_two_pow_orderOf count,
      hal.valid.tiling.aligned (f, orderOf count) (.inr (mem_insert _ _)), ?_,
      hal.valid, hal.freeSet_eq h.toShape, ?_, hal.freeFrames⟩
    · intro i hi
      have hic := hal.mem_span hi
      exact ⟨⟨(f, c), hal.taken, hic⟩, hal.unreserved i hic⟩
    intro k hok hkc
    unfold allocatedLists splitLists
    rw [if_pos ⟨hok, hkc⟩]
    exact mem_cons_self
  · rcases h.allocate hsmall hpos with hs | ⟨f, c, b'', -, hso⟩
    · rw [hs] at hr
      simpa using hr.symm
    rw [hso] at hr
    obtain ⟨_, -, hpr⟩ := map_eq_some_iff.mp hr
    simp at hpr
  rcases h.allocate hsmall hpos with hs | ⟨f, c, b'', hal, hso⟩
  · rw [hs] at hn
    cases hn
  have hlt : f < b.numFrames := h.frame_lt hal.taken
  rw [hso, Checked.add_eq (by omega)] at hn
  cases hn

end

theorem allocate_valid_pair :
    ∃ b', (singleBlock 2 0x100000 0 1).allocate 1 = some (some 0x100000, b')
      ∧ ∃ f o lists, 0x100000 = 0x100000 + 4096 * f ∧ Valid b' lists (insert (f, o) ∅)
        ∧ b'.freeFrames + 2 ^ o = 2 := by
  have htl : Tiling 2 (insert (0, 1) ∅) := by
    refine (Tiling.uniform 1 1).congr fun x => ?_
    obtain ⟨f, _⟩ := x
    simp only [mem_insert_iff, mem_empty_iff_false, or_false, Prod.mk.injEq, mem_ofPred_eq]
    omega
  have hvd : Valid (singleBlock 2 0x100000 0 1) (singleList 0 1) ∅ :=
    singleBlock_valid (by decide) (by decide) (by simp [MAX_BUDDY_ORDER]) (notMem_empty _) htl
  obtain ⟨hso, -, -⟩ := allocate_valid hvd (by decide) (le_refl 1) (by decide)
  have hr : ((singleBlock 2 0x100000 0 1).allocate 1).map Prod.fst = some (some 0x100000) := by
    decide +kernel
  obtain ⟨⟨_, b'⟩, hr, rfl⟩ := map_eq_some_iff.mp hr
  obtain ⟨f, o, _, had, -, -, -, haf, -, -, hf⟩ := hso _ _ hr
  exact ⟨b', hr, f, o, _, had, haf, hf⟩

/-- The buddy of the last frame but one has the number that ends a list. -/
theorem allocate_loses_last_frame :
    Valid (singleBlock (2 ^ 32) 0 (2 ^ 32 - 2) 1) (singleList (2 ^ 32 - 2) 1)
        {x | x.2 = 1 ∧ 2 ∣ x.1 ∧ x.1 < 2 ^ 32 - 2}
      ∧ ∃ b', (singleBlock (2 ^ 32) 0 (2 ^ 32 - 2) 1).allocate 1
          = some (some (4096 * (2 ^ 32 - 2)), b') ∧ ∀ lists live, ¬ Valid b' lists live := by
  constructor
  · apply singleBlock_valid
    · decide
    · decide
    · rintro x (rfl | hx)
      · decide
      · rw [hx.1]
        decide
    · simp
    refine (Tiling.uniform (2 ^ 31) 1).congr fun x => ?_
    obtain ⟨_, _⟩ := x
    simp only [mem_insert_iff, Prod.mk.injEq, mem_ofPred_eq]
    omega
  -- the list of order 0 counts one block and has none
  have hr : ((singleBlock (2 ^ 32) 0 (2 ^ 32 - 2) 1).allocate 1).map
        (fun result => (result.1, result.2.freeLists 0))
      = some (some (4096 * (2 ^ 32 - 2)), ⟨FREE_LIST_END, 1⟩) := by
    decide +kernel
  obtain ⟨⟨_, b'⟩, hr, hrs⟩ := map_eq_some_iff.mp hr
  obtain ⟨rfl, hli⟩ := Prod.mk.inj hrs
  refine ⟨b', hr, fun lists live h => ?_⟩
  have hnl : lists 0 = [] := h.holds.eq_nil_of_head (congrArg FreeListHead.head hli)
  have hcn : (b'.freeLists 0).count = (lists 0).length := h.holds.count 0
  rw [hnl, hli] at hcn
  cases hcn

end Nt61.Buddy
