/-
Init — when `init` builds a valid state.

The function seeds the lists twice: all frames on the list of order 0, and then one block for each
of the lower 21 bits of the number of frames. The second seeding does not take its frames off the
first list, and it writes over the links of their nodes.
-/
import Nt61.Mm.Buddy.Allocate

namespace Nt61.Buddy

open Lib DList Function BuddyAllocator List Nat Option

/-! ## Counting the blocks -/

def countSize (b : BuddyAllocator) : Nat := weight MAX_BUDDY_ORDER fun k => (b.freeLists k).count

variable {b b' : BuddyAllocator} {lists : Nat → List Nat} {live : Set (Nat × Nat)}

lemma Holds.countSize_eq (h : Holds b lists) : countSize b = freeSize lists := by
  unfold countSize freeSize
  rw [funext h.count]

lemma countSize_update {k : Nat} (hk : k < MAX_BUDDY_ORDER) {head : FreeListHead}
    (hls : b'.freeLists = update b.freeLists k head) :
    countSize b' + (b.freeLists k).count * 2 ^ k = countSize b + head.count * 2 ^ k := by
  have hcn : head.count = (b'.freeLists k).count := by rw [hls, update_self]
  rw [hcn]
  exact @weight_update MAX_BUDDY_ORDER k hk (fun j => (b.freeLists j).count)
    (fun j => (b'.freeLists j).count) fun j hj => by rw [hls, update_of_ne hj]

lemma countSize_pushes {k : Nat} (hk : k < MAX_BUDDY_ORDER) {α : Type} (frame : α → Nat)
    (xs : List α) (hr : xs.foldlM (fun b x => b.pushHead k (frame x)) b = some b') :
    b.Relinked b' ∧ countSize b' = countSize b + xs.length * 2 ^ k := by
  induction xs generalizing b with
  | nil =>
    cases hr
    exact ⟨BuddyAllocator.Relinked.refl b', by simp⟩
  | cons x xs ih =>
    obtain ⟨_, hpu, hrs⟩ := bind_eq_some_iff.mp hr
    obtain ⟨hs, -, hls⟩ := pushHead_eq_some _ hpu
    obtain ⟨hs', _⟩ := ih hrs
    have hon := countSize_update hk hls
    refine ⟨hs.trans hs', ?_⟩
    rw [length_cons, succ_mul]
    rw [succ_mul] at hon
    omega

lemma blockCount_eq (n k : Nat) : n / 2 ^ k - 2 * (n / 2 ^ (k + 1)) = n / 2 ^ k % 2 := by
  rw [Nat.pow_succ, ← Nat.div_div_eq_div_mul]
  omega

lemma seedOrder_countSize {k : Nat} (hk : k < MAX_BUDDY_ORDER) (hr : b.seedOrder k = some b') :
    b.Relinked b' ∧ countSize b' = countSize b + b.numFrames / 2 ^ k % 2 * 2 ^ k := by
  obtain ⟨hs, hsz⟩ := countSize_pushes hk
    (fun i => (b.numFrames / 2 ^ (k + 1) * 2 ^ (k + 1) + i * 2 ^ k) % 2 ^ 32) _ hr
  rw [length_range, blockCount_eq] at hsz
  exact ⟨hs, hsz⟩

lemma seedOrders_countSize {m : Nat} (hm : m ≤ MAX_BUDDY_ORDER)
    (hr : (range m).foldlM seedOrder b = some b') :
    b.Relinked b' ∧ countSize b' = countSize b + b.numFrames % 2 ^ m := by
  induction m generalizing b' with
  | zero =>
    cases hr
    exact ⟨BuddyAllocator.Relinked.refl b, by rw [pow_zero, mod_one, add_zero]⟩
  | succ m ih =>
    rw [range_succ, foldlM_append] at hr
    obtain ⟨b₁, hfs, hla⟩ := bind_eq_some_iff.mp hr
    obtain ⟨hs, _⟩ := ih (by omega) hfs
    have hsd : b₁.seedOrder m = some b' := by simpa using hla
    obtain ⟨hs', hsz'⟩ := seedOrder_countSize (by omega) hsd
    refine ⟨hs.trans hs', ?_⟩
    rw [hsz', hs.numFrames, mod_pow_succ, mul_comm (2 ^ m)]
    omega

/-! ## The list of all frames -/

def allFrames (n : Nat) : Nat → List Nat := update (fun _ => []) 0 (range n)

lemma mem_blocksOf_allFrames {n : Nat} {x : Nat × Nat} :
    x ∈ blocksOf (allFrames n) ↔ x.2 = 0 ∧ x.1 < n := by
  obtain ⟨_, k⟩ := x
  rw [mem_blocksOf, allFrames]
  by_cases hk : k = 0
  · subst hk
    simp
  · simp [hk]

lemma seg_range' {m : Nat → Links Nat} (s n : Nat) (prev : Option Nat)
    (hlk : ∀ i, s ≤ i → i < s + n →
      m i = ⟨if i + 1 = s + n then none else some (i + 1), if i = s then prev else some (i - 1)⟩) :
    Seg m prev (range' s n) none := by
  induction n generalizing s prev with
  | zero => trivial
  | succ n ih =>
    refine ⟨?_, ih (s + 1) (some s) ?_⟩
    · rw [hlk s (le_refl s) (by omega), if_pos rfl]
      cases n with
      | zero => rw [if_pos (by omega)]; rfl
      | succ n => rw [if_neg (by omega)]; rfl
    intro i hle hlt
    rw [hlk i (by omega) (by omega), if_neg (show i ≠ s by omega)]
    congr 1
    · exact if_congr (by omega) rfl rfl
    split
    · rename_i heq
      rw [heq, Nat.add_sub_cancel]
    · rfl

lemma seedNode_eq {n i : Nat} (hn : n ≤ FREE_LIST_END) (hi : i < n) (node : BuddyNode) :
    seedNode n i node
      = { next := if i + 1 = n then FREE_LIST_END else i + 1
          prev := if i = 0 then FREE_LIST_END else i - 1
          onList := 1 } := by
  unfold FREE_LIST_END at hn
  have hnx : (i + 1) % 2 ^ 32 = i + 1 := by omega
  have hla : i = (n + 2 ^ 32 - 1) % 2 ^ 32 ↔ i + 1 = n := by omega
  have hpv : i ≠ 0 → (i + 2 ^ 32 - 1) % 2 ^ 32 = i - 1 := by omega
  unfold seedNode
  simp only [if_pos hi, hnx, hla]
  by_cases hfs : i = 0
  · by_cases he : i + 1 = n
    · simp only [if_pos hfs, if_pos he]
    · simp only [if_pos hfs, if_neg he]
  by_cases he : i + 1 = n
  · simp only [if_neg hfs, if_pos he, hpv hfs]
  · simp only [if_neg hfs, if_neg he, hpv hfs]

lemma linkOf_seedNode {n i : Nat} (hn : n ≤ FREE_LIST_END) (hi : i < n) (node : BuddyNode) :
    linkOf (seedNode n i node)
      = ⟨if i + 1 = n then none else some (i + 1), if i = 0 then none else some (i - 1)⟩ := by
  have hnx : optionOf (if i + 1 = n then FREE_LIST_END else i + 1)
      = if i + 1 = n then none else some (i + 1) := by
    split
    · exact optionOf_end
    · exact optionOf_of_lt (by omega)
  have hpv : optionOf (if i = 0 then FREE_LIST_END else i - 1)
      = if i = 0 then none else some (i - 1) := by
    split
    · exact optionOf_end
    · exact optionOf_of_lt (by omega)
  rw [seedNode_eq hn hi, linkOf, hnx, hpv]

lemma seeded_valid {n : Nat} (hn : n ≤ FREE_LIST_END) (hp : 0 < n) (hnm : b.numFrames = n)
    (hns : ∀ i < n, ∃ node, b.nodes i = seedNode n i node)
    (hls : b.freeLists = update (fun _ => FreeListHead.empty) 0 ⟨0, n⟩)
    (hin : b.initialised = true) (hfr : b.freeFrames = n) : Valid b (allFrames n) ∅ := by
  have hm : ∀ {k f}, f ∈ allFrames n k ↔ k = 0 ∧ f < n := fun {k f} =>
    mem_blocksOf_allFrames (x := (f, k))
  have hlk : ∀ i < n, linksOf b.nodes i
      = ⟨if i + 1 = n then none else some (i + 1), if i = 0 then none else some (i - 1)⟩ := by
    intro i hi
    obtain ⟨node, hno⟩ := hns i hi
    show linkOf (b.nodes i) = _
    rw [hno, linkOf_seedNode hn hi]
  have hsg : Seg (linksOf b.nodes) none (range n) none := by
    rw [range_eq_range']
    refine seg_range' 0 n none fun i _ hi => ?_
    rw [zero_add] at hi ⊢
    exact hlk i hi
  have hho : Holds b (allFrames n) := by
    refine ⟨⟨fun k => ?_, fun h1 h2 => (hm.mp h1).1.trans (hm.mp h2).1.symm⟩, ?_, ?_, ?_, ?_⟩
    · by_cases hk : k = 0
      · subst hk
        refine ⟨nodup_range, ?_, rfl, hsg⟩
        show optionOf (b.freeLists 0).head = (range n).head?
        rw [hls]
        cases n with
        | zero => omega
        | succ n => rw [range_succ_eq_map]; rfl
      have hnl : allFrames n k = [] := update_of_ne hk _ _
      rw [hnl]
      refine ⟨nodup_nil, ?_, by rw [headsOf, hnl], trivial⟩
      show optionOf (b.freeLists k).head = none
      rw [hls, update_of_ne hk]
      exact optionOf_end
    · intro k f hf
      exact lt_of_lt_of_le (hm.mp hf).2 hn
    · intro k
      rw [hls]
      by_cases hk : k = 0
      · subst hk
        rw [update_self, allFrames, update_self, length_range]
      · rw [update_of_ne hk, allFrames, update_of_ne hk]
        rfl
    · intro k f hf
      obtain ⟨node, hno⟩ := hns f (hm.mp hf).2
      rw [hno, seedNode_eq hn (hm.mp hf).2]
    · intro f hf ho
      exact absurd (hm.mpr ⟨rfl, hnm ▸ hf⟩) (ho 0)
  have hst : ∀ x, x ∈ blocksOf (allFrames n) ∪ ∅ ↔ x.2 = 0 ∧ x.1 < n := fun x => by
    rw [Set.union_empty, mem_blocksOf_allFrames]
  refine ⟨⟨hho, ?_, ?_, fun x hx => absurd hx (Set.notMem_empty x), ?_⟩, hin, ?_⟩
  · unfold FREE_LIST_END at hn
    omega
  · intro x hx
    rw [((hst x).mp hx).1]
    decide
  · rw [hnm]
    have hus := Tiling.uniform n 0
    rw [pow_zero, one_mul] at hus
    refine hus.congr fun x => (hst x).trans ?_
    simp
  rw [hfr]
  have hup := @freeSize_update (fun _ => []) 0 (by decide) (range n)
  rw [freeSize_nil, length_nil, length_range] at hup
  show n = freeSize (update (fun _ => []) 0 (range n))
  omega

/-! ## The call -/

def frameCount (regionBase regionSize frameTableSize : Nat) : Nat :=
  min (((regionBase + regionSize) / PAGE_SIZE * PAGE_SIZE
      - (regionBase + PAGE_SIZE - 1) / PAGE_SIZE * PAGE_SIZE) / PAGE_SIZE)
    (frameTableSize / (BuddyAllocator.FRAME_INFO_SIZE + BuddyAllocator.BUDDY_NODE_SIZE))

def seeded (regionBase numFrames : Nat) : BuddyAllocator :=
  { new with
    baseAddress := (regionBase + PAGE_SIZE - 1) / PAGE_SIZE * PAGE_SIZE
    numFrames := numFrames
    flags := fun i => if i < numFrames then .free else new.flags i
    nodes := fun i => seedNode (numFrames % 2 ^ 32) i
      (if i < numFrames then ⟨0, 0, 0⟩ else new.nodes i)
    freeLists := update new.freeLists 0 ⟨0, numFrames % 2 ^ 32⟩ }

variable {regionBase regionSize frameTableSize : Nat}

lemma init_eq (hb : regionBase + PAGE_SIZE < 2 ^ 64)
    (he : regionBase + regionSize < 2 ^ 64) : new.init regionBase regionSize frameTableSize
      = ((range MAX_BUDDY_ORDER).foldlM seedOrder
          (seeded regionBase (frameCount regionBase regionSize frameTableSize))).map fun b =>
        { b with freeFrames := b.numFrames, initialised := true } := by
  -- the whole frames of the region, and those the table has room for
  have hfr : ∀ a c : Nat, (if c > a then (c - a) / PAGE_SIZE else 0) = (c - a) / PAGE_SIZE := by
    intro a c
    split
    · rfl
    · rw [Nat.sub_eq_zero_of_le (by omega), Nat.zero_div]
  have hcl : ∀ n size : Nat, (if n * 20 > size then size / 20 else n) = min n (size / 20) := by
    intro n size
    split
    · omega
    · omega
  have hro : ¬ (frameCount regionBase regionSize frameTableSize * 8
      + frameCount regionBase regionSize frameTableSize * 12 > frameTableSize) := by
    have hle : frameCount regionBase regionSize frameTableSize ≤ frameTableSize / 20 :=
      min_le_right _ _
    omega
  unfold init
  rw [Checked.add_eq hb, Checked.add_eq he, bind_some, bind_some]
  simp only [hfr, BuddyAllocator.FRAME_INFO_SIZE, BuddyAllocator.BUDDY_NODE_SIZE, hcl]
  exact if_neg hro

lemma fits_of_init (h : new.init regionBase regionSize frameTableSize = some b) :
    regionBase + PAGE_SIZE < 2 ^ 64 ∧ regionBase + regionSize < 2 ^ 64 := by
  obtain ⟨_, hab, h⟩ := bind_eq_some_iff.mp h
  obtain ⟨_, hso, -⟩ := bind_eq_some_iff.mp h
  exact ⟨(Checked.add_eq_some_iff.mp hab).1, (Checked.add_eq_some_iff.mp hso).1⟩

lemma base_add_lt (he : regionBase + regionSize < 2 ^ 64)
    (hp : 1 ≤ frameCount regionBase regionSize frameTableSize) :
    regionBase + PAGE_SIZE < 2 ^ 64 := by
  have hle : frameCount regionBase regionSize frameTableSize
      ≤ ((regionBase + regionSize) / PAGE_SIZE * PAGE_SIZE
        - (regionBase + PAGE_SIZE - 1) / PAGE_SIZE * PAGE_SIZE) / PAGE_SIZE :=
    min_le_left _ _
  unfold PAGE_SIZE at hle ⊢
  omega

lemma countSize_seeded (n : Nat) : countSize (seeded regionBase n) = n % 2 ^ 32 := by
  have hw : countSize new = 0 := freeSize_nil
  have hup := @countSize_update new (seeded regionBase n) 0 (by decide) ⟨0, n % 2 ^ 32⟩ rfl
  have h0 : (new.freeLists 0).count = 0 := rfl
  dsimp only at hup
  omega

lemma countSize_of_init (h : new.init regionBase regionSize frameTableSize = some b) :
    b.freeFrames = frameCount regionBase regionSize frameTableSize
      ∧ countSize b = frameCount regionBase regionSize frameTableSize % 2 ^ 32
        + frameCount regionBase regionSize frameTableSize % 2 ^ MAX_BUDDY_ORDER := by
  obtain ⟨hb, he⟩ := fits_of_init h
  rw [init_eq hb he] at h
  obtain ⟨b₁, hsd, rfl⟩ := map_eq_some_iff.mp h
  obtain ⟨hs, hsz⟩ := seedOrders_countSize (le_refl _) hsd
  refine ⟨hs.numFrames, ?_⟩
  show countSize b₁ = _
  rw [hsz, countSize_seeded]
  rfl

lemma seedOrders_none (hdv : 2 ^ MAX_BUDDY_ORDER ∣ b.numFrames) (orders : List Nat)
    (hos : ∀ k ∈ orders, k < MAX_BUDDY_ORDER) : orders.foldlM seedOrder b = some b := by
  induction orders with
  | nil => rfl
  | cons k orders ih =>
    have hbt : b.numFrames / 2 ^ k - 2 * (b.numFrames / 2 ^ (k + 1)) = 0 := by
      have hk : 2 ^ k * 2 ∣ b.numFrames := by
        exact Nat.dvd_trans (Nat.pow_dvd_pow 2 (hos k mem_cons_self)) hdv
      obtain ⟨_, hq⟩ := hk
      rw [blockCount_eq, hq, Nat.mul_assoc, Nat.mul_div_cancel_left _ (Nat.two_pow_pos k),
        Nat.mul_mod_right]
    have hn : b.seedOrder k = some b := by
      unfold seedOrder
      dsimp only
      rw [hbt]
      rfl
    rw [foldlM_cons, hn]
    exact ih fun j hj => hos j (mem_cons_of_mem _ hj)

/-- The first pool is valid exactly if it is made of blocks of the largest order. -/
theorem init_valid_iff (hpos : 1 ≤ frameCount regionBase regionSize frameTableSize) :
    (∃ b lists, new.init regionBase regionSize frameTableSize = some b ∧ Valid b lists ∅
        ∧ ∀ address b₁ b₂, b.allocate 1 = some (some address, b₁) →
          b₁.allocate 1 ≠ some (some address, b₂)) ↔ regionBase + regionSize < 2 ^ 64
        ∧ 2 ^ MAX_BUDDY_ORDER ∣ frameCount regionBase regionSize frameTableSize
        ∧ frameCount regionBase regionSize frameTableSize < 2 ^ 32 := by
  constructor
  · rintro ⟨b, lists, hr, hvd, -⟩
    obtain ⟨_, hcn⟩ := countSize_of_init hr
    -- the lengths of the lists add up to the number of frames
    rw [hvd.holds.countSize_eq, ← hvd.freeFrames] at hcn
    have hlw : frameCount regionBase regionSize frameTableSize % 2 ^ MAX_BUDDY_ORDER
        < 2 ^ MAX_BUDDY_ORDER := Nat.mod_lt _ (Nat.two_pow_pos _)
    refine ⟨(fits_of_init hr).2, ?_, ?_⟩
    · apply Nat.dvd_of_mod_eq_zero
      unfold MAX_BUDDY_ORDER at hcn hlw ⊢
      omega
    · unfold MAX_BUDDY_ORDER at hcn hlw
      omega
  rintro ⟨he, hdv, hlt⟩
  have hb := base_add_lt he hpos
  have hsm : frameCount regionBase regionSize frameTableSize ≤ FREE_LIST_END := by
    unfold FREE_LIST_END
    omega
  have hr := @init_eq regionBase regionSize frameTableSize hb he
  rw [seedOrders_none hdv _ fun k hk => mem_range.mp hk] at hr
  have hmd := mod_eq_of_lt hlt
  have hls : update new.freeLists 0 ⟨0, frameCount regionBase regionSize frameTableSize % 2 ^ 32⟩
      = update (fun _ => FreeListHead.empty) 0
        ⟨0, frameCount regionBase regionSize frameTableSize⟩ := by
    rw [hmd]
    rfl
  have hvd := seeded_valid hsm hpos (b := { seeded regionBase
      (frameCount regionBase regionSize frameTableSize) with
      freeFrames := frameCount regionBase regionSize frameTableSize, initialised := true }) rfl
    (fun i _ => ⟨_, congrArg (fun n => seedNode n i _) hmd⟩) hls rfl rfl
  refine ⟨_, _, hr, hvd, fun address b₁ b₂ h1 h2 => ?_⟩
  exact hvd.allocate_twice hsm (le_refl 1) (le_refl 1) h1 h2 rfl

theorem init_valid_eightGiB : ∃ b lists, new.init 0x100000 (2 ^ 33) (2 ^ 21 * 20) = some b
      ∧ Valid b lists ∅ ∧ ∀ address b₁ b₂, b.allocate 1 = some (some address, b₁) →
        b₁.allocate 1 ≠ some (some address, b₂) :=
  (init_valid_iff (by decide)).mpr ⟨by decide, by decide, by decide⟩

/-- A region of four frames: the first two requests get the same frame. -/
theorem init_seeds_twice : ∃ b b₁ b₂, new.init 0x100000 0x4000 80 = some b
      ∧ (∀ lists live, ¬ Valid b lists live)
      ∧ b.allocate 1 = some (some 0x100000, b₁) ∧ b₁.allocate 1 = some (some 0x100000, b₂) := by
  have hr : (new.init 0x100000 0x4000 80).map (fun b =>
      ((b.freeLists 0).head, (b.freeLists 2).head, (b.allocate 1).map fun first =>
        (first.1, (first.2.allocate 1).map Prod.fst)))
      = some (0, 0, some (some 0x100000, some (some 0x100000))) := by
    decide +kernel
  obtain ⟨b, hin, hrs⟩ := map_eq_some_iff.mp hr
  obtain ⟨h0, hrs⟩ := Prod.mk.inj hrs
  obtain ⟨htw, hrs⟩ := Prod.mk.inj hrs
  obtain ⟨⟨_, b₁⟩, hfs, hrs⟩ := map_eq_some_iff.mp hrs
  obtain ⟨rfl, hrs⟩ := Prod.mk.inj hrs
  obtain ⟨⟨_, b₂⟩, hsn, rfl⟩ := map_eq_some_iff.mp hrs
  refine ⟨b, b₁, b₂, hin, fun lists live h => ?_, hfs, hsn⟩
  -- frame 0 heads two lists
  have heq : 0 = 2 := h.holds.represents.apart (h.holds.mem_of_head (by decide) h0)
    (h.holds.mem_of_head (by decide) htw)
  cases heq

end Nt61.Buddy
