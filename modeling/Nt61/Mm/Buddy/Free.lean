/-
Free — when `free` gives a block back correctly.

The merging loop looks at one bit of the buddy, `on_list`. The bit says that the buddy heads a free
block, not of which order: a buddy whose region is split has it too if its first part is free. The
loop then unlinks that part from the list of another order and merges with frames that are not free.
-/
import Nt61.Mm.Buddy.Shape

namespace Nt61.Buddy

open Lib DList Nat Option Function Set

/-- Each buddy that the loop finds marked is a free block of the order the loop is at; the frame
that ends up on a list is not the number that ends the lists. -/
def Mergeable (b : BuddyAllocator) (lists : Nat → List Nat) : Nat → Nat → Nat → Prop
  | 0, frame, _ => frame < FREE_LIST_END
  | left + 1, frame, order =>
    if buddy frame order < b.numFrames ∧ (b.nodes (buddy frame order)).onList ≠ 0 then
      buddy frame order ∈ lists order
        ∧ Mergeable b lists left (min frame (buddy frame order)) (order + 1)
    else frame < FREE_LIST_END

/-! ## The loop -/

variable {b b1 b2 : BuddyAllocator} {lists lists1 lists2 : Nat → List Nat}
variable {live : Set (Nat × Nat)} {left f o F K : Nat}

namespace BuddyAllocator

lemma coalesce_stop (h : ¬ (buddy f o < b.numFrames ∧ (b.nodes (buddy f o)).onList ≠ 0)) :
    coalesce (left + 1) f o b = some (f, o, b) := by
  rw [coalesce]
  by_cases hin : buddy f o ≥ b.numFrames
  · exact if_pos hin
  have hun : (b.nodes (buddy f o)).onList = 0 := by
    by_contra hmk
    exact h ⟨Nat.lt_of_not_le hin, hmk⟩
  rw [if_neg hin, if_pos hun]

lemma coalesce_merge (h : buddy f o < b.numFrames ∧ (b.nodes (buddy f o)).onList ≠ 0) :
    coalesce (left + 1) f o b
      = (b.removeNode o (buddy f o)).bind fun b => coalesce left (min f (buddy f o)) (o + 1) b := by
  rw [coalesce, if_neg (Nat.not_le_of_lt h.1), if_neg h.2]

lemma coalesce_grows (hr : coalesce left f o b = some (F, K, b1)) (hf : 2 ^ o ∣ f) :
    b.Relinked b1 ∧ 2 ^ K ∣ F ∧ o ≤ K ∧ span (f, o) ⊆ span (F, K)
      ∧ ∀ i ∈ span (f, o), (b1.nodes i).onList = (b.nodes i).onList := by
  induction left generalizing f o b with
  | zero =>
    cases hr
    exact ⟨Relinked.refl b1, hf, le_refl _, Set.Subset.rfl, fun _ _ => rfl⟩
  | succ left ih =>
    by_cases h : buddy f o < b.numFrames ∧ (b.nodes (buddy f o)).onList ≠ 0
    · rw [coalesce_merge h, bind_eq_some_iff] at hr
      obtain ⟨_, hrm, hr⟩ := hr
      obtain ⟨hs, hns, -⟩ := removeNode_eq_some _ hrm
      obtain ⟨hdv, hsn⟩ := min_buddy hf
      obtain ⟨hs', hK, _, hsb, hms⟩ := ih hr hdv
      refine ⟨hs.trans hs', hK, by omega, ?_, ?_⟩
      · exact fun i hi => hsb ((hsn i).mpr (.inl hi))
      intro i hi
      have hne : i ≠ buddy f o := fun heq => buddy_notMem_span hf (heq ▸ hi)
      rw [hms i ((hsn i).mpr (.inl hi)), hns, b.onList_removeNodes, if_neg hne]
    rw [coalesce_stop h] at hr
    cases hr
    exact ⟨Relinked.refl b1, hf, le_refl _, Set.Subset.rfl, fun _ _ => rfl⟩

end BuddyAllocator

open BuddyAllocator

lemma mergeable_congr (hnum : b1.numFrames = b.numFrames) (hf : 2 ^ o ∣ f)
    (hls : ∀ k, o ≤ k → lists1 k = lists k)
    (hms : ∀ i, i ∉ span (f, o) → (b1.nodes i).onList = (b.nodes i).onList) :
    Mergeable b1 lists1 left f o ↔ Mergeable b lists left f o := by
  induction left generalizing f o with
  | zero => exact Iff.rfl
  | succ left ih =>
    obtain ⟨hdv, hsn⟩ := min_buddy hf
    have hr := ih hdv (fun k hk => hls k (by omega))
      fun i hi => hms i fun hin => hi ((hsn i).mpr (.inl hin))
    unfold Mergeable
    rw [hnum, hms _ (buddy_notMem_span hf), hls o (le_refl o), hr]

lemma Shape.merge_step (h : Shape b lists (insert (f, o) live)) (hw : (f, o) ∉ live)
    (ho : o + 1 < MAX_BUDDY_ORDER) (hbu : buddy f o ∈ lists o) :
    ∃ b1 lists1, b.removeNode o (buddy f o) = some b1 ∧ b.Relinked b1
      ∧ Shape b1 lists1 (insert (min f (buddy f o), o + 1) live) ∧ (min f (buddy f o), o + 1) ∉ live
      ∧ freeSize lists1 + 2 ^ o = freeSize lists
      ∧ ∀ left, Mergeable b1 lists1 left (min f (buddy f o)) (o + 1)
        ↔ Mergeable b lists left (min f (buddy f o)) (o + 1) := by
  have hf : 2 ^ o ∣ f := h.tiling.aligned (f, o) (.inr (mem_insert _ _))
  obtain ⟨hdv, hsn⟩ := min_buddy hf
  obtain ⟨b1, hrm, hs, hsh, hnew1⟩ := h.merge hw ho hbu
  obtain ⟨-, hns, -⟩ := removeNode_eq_some _ hrm
  refine ⟨b1, _, hrm, hs, hsh, hnew1, freeSize_erase (h.order_lt hbu) hbu, ?_⟩
  intro left
  apply mergeable_congr hs.numFrames hdv
  · intro k hk
    exact update_of_ne (by omega) _ _
  intro i hi
  have hne : i ≠ buddy f o := fun heq =>
    hi ((hsn i).mpr (.inr (heq ▸ first_mem_span (buddy f o, o))))
  rw [hns, b.onList_removeNodes, if_neg hne]

/-! ## The condition is enough -/

lemma Shape.coalesce (h : Shape b lists (insert (f, o) live)) (hw : (f, o) ∉ live)
    (hlf : o + left < MAX_BUDDY_ORDER) (hmg : Mergeable b lists left f o) :
    ∃ F K b1 lists1, coalesce left f o b = some (F, K, b1) ∧ b.Relinked b1
      ∧ Shape b1 lists1 (insert (F, K) live) ∧ (F, K) ∉ live ∧ F < FREE_LIST_END
      ∧ freeSize lists1 + 2 ^ K = freeSize lists + 2 ^ o := by
  induction left generalizing f o b lists with
  | zero => exact ⟨f, o, b, lists, rfl, BuddyAllocator.Relinked.refl b, h, hw, hmg, rfl⟩
  | succ left ih =>
    unfold Mergeable at hmg
    by_cases hmk : buddy f o < b.numFrames ∧ (b.nodes (buddy f o)).onList ≠ 0
    · rw [if_pos hmk] at hmg
      obtain ⟨hbu, hmg⟩ := hmg
      -- one merge, and then the rest of the loop
      obtain ⟨b1, lists1, hrm, hs, hsh, hnew1, _, hcn⟩ := h.merge_step hw (by omega) hbu
      obtain ⟨F, K, b2, lists2, hr, hsame2, hshape2, hnew2, hF, _⟩ :=
        ih hsh hnew1 (by omega) ((hcn left).mpr hmg)
      rw [coalesce_merge hmk, hrm]
      refine ⟨F, K, b2, lists2, hr, hs.trans hsame2, hshape2, hnew2, hF, ?_⟩
      omega
    rw [if_neg hmk] at hmg
    rw [coalesce_stop hmk]
    exact ⟨f, o, b, lists, rfl, BuddyAllocator.Relinked.refl b, h, hw, hmg, rfl⟩

/-! ## The condition is needed -/

lemma Shape.frame_of_push (hpu : b.pushHead K F = some b2) (h : Shape b2 lists2 live) :
    F ≠ FREE_LIST_END ∧ F ∈ lists2 K := by
  obtain ⟨-, -, hls⟩ := pushHead_eq_some _ hpu
  have hli : b2.freeLists K = ⟨F, (b.freeLists K).count + 1⟩ := by rw [hls, update_self]
  have hF : F ≠ FREE_LIST_END := by
    intro he
    have hnl : lists2 K = [] := h.holds.eq_nil_of_head (by rw [hli, he])
    have hcn := h.holds.count K
    rw [hli, hnl] at hcn
    exact succ_ne_zero _ hcn
  exact ⟨hF, h.holds.mem_of_head hF (by rw [hli])⟩

lemma Shape.smaller_buddy (h : Shape b lists (insert (f, o) live))
    (hmk : buddy f o < b.numFrames ∧ (b.nodes (buddy f o)).onList ≠ 0)
    (ho : buddy f o ∉ lists o) : ∃ j < o, buddy f o ∈ lists j := by
  have hin : (f, o) ∈ blocksOf lists ∪ insert (f, o) live := .inr (mem_insert _ _)
  have hf : 2 ^ o ∣ f := h.tiling.aligned (f, o) hin
  obtain ⟨j, hj⟩ := (h.holds.onList_ne_zero hmk.1).mp hmk.2
  refine ⟨j, ?_, hj⟩
  by_contra hge
  have hlt : o < j := by
    rcases Nat.lt_or_eq_of_le (Nat.le_of_not_lt hge) with hlt | rfl
    · exact hlt
    · exact absurd hj ho
  have hpw : 2 ^ (o + 1) ≤ 2 ^ j := Nat.pow_le_pow_right Nat.two_pos hlt
  have hal : 2 ^ j ∣ buddy f o := h.tiling.aligned (buddy f o, j) (.inl hj)
  have hp := Nat.two_pow_pos o
  rcases buddy_cases hf with ⟨hdv, heq⟩ | ⟨-, heq⟩
  · -- a buddy behind the block is not aligned to the next order
    have hbt : 2 ^ (o + 1) ∣ f + 2 ^ o := heq ▸ Nat.dvd_trans (Nat.pow_dvd_pow 2 hlt) hal
    have hha := Nat.le_of_dvd hp ((Nat.dvd_add_right hdv).mp hbt)
    omega
  -- a larger block before it has the frames of both
  have hme : (buddy f o, j) = (f, o) := by
    refine h.tiling.disjoint _ (.inl hj) _ hin f ?_ (first_mem_span (f, o))
    simp only [mem_span]
    omega
  exact ne_of_gt hlt (congrArg Prod.snd hme)

variable {b' : BuddyAllocator}

lemma Shape.not_of_wrong_merge (h : Shape b lists (insert (f, o) live))
    (hmk : buddy f o < b.numFrames ∧ (b.nodes (buddy f o)).onList ≠ 0)
    (ho : buddy f o ∉ lists o) (hrm : b.removeNode o (buddy f o) = some b1)
    (hr : BuddyAllocator.coalesce left (min f (buddy f o)) (o + 1) b1 = some (F, K, b'))
    (hpu : b'.pushHead K F = some b2) : ¬ Shape b2 lists2 live := by
  intro h2
  have hin : (f, o) ∈ blocksOf lists ∪ insert (f, o) live := .inr (mem_insert _ _)
  have hf : 2 ^ o ∣ f := h.tiling.aligned (f, o) hin
  obtain ⟨j, hjo, hj⟩ := h.smaller_buddy hmk ho
  obtain ⟨hdv, hsn⟩ := min_buddy hf
  obtain ⟨hs, hns, -⟩ := removeNode_eq_some _ hrm
  obtain ⟨hs', -, -, hsb, hms⟩ := coalesce_grows hr hdv
  obtain ⟨hsame2, hnodes2, -⟩ := pushHead_eq_some _ hpu
  have hnum : b2.numFrames = b.numFrames := ((hs.trans hs').trans hsame2).numFrames
  have hls : (F, K) ∈ blocksOf lists2 := (h2.frame_of_push hpu).2
  -- the region of the buddy is in the block that was pushed
  have hrg : ∀ i, i ∈ span (buddy f o, o) → i ∈ span (F, K) := fun i hi =>
    hsb ((hsn i).mpr (.inr hi))
  have hFle : F ≤ buddy f o := (hrg _ (first_mem_span (buddy f o, o))).1
  have hpw : 2 ^ j < 2 ^ o := Nat.pow_lt_pow_right Nat.one_lt_two hjo
  have hp := Nat.two_pow_pos j
  have hi : buddy f o + 2 ^ j ∈ span (buddy f o, o) := by
    simp only [mem_span]
    omega
  have hil : buddy f o + 2 ^ j < b.numFrames := by
    have hins : F + 2 ^ K ≤ b2.numFrames := h2.tiling.inside (F, K) (.inl hls)
    have he := (hrg _ hi).2
    dsimp only at he
    omega
  obtain ⟨z, hz | rfl | hz, hiz⟩ := h.tiling.cover _ hil
  · -- it is listed, and its mark is still there
    have hzf : buddy f o < z.1 := by
      by_contra hle
      have heq : z = (buddy f o, j) := by
        refine h.tiling.disjoint z (.inl hz) _ (.inl hj) (buddy f o) ?_ (first_mem_span _)
        simp only [mem_span] at hiz ⊢
        omega
      rw [heq] at hiz
      simp only [mem_span] at hiz
      omega
    have hzn : z.1 ∈ span (buddy f o, o) := by
      simp only [mem_span] at hiz hi ⊢
      omega
    have hmr : (b2.nodes z.1).onList ≠ 0 := by
      have hon : (b.nodes z.1).onList = 1 := h.holds.marked z.2 z.1 hz
      have hne : z.1 ≠ buddy f o := ne_of_gt hzf
      rw [hnodes2, onList_pushNodes, hms _ ((hsn _).mpr (.inr hzn)), hns,
        onList_removeNodes, if_neg hne, hon, ite_self]
      exact one_ne_zero
    obtain ⟨l, hl⟩ := (h2.holds.onList_ne_zero (hnum ▸ h.frame_lt hz)).mp hmr
    have hme : (z.1, l) = (F, K) :=
      h2.tiling.disjoint _ (.inl hl) _ (.inl hls) z.1 (first_mem_span (z.1, l)) (hrg _ hzn)
    have hfs : z.1 = F := congrArg Prod.fst hme
    omega
  · -- it is not in the block that is freed
    have hds : ∀ i, i ∈ span (buddy f o, o) → i ∉ span (f, o) := by
      intro i hib hif
      simp only [mem_span] at hib hif
      rcases buddy_cases hf with ⟨-, heq⟩ | ⟨-, heq⟩ <;> omega
    exact hds _ hi hiz
  -- it is live, and still is
  have hme : z = (F, K) := h2.tiling.disjoint z (.inr hz) _ (.inl hls) _ hiz (hrg _ hi)
  exact h2.apart z hz (hme ▸ hls)

lemma Shape.mergeable (h : Shape b lists (insert (f, o) live)) (hw : (f, o) ∉ live)
    (hlf : o + left < MAX_BUDDY_ORDER) (hf : f < 2 ^ 32)
    (hr : BuddyAllocator.coalesce left f o b = some (F, K, b1))
    (hpu : b1.pushHead K F = some b2) (h2 : Shape b2 lists2 live) :
    Mergeable b lists left f o := by
  have hla : F < 2 ^ 32 → F < FREE_LIST_END := by
    have hne := (h2.frame_of_push hpu).1
    unfold FREE_LIST_END at hne ⊢
    omega
  induction left generalizing f o b lists with
  | zero =>
    cases hr
    exact hla hf
  | succ left ih =>
    unfold Mergeable
    by_cases hmk : buddy f o < b.numFrames ∧ (b.nodes (buddy f o)).onList ≠ 0
    · rw [if_pos hmk]
      rw [coalesce_merge hmk, bind_eq_some_iff] at hr
      obtain ⟨b', hrm, hr⟩ := hr
      by_cases hbu : buddy f o ∈ lists o
      · obtain ⟨b'', _, hrm', -, hsh, hw', -, hcn⟩ := h.merge_step hw (by omega) hbu
        obtain rfl : b' = b'' := some.inj (hrm.symm.trans hrm')
        have hmn : min f (buddy f o) < 2 ^ 32 := lt_of_le_of_lt (min_le_left _ _) hf
        exact ⟨hbu, (hcn left).mp (ih hsh hw' (by omega) hmn hr)⟩
      · exact absurd h2 (h.not_of_wrong_merge hmk hbu hrm hr hpu)
    rw [if_neg hmk]
    rw [coalesce_stop hmk] at hr
    cases hr
    exact hla hf

/-! ## The whole call -/

section

variable (h : Valid b lists live)
include h

variable (hlive : (f, o) ∈ live)
include hlive

lemma Valid.free_eq {count : Nat} (hcn : min (orderOf count) (MAX_BUDDY_ORDER - 1) = o) :
    b.free (b.baseAddress + 4096 * f) count = (coalesce (MAX_BUDDY_ORDER - 1 - o) (f % 2 ^ 32) o
          { b with flags := b.markBlock (f % 2 ^ 32) o .free }).bind fun (F, K, b) =>
        (b.pushHead K F).map fun b => { b with freeFrames := (b.freeFrames + 2 ^ o) % 2 ^ 64 } := by
  have hi : f + 2 ^ o ≤ b.numFrames := h.tiling.inside (f, o) (.inr hlive)
  have hp := Nat.two_pow_pos o
  have hrd : ¬ (¬ b.initialised ∨ b.baseAddress + 4096 * f < b.baseAddress) := by
    simp only [h.initialised, not_true_eq_false, false_or]
    omega
  have hfr : (b.baseAddress + 4096 * f - b.baseAddress) / 4096 = f := by
    rw [Nat.add_sub_cancel_left, Nat.mul_div_cancel_left f (by decide)]
  have hin : ¬ (f ≥ b.numFrames ∨ min (f + 2 ^ o) (2 ^ 64 - 1) > b.numFrames) := by
    have hmn := Nat.min_le_left (f + 2 ^ o) (2 ^ 64 - 1)
    rintro (hge | hgt)
    · omega
    · exact absurd (Nat.le_trans hmn hi) (Nat.not_le_of_lt hgt)
  unfold free
  rw [if_neg hrd]
  rw [hfr, hcn, if_neg hin]

lemma Valid.inHand (flags : Nat → FrameFlags) :
    Shape { b with flags := flags } lists (insert (f, o) (live \ {(f, o)})) := by
  rw [insert_sdiff_singleton, insert_eq_of_mem hlive]
  exact h.toShape.congr rfl rfl rfl

section

variable {lists' : Nat → List Nat} (h' : Valid b' lists' (live \ {(f, o)}))
  (hnum : b'.numFrames = b.numFrames)
include h' hnum

lemma Valid.freeSet_of_free : freeSet lists' = freeSet lists ∪ span (f, o) := by
  ext i
  rw [h'.mem_freeSet, mem_union, h.mem_freeSet, hnum]
  constructor
  · rintro ⟨hlt, ho⟩
    by_cases hi : i ∈ span (f, o)
    · exact .inr hi
    refine .inl ⟨hlt, fun x hx hix => ?_⟩
    by_cases heq : x = (f, o)
    · exact hi (heq ▸ hix)
    · exact ho x ⟨hx, heq⟩ hix
  rintro (⟨hlt, ho⟩ | hi)
  · exact ⟨hlt, fun x hx => ho x hx.1⟩
  have hin : f + 2 ^ o ≤ b.numFrames := h.tiling.inside (f, o) (.inr hlive)
  refine ⟨lt_of_lt_of_le hi.2 hin, fun x hx hix => hx.2 ?_⟩
  exact h.tiling.disjoint x (.inr hx.1) (f, o) (.inr hlive) i hix hi

lemma Valid.frame_lt_of_free : f < 2 ^ 32 := by
  have hf : f ∈ freeSet lists' := by
    rw [h.freeSet_of_free hlive h' hnum]
    exact .inr (first_mem_span (f, o))
  obtain ⟨x, hx, hfx⟩ := hf
  have hnm : x.1 < FREE_LIST_END := h'.holds.numbers x.2 x.1 hx
  have hor : x.2 < MAX_BUDDY_ORDER := h'.orders x (.inl hx)
  unfold FREE_LIST_END at hnm
  unfold MAX_BUDDY_ORDER at hor
  exact lt_of_lt_of_le hfx.2 (add_two_pow_le (h'.tiling.aligned x (.inl hx)) (by omega) (by omega))

end

end

lemma Mergeable.frame_lt (hnm : Holds b lists) (ho : o < MAX_BUDDY_ORDER)
    (h : Mergeable b lists left f o) : f < 2 ^ 32 := by
  have he : f < FREE_LIST_END → f < 2 ^ 32 := fun hlt => lt_of_lt_of_le hlt (sub_le _ _)
  cases left with
  | zero => exact he h
  | succ left =>
    unfold Mergeable at h
    split at h
    · have hbu : buddy f o < FREE_LIST_END := hnm.numbers o _ h.1
      unfold MAX_BUDDY_ORDER at ho
      exact lt_of_buddy_lt (by omega) (lt_of_lt_of_le hbu (sub_le _ _))
    · exact he h

/-- A free keeps the pool valid exactly if it merges with whole free blocks only. -/
theorem free_valid_iff {count : Nat} (h : Valid b lists live) (hlive : (f, o) ∈ live)
    (hcount : min (orderOf count) (MAX_BUDDY_ORDER - 1) = o) :
    (∃ b' lists', b.free (b.baseAddress + 4096 * f) count = some b'
        ∧ Valid b' lists' (live \ {(f, o)}) ∧ freeSet lists' = freeSet lists ∪ span (f, o))
      ↔ Mergeable b lists (MAX_BUDDY_ORDER - 1 - o) f o := by
  have ho : o < MAX_BUDDY_ORDER := h.orders (f, o) (.inr hlive)
  have hf : 2 ^ o ∣ f := h.tiling.aligned (f, o) (.inr hlive)
  have hlf : o + (MAX_BUDDY_ORDER - 1 - o) < MAX_BUDDY_ORDER := by omega
  have hw : (f, o) ∉ live \ {(f, o)} := fun hx => hx.2 rfl
  have hfl : ∀ flags, Mergeable { b with flags := flags } lists (MAX_BUDDY_ORDER - 1 - o) f o
      ↔ Mergeable b lists (MAX_BUDDY_ORDER - 1 - o) f o := fun _ =>
    mergeable_congr rfl hf (fun _ _ => rfl) fun _ _ => rfl
  rw [h.free_eq hlive hcount]
  constructor
  · rintro ⟨b', lists', hr, hvd, -⟩
    obtain ⟨⟨F, K, b1⟩, hcl, hr⟩ := bind_eq_some_iff.mp hr
    obtain ⟨b2, hpu, rfl⟩ := map_eq_some_iff.mp hr
    have hal : 2 ^ o ∣ f % 2 ^ 32 := by
      refine (dvd_mod_iff (pow_dvd_pow 2 ?_)).mpr hf
      unfold MAX_BUDDY_ORDER at ho
      omega
    have hnum : b2.numFrames = b.numFrames :=
      ((coalesce_grows hcl hal).1.trans (pushHead_eq_some _ hpu).1).numFrames
    have hlt : f < 2 ^ 32 := h.frame_lt_of_free hlive hvd hnum
    rw [mod_eq_of_lt hlt] at hcl
    exact (hfl _).mp ((h.inHand hlive _).mergeable hw hlf hlt hcl hpu
      (hvd.toShape.congr rfl rfl rfl))
  intro hmg
  rw [mod_eq_of_lt (hmg.frame_lt h.holds ho)]
  obtain ⟨F, K, b1, lists1, hcl, hs, hsh, hnew1, hF, hsz⟩ :=
    (h.inHand hlive (b.markBlock f o .free)).coalesce hw hlf ((hfl _).mpr hmg)
  obtain ⟨b2, hpu, hsame2, hshape2⟩ := hsh.give hnew1 hF
  have hK : K < MAX_BUDDY_ORDER := hsh.orders (F, K) (.inr (mem_insert _ _))
  have ha := hs.trans hsame2
  -- the counter does not wrap: the free frames are at most all frames
  have htt : freeSize (update lists1 K (F :: lists1 K)) = freeSize lists + 2 ^ o := by
    rw [freeSize_push hK, hsz]
  have hcn : (b2.freeFrames + 2 ^ o) % 2 ^ 64 = freeSize (update lists1 K (F :: lists1 K)) := by
    have hbf : b2.freeFrames = freeSize lists := ha.freeFrames.trans h.freeFrames
    rw [hbf, ← htt]
    exact mod_eq_of_lt (lt_of_le_of_lt hshape2.freeSize_le hshape2.words)
  have hvd : Valid { b2 with freeFrames := (b2.freeFrames + 2 ^ o) % 2 ^ 64 }
      (update lists1 K (F :: lists1 K)) (live \ {(f, o)}) :=
    ⟨hshape2.congr rfl rfl rfl, ha.initialised.trans h.initialised, hcn⟩
  refine ⟨_, _, ?_, hvd, h.freeSet_of_free hlive hvd ha.numFrames⟩
  rw [hcl]
  show (b1.pushHead K F).map _ = _
  rw [hpu, map_some]

theorem free_valid_pair :
    ∃ b' lists', (singleBlock 2 0x100000 1 0).free (0x100000 + 4096 * 0) 1 = some b'
      ∧ Valid b' lists' ({(0, 0)} \ {(0, 0)})
      ∧ freeSet lists' = freeSet (singleList 1 0) ∪ span (0, 0) := by
  have htl : Tiling 2 (insert (1, 0) {(0, 0)}) := by
    refine (Tiling.uniform 2 0).congr fun x => ?_
    obtain ⟨_, _⟩ := x
    simp only [mem_insert_iff, mem_singleton_iff, Prod.mk.injEq, mem_ofPred_eq]
    omega
  have hvd : Valid (singleBlock 2 0x100000 1 0) (singleList 1 0) {(0, 0)} :=
    singleBlock_valid (by decide) (by decide) (by simp [MAX_BUDDY_ORDER]) (by simp) htl
  refine (free_valid_iff hvd (mem_singleton _) (by decide)).mpr ?_
  show Mergeable _ _ (18 + 1 + 1) 0 0
  rw [Mergeable, if_pos (by decide), Mergeable, if_neg (by decide)]
  exact ⟨by decide, by decide⟩

/-- Eight frames: 0 and 1 are one live block, and of its buddy 2 is free and 3 is live. -/
def splitBuddy : BuddyAllocator :=
  { singleBlock 8 0x100000 2 0 with
    freeLists := update (singleBlock 8 0x100000 2 0).freeLists 1 ⟨6, 1⟩
    nodes := update (singleBlock 8 0x100000 2 0).nodes 6 ⟨FREE_LIST_END, FREE_LIST_END, 1⟩
    freeFrames := 3 }

lemma splitBuddy_valid :
    Valid splitBuddy (update (singleList 2 0) 1 [6]) {(0, 1), (3, 0), (4, 1)} := by
  have hpr : Tiling 8 (insert (2, 1) {(6, 1), (0, 1), (4, 1)}) := by
    refine (Tiling.uniform 4 1).congr fun x => ?_
    obtain ⟨_, _⟩ := x
    simp only [mem_insert_iff, mem_singleton_iff, Prod.mk.injEq, mem_ofPred_eq]
    omega
  have htl : Tiling 8 (insert (2, 0) (insert (6, 1) {(0, 1), (3, 0), (4, 1)})) := by
    refine (hpr.split (by simp)).congr fun x => ?_
    simp only [mem_insert_iff]
    tauto
  have hon : Valid (singleBlock 8 0x100000 2 0) (singleList 2 0)
      (insert (6, 1) {(0, 1), (3, 0), (4, 1)}) :=
    singleBlock_valid (by decide) (by decide) (by simp [MAX_BUDDY_ORDER]) (by simp) htl
  obtain ⟨b1, hpu, -, hsh⟩ := hon.toShape.give (by simp) (by decide)
  have hso : some { splitBuddy with freeFrames := 1 } = some b1 := hpu
  rw [← some.inj hso] at hsh
  exact ⟨hsh.congr rfl rfl rfl, rfl, by decide⟩

/-- Freeing that block merges it with all of its buddy, and the live frame is handed out again. -/
theorem free_merges_live_frame :
    Valid splitBuddy (update (singleList 2 0) 1 [6]) {(0, 1), (3, 0), (4, 1)}
      ∧ ∃ b' b'', splitBuddy.free 0x100000 2 = some b'
        ∧ (∀ lists', ¬ Valid b' lists' ({(0, 1), (3, 0), (4, 1)} \ {(0, 1)}))
        ∧ b'.allocate 4 = some (some 0x100000, b'') := by
  refine ⟨splitBuddy_valid, ?_⟩
  have hr : (splitBuddy.free 0x100000 2).map (fun b' =>
      (b'.freeLists 2, (b'.allocate 4).map Prod.fst)) = some (⟨0, 1⟩, some (some 0x100000)) := by
    decide +kernel
  obtain ⟨b', hf, hrs⟩ := map_eq_some_iff.mp hr
  obtain ⟨hli, hal⟩ := Prod.mk.inj hrs
  obtain ⟨⟨_, b''⟩, hal, rfl⟩ := map_eq_some_iff.mp hal
  refine ⟨b', b'', hf, fun lists' h => ?_, hal⟩
  -- the block of four frames at 0 and the live frame 3
  have hbl : (0, 2) ∈ blocksOf lists' :=
    h.holds.mem_of_head (by decide) (congrArg FreeListHead.head hli)
  have hme : ((0, 2) : Nat × Nat) = (3, 0) :=
    h.tiling.disjoint _ (.inl hbl) _ (.inr (by simp)) 3 ⟨by decide, by decide⟩
      (first_mem_span (3, 0))
  cases hme

end Nt61.Buddy
