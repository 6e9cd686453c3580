/-
Dyadic — intervals tiled by aligned blocks of power-of-two sizes.

A block of order `k` at `f` spans the `2^k` numbers from `f` on, and `f` is a multiple of `2^k`. A
tiling stays one if a block is split into its two halves, and if two halves are merged; the sizes of
its blocks add up.
-/
import Mathlib.Algebra.BigOperators.Group.Finset.Basic
import Mathlib.Data.Nat.Bitwise
import Mathlib.Order.Interval.Finset.Nat

namespace Nt61.Lib

open Finset Nat

/-- What a block spans: its first number and its order. -/
def span (x : Nat × Nat) : Set Nat := {i | x.1 ≤ i ∧ i < x.1 + 2 ^ x.2}

lemma mem_span {x : Nat × Nat} {i : Nat} : i ∈ span x ↔ x.1 ≤ i ∧ i < x.1 + 2 ^ x.2 := Iff.rfl

lemma first_mem_span (x : Nat × Nat) : x.1 ∈ span x :=
  ⟨Nat.le_refl _, Nat.lt_add_of_pos_right (Nat.two_pow_pos _)⟩

lemma span_halves (f k i : Nat) :
    i ∈ span (f, k + 1) ↔ i ∈ span (f, k) ∨ i ∈ span (f + 2 ^ k, k) := by
  simp only [mem_span]
  omega

lemma halves_disjoint (f k : Nat) :
    ∀ x ∈ ({(f, k), (f + 2 ^ k, k)} : Set (Nat × Nat)), ∀ y ∈ ({(f, k), (f + 2 ^ k, k)} : Set _),
      ∀ i, i ∈ span x → i ∈ span y → x = y := by
  rintro x (rfl | rfl) y (rfl | rfl) i hx hy
  · rfl
  · simp only [mem_span] at hx hy
    omega
  · simp only [mem_span] at hx hy
    omega
  · rfl

structure Tiling (n : Nat) (blocks : Set (Nat × Nat)) : Prop where
  aligned : ∀ x ∈ blocks, 2 ^ x.2 ∣ x.1
  inside : ∀ x ∈ blocks, x.1 + 2 ^ x.2 ≤ n
  disjoint : ∀ x ∈ blocks, ∀ y ∈ blocks, ∀ i, i ∈ span x → i ∈ span y → x = y
  cover : ∀ i < n, ∃ x ∈ blocks, i ∈ span x

namespace Tiling

variable {n : Nat} {blocks old new : Set (Nat × Nat)}

lemma replace (h : Tiling n blocks) (hold : old ⊆ blocks) (hal : ∀ x ∈ new, 2 ^ x.2 ∣ x.1)
    (hds : ∀ x ∈ new, ∀ y ∈ new, ∀ i, i ∈ span x → i ∈ span y → x = y)
    (hs : ∀ i, (∃ x ∈ old, i ∈ span x) ↔ ∃ x ∈ new, i ∈ span x) :
    Tiling n ((blocks \ old) ∪ new) := by
  -- a kept block and a new one do not meet
  have hmx : ∀ x ∈ blocks \ old, ∀ y ∈ new, ∀ i, i ∈ span x → i ∉ span y := by
    rintro x ⟨hx, hxl⟩ y hy i hix hiy
    obtain ⟨z, hz, hiz⟩ := (hs i).mpr ⟨y, hy, hiy⟩
    rw [h.disjoint x hx z (hold hz) i hix hiz] at hxl
    exact hxl hz
  constructor
  · rintro x (hx | hx)
    · exact h.aligned x hx.1
    · exact hal x hx
  · rintro x (hx | hx)
    · exact h.inside x hx.1
    -- the last number of a new block lies in an old one
    have hp : 0 < 2 ^ x.2 := Nat.two_pow_pos _
    have hla : x.1 + (2 ^ x.2 - 1) ∈ span x := by
      rw [mem_span]
      omega
    obtain ⟨z, hz, hiz⟩ := (hs _).mpr ⟨x, hx, hla⟩
    have hle := h.inside z (hold hz)
    rw [mem_span] at hiz
    omega
  · rintro x (hx | hx) y (hy | hy) i hix hiy
    · exact h.disjoint x hx.1 y hy.1 i hix hiy
    · exact absurd hiy (hmx x hx y hy i hix)
    · exact absurd hix (hmx y hy x hx i hiy)
    · exact hds x hx y hy i hix hiy
  intro i hi
  obtain ⟨x, hx, hix⟩ := h.cover i hi
  by_cases hxl : x ∈ old
  · obtain ⟨y, hy, hiy⟩ := (hs i).mp ⟨x, hxl, hix⟩
    exact ⟨y, Or.inr hy, hiy⟩
  · exact ⟨x, Or.inl ⟨hx, hxl⟩, hix⟩

lemma congr (h : Tiling n blocks) (hs : ∀ x, x ∈ new ↔ x ∈ blocks) : Tiling n new := by
  rwa [show new = blocks from Set.ext hs]

lemma uniform (m k : Nat) : Tiling (2 ^ k * m) {x | x.2 = k ∧ 2 ^ k ∣ x.1 ∧ x.1 < 2 ^ k * m} := by
  have hp := Nat.two_pow_pos k
  constructor
  · rintro ⟨_, _⟩ ⟨rfl, hdv, -⟩
    exact hdv
  · rintro x ⟨hxk, ⟨q, hq⟩, hlt⟩
    rw [hq] at hlt
    rw [hxk, hq]
    exact Nat.mul_le_mul_left _ (Nat.lt_of_mul_lt_mul_left hlt)
  · rintro x ⟨hxk, hx, -⟩ y ⟨hyk, hy, -⟩ i hix hiy
    -- both blocks start at the multiple below the number
    have hfs : ∀ z : Nat × Nat, z.2 = k → 2 ^ k ∣ z.1 → i ∈ span z → z.1 = 2 ^ k * (i / 2 ^ k) := by
      rintro z hz ⟨q, hq⟩ hi
      rw [mem_span, hz, hq] at hi
      rw [hq, Nat.div_eq_of_lt_le (by rw [Nat.mul_comm]; exact hi.1)
        (by rw [Nat.mul_comm]; exact hi.2)]
    exact Prod.ext ((hfs x hxk hx hix).trans (hfs y hyk hy hiy).symm) (hxk.trans hyk.symm)
  intro i hi
  refine ⟨(2 ^ k * (i / 2 ^ k), k), ⟨rfl, dvd_mul_right _ _, ?_⟩, ?_⟩
  · exact lt_of_le_of_lt (mul_div_le i _) hi
  · exact ⟨mul_div_le i _, lt_mul_div_succ i hp⟩

lemma notMem (h : Tiling n blocks) {x y : Nat × Nat} (hx : x ∈ blocks) (hne : y ≠ x) {i : Nat}
    (hiy : i ∈ span y) (hix : i ∈ span x) : y ∉ blocks :=
  fun hy => hne (h.disjoint y hy x hx i hiy hix)

lemma split {f k : Nat} {rest : Set (Nat × Nat)} (h : Tiling n (insert (f, k + 1) rest))
    (hw : (f, k + 1) ∉ rest) : Tiling n (insert (f + 2 ^ k, k) (insert (f, k) rest)) := by
  have hal : 2 ^ (k + 1) ∣ f := h.aligned _ (Set.mem_insert _ _)
  have hha : 2 ^ k ∣ f := dvd_trans (pow_dvd_pow 2 (le_succ k)) hal
  have htl : Tiling n ((insert (f, k + 1) rest \ {(f, k + 1)}) ∪ {(f, k), (f + 2 ^ k, k)}) := by
    apply h.replace (Set.singleton_subset_iff.mpr (Set.mem_insert _ _))
    · rintro x (rfl | rfl)
      · exact hha
      · exact (Nat.dvd_add_right hha).mpr (Nat.dvd_refl _)
    · exact halves_disjoint f k
    · intro i
      simp [span_halves f k i]
  apply htl.congr
  intro x
  rw [Set.insert_sdiff_self_of_notMem hw]
  simp only [Set.mem_insert_iff, Set.mem_union]
  tauto

lemma merge {f k : Nat} {rest : Set (Nat × Nat)}
    (h : Tiling n (insert (f + 2 ^ k, k) (insert (f, k) rest))) (hal : 2 ^ (k + 1) ∣ f)
    (hlw : (f, k) ∉ rest) (hhi : (f + 2 ^ k, k) ∉ rest) : Tiling n (insert (f, k + 1) rest) := by
  have htl : Tiling n ((insert (f + 2 ^ k, k) (insert (f, k) rest)
      \ {(f, k), (f + 2 ^ k, k)}) ∪ {(f, k + 1)}) := by
    apply h.replace
    · rintro x (rfl | rfl)
      · exact Set.mem_insert_of_mem _ (Set.mem_insert _ _)
      · exact Set.mem_insert _ _
    · rintro x rfl
      exact hal
    · rintro x rfl y rfl _ _ _
      rfl
    · intro i
      simp [span_halves f k i]
  apply htl.congr
  intro x
  have hr : x ∈ rest → x ≠ (f, k) ∧ x ≠ (f + 2 ^ k, k) := fun hx =>
    ⟨ne_of_mem_of_not_mem hx hlw, ne_of_mem_of_not_mem hx hhi⟩
  simp only [Set.mem_insert_iff, Set.mem_union, Set.mem_sdiff]
  tauto

lemma sum_le (h : Tiling n blocks) {T : Finset (Nat × Nat)} (hT : ∀ x ∈ T, x ∈ blocks) :
    ∑ x ∈ T, 2 ^ x.2 ≤ n := by
  have hds : (T : Set (Nat × Nat)).PairwiseDisjoint fun x => Finset.Ico x.1 (x.1 + 2 ^ x.2) := by
    intro x hx y hy hne
    refine disjoint_left.mpr fun i hix hiy => hne ?_
    exact h.disjoint x (hT x hx) y (hT y hy) i (mem_Ico.mp hix) (mem_Ico.mp hiy)
  calc ∑ x ∈ T, 2 ^ x.2 = ∑ x ∈ T, (Finset.Ico x.1 (x.1 + 2 ^ x.2)).card := by simp
    _ = (T.biUnion fun x => Finset.Ico x.1 (x.1 + 2 ^ x.2)).card := (card_biUnion hds).symm
    _ ≤ (range n).card := by
      apply card_le_card
      intro i hi
      obtain ⟨x, hx, hix⟩ := mem_biUnion.mp hi
      have hle := h.inside x (hT x hx)
      rw [mem_Ico] at hix
      exact mem_range.mpr (by omega)
    _ = n := card_range n

end Tiling

/-! ## Counting blocks -/

/-- The numbers in so many blocks of each order below `m`. -/
def weight (m : Nat) (counts : Nat → Nat) : Nat := ∑ k ∈ range m, counts k * 2 ^ k

lemma weight_update {m k : Nat} (hk : k < m) {counts counts' : Nat → Nat}
    (hs : ∀ j, j ≠ k → counts' j = counts j) :
    weight m counts' + counts k * 2 ^ k = weight m counts + counts' k * 2 ^ k := by
  have hm : k ∈ range m := mem_range.mpr hk
  have hr : ∑ j ∈ (range m).erase k, counts' j * 2 ^ j
      = ∑ j ∈ (range m).erase k, counts j * 2 ^ j :=
    sum_congr rfl fun j hj => by rw [hs j (ne_of_mem_erase hj)]
  have hold := add_sum_erase (range m) (fun j => counts j * 2 ^ j) hm
  have hw := add_sum_erase (range m) (fun j => counts' j * 2 ^ j) hm
  unfold weight
  omega

/-! ## Buddies -/

/-- The other half of the block of the next order. -/
def buddy (f k : Nat) : Nat := f ^^^ 2 ^ k

lemma buddy_mul (q k : Nat) : buddy (2 ^ k * q) k = 2 ^ k * (q ^^^ 1) := by
  have hq : 2 ^ k * q = q <<< k := by rw [shiftLeft_eq, mul_comm]
  have hon : 2 ^ k = 1 <<< k := (one_shiftLeft k).symm
  unfold buddy
  rw [hq]
  nth_rewrite 1 [hon]
  rw [← shiftLeft_xor_distrib, shiftLeft_eq, mul_comm]

lemma buddy_cases {f k : Nat} (hf : 2 ^ k ∣ f) : 2 ^ (k + 1) ∣ f ∧ buddy f k = f + 2 ^ k
      ∨ 2 ^ (k + 1) ∣ buddy f k ∧ f = buddy f k + 2 ^ k := by
  obtain ⟨q, rfl⟩ := hf
  rw [buddy_mul]
  rcases even_or_odd q with hq | hq
  · left
    rw [xor_one_of_even hq, mul_add, mul_one]
    exact ⟨mul_dvd_mul_left _ hq.two_dvd, rfl⟩
  right
  rw [xor_one_of_odd hq]
  obtain ⟨r, rfl⟩ := hq
  exact ⟨mul_dvd_mul_left _ (dvd_mul_right 2 r), rfl⟩

lemma buddy_of_aligned {f k : Nat} (hf : 2 ^ (k + 1) ∣ f) : buddy f k = f + 2 ^ k := by
  rcases buddy_cases (dvd_trans (pow_dvd_pow 2 (le_succ k)) hf) with h | h
  · exact h.2
  -- else the block would be aligned to the next order and its half
  have hha : 2 ^ (k + 1) ∣ 2 ^ k := by
    have hsm := h.2 ▸ hf
    exact (Nat.dvd_add_right h.1).mp hsm
  have hle := Nat.le_of_dvd (Nat.two_pow_pos k) hha
  omega

lemma buddy_notMem_span {f k : Nat} (hf : 2 ^ k ∣ f) : buddy f k ∉ span (f, k) := by
  simp only [mem_span]
  rcases buddy_cases hf with ⟨-, h⟩ | ⟨-, h⟩ <;> omega

lemma min_buddy {f k : Nat} (hf : 2 ^ k ∣ f) : 2 ^ (k + 1) ∣ min f (buddy f k)
      ∧ ∀ i, i ∈ span (min f (buddy f k), k + 1) ↔ i ∈ span (f, k) ∨ i ∈ span (buddy f k, k) := by
  rcases buddy_cases hf with ⟨hdv, h⟩ | ⟨hdv, h⟩
  · rw [min_eq_left (by omega), h]
    exact ⟨hdv, span_halves f k⟩
  rw [min_eq_right (by omega)]
  refine ⟨hdv, fun i => ?_⟩
  rw [span_halves, ← h, or_comm]

lemma lt_of_buddy_lt {f k n : Nat} (hk : k < n) (h : buddy f k < 2 ^ n) : f < 2 ^ n := by
  have hse : buddy f k ^^^ 2 ^ k = f := Nat.xor_xor_cancel_right f (2 ^ k)
  rw [← hse]
  exact Nat.xor_lt_two_pow h (Nat.pow_lt_pow_right Nat.one_lt_two hk)

lemma add_two_pow_le {f k n : Nat} (hf : 2 ^ k ∣ f) (hk : k ≤ n) (hlt : f < 2 ^ n) :
    f + 2 ^ k ≤ 2 ^ n := by
  obtain ⟨_, rfl⟩ := hf
  obtain ⟨_, rfl⟩ := Nat.exists_eq_add_of_le hk
  rw [Nat.pow_add] at hlt ⊢
  exact Nat.mul_le_mul_left _ (Nat.lt_of_mul_lt_mul_left hlt)

end Nt61.Lib
