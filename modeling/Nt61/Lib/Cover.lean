/-
Cover — how often a list of byte ranges covers each byte.

Ranges may be handed from list to list, cut and joined; `cover` stays. `Packed lo hi`: they cover no
byte twice and none outside `[lo, hi)`; `Tiles lo hi`: every byte of it exactly once.
-/
import Mathlib.Algebra.GroupWithZero.Nat
import Mathlib.Algebra.BigOperators.Group.Finset.Piecewise
import Mathlib.Algebra.Order.BigOperators.Group.Finset
import Mathlib.Order.Interval.Finset.Nat

namespace Nt61.Lib

open Finset

/-! ## Cover -/

structure Span where
  start : Nat
  length : Nat
  deriving DecidableEq, Repr

namespace Span

instance : Membership Nat Span := ⟨fun s x => s.start ≤ x ∧ x < s.start + s.length⟩

lemma mem_def {s : Span} {x : Nat} : x ∈ s ↔ s.start ≤ x ∧ x < s.start + s.length := Iff.rfl

lemma mem_mk {a n x : Nat} : x ∈ (⟨a, n⟩ : Span) ↔ a ≤ x ∧ x < a + n := Iff.rfl

instance (s : Span) (x : Nat) : Decidable (x ∈ s) :=
  inferInstanceAs (Decidable (s.start ≤ x ∧ x < s.start + s.length))

def Disjoint (s t : Span) : Prop := ∀ x, ¬ (x ∈ s ∧ x ∈ t)

lemma disjoint_iff {s t : Span} (hs : 0 < s.length) (ht : 0 < t.length) :
    s.Disjoint t ↔ s.start + s.length ≤ t.start ∨ t.start + t.length ≤ s.start := by
  constructor
  · intro h
    have h1 := h s.start
    have h2 := h t.start
    rw [mem_def, mem_def] at h1 h2
    omega
  intro h x hx
  rw [mem_def, mem_def] at hx
  omega

end Span

/-- How many of the ranges hold the byte. -/
def cover (spans : List Span) (x : Nat) : Nat := (spans.map fun s => if x ∈ s then 1 else 0).sum

section

variable {spans spans' : List Span} {s : Span} {x : Nat}

@[simp]
lemma cover_nil (x : Nat) : cover [] x = 0 := rfl

@[simp]
lemma cover_cons (s : Span) (spans : List Span) (x : Nat) :
    cover (s :: spans) x = (if x ∈ s then 1 else 0) + cover spans x := rfl

@[simp]
lemma cover_append (spans spans' : List Span) (x : Nat) :
    cover (spans ++ spans') x = cover spans x + cover spans' x := by
  unfold cover
  rw [List.map_append, List.sum_append]

lemma cover_perm (h : spans.Perm spans') (x : Nat) : cover spans x = cover spans' x :=
  (h.map _).sum_eq

lemma cover_cut (start a b : Nat) (spans : List Span) (x : Nat) :
    cover (⟨start, a + b⟩ :: spans) x = cover (⟨start, a⟩ :: ⟨start + a, b⟩ :: spans) x := by
  simp only [cover_cons, Span.mem_def]
  by_cases h1 : start ≤ x ∧ x < start + a
  · rw [if_pos h1, if_pos (by omega), if_neg (by omega)]
    omega
  by_cases h2 : start + a ≤ x ∧ x < start + a + b
  · rw [if_neg h1, if_pos h2, if_pos (by omega)]
    omega
  · rw [if_neg h1, if_neg h2, if_neg (by omega)]
    omega

lemma cover_pos_iff : 0 < cover spans x ↔ ∃ s ∈ spans, x ∈ s := by
  induction spans with
  | nil => simp
  | cons s spans ih =>
    by_cases hs : x ∈ s
    · simp [hs]
    · simp [hs, ih]

lemma cover_eq_zero_iff : cover spans x = 0 ↔ ∀ s ∈ spans, x ∉ s := by
  have := @cover_pos_iff spans x
  constructor
  · intro h s hs hx
    exact absurd (this.mpr ⟨s, hs, hx⟩) (by omega)
  intro h
  by_contra hne
  obtain ⟨s, hs, hx⟩ := this.mp (by omega)
  exact h s hs hx

lemma cover_le_of_mem (hs : s ∈ spans) (hx : x ∈ s) : 1 ≤ cover spans x :=
  cover_pos_iff.mpr ⟨s, hs, hx⟩

lemma cover_le_one_iff : (∀ x, cover spans x ≤ 1) ↔ spans.Pairwise Span.Disjoint := by
  induction spans with
  | nil => simp
  | cons s spans ih =>
    rw [List.pairwise_cons, ← ih]
    constructor
    · intro h
      refine ⟨fun t ht x hx => ?_, fun x => ?_⟩
      · have h1 := h x
        have h2 := cover_le_of_mem ht hx.2
        rw [cover_cons, if_pos hx.1] at h1
        omega
      have := h x
      rw [cover_cons] at this
      omega
    rintro ⟨hs, hr⟩ x
    rw [cover_cons]
    by_cases hx : x ∈ s
    · have : cover spans x = 0 := cover_eq_zero_iff.mpr fun t ht hxt => hs t ht x ⟨hx, hxt⟩
      rw [if_pos hx, this]
    · rw [if_neg hx, Nat.zero_add]
      exact hr x

lemma sum_cover {n : Nat} (h : ∀ s ∈ spans, s.start + s.length ≤ n) :
    ∑ x ∈ range n, cover spans x = (spans.map Span.length).sum := by
  induction spans with
  | nil => simp
  | cons s spans ih =>
    have hs := h s List.mem_cons_self
    simp only [cover_cons, sum_add_distrib]
    rw [ih fun t ht => h t (List.mem_cons_of_mem _ ht)]
    congr 1
    rw [← card_filter]
    have heq : (range n).filter (· ∈ s) = Finset.Ico s.start (s.start + s.length) := by
      ext x
      rw [mem_filter, mem_range, mem_Ico, Span.mem_def]
      omega
    rw [heq, Nat.card_Ico]
    exact Nat.add_sub_cancel_left _ _

end

/-! ## Packed ranges and tilings -/

/-- The ranges are disjoint and lie in `[lo, hi)`. -/
def Packed (lo hi : Nat) (spans : List Span) : Prop :=
  ∀ x, cover spans x ≤ if lo ≤ x ∧ x < hi then 1 else 0

/-- The ranges cover every byte of `[lo, hi)` once and no other one. -/
def Tiles (lo hi : Nat) (spans : List Span) : Prop :=
  ∀ x, cover spans x = if lo ≤ x ∧ x < hi then 1 else 0

section

variable {lo hi : Nat} {spans spans' : List Span} {s t : Span}

lemma Tiles.packed (h : Tiles lo hi spans) : Packed lo hi spans := fun x => (h x).le

lemma tiles_nil (lo : Nat) : Tiles lo lo [] := by
  intro x
  rw [cover_nil, if_neg (by omega)]

lemma packed_nil (lo hi : Nat) : Packed lo hi [] := fun _ => Nat.zero_le _

lemma Tiles.congr (h : Tiles lo hi spans) (hcv : ∀ x, cover spans' x = cover spans x) :
    Tiles lo hi spans' := fun x => (hcv x).trans (h x)

lemma Packed.mono (h : Packed lo hi spans) (hcv : ∀ x, cover spans' x ≤ cover spans x) :
    Packed lo hi spans' := fun x => (hcv x).trans (h x)

lemma Tiles.extend (h : Tiles lo hi spans) (hle : lo ≤ hi) (n : Nat) :
    Tiles lo (hi + n) (⟨hi, n⟩ :: spans) := by
  intro x
  rw [cover_cons, h x]
  simp only [Span.mem_def]
  by_cases h1 : lo ≤ x ∧ x < hi
  · rw [if_pos h1, if_neg (by omega), if_pos (by omega)]
  by_cases h2 : hi ≤ x ∧ x < hi + n
  · rw [if_neg h1, if_pos h2, if_pos (by omega)]
  · rw [if_neg h1, if_neg h2, if_neg (by omega)]

lemma Packed.pairwise (h : Packed lo hi spans) : spans.Pairwise Span.Disjoint :=
  cover_le_one_iff.mp fun x => (h x).trans (by split <;> decide)

lemma Packed.mem_bounds (h : Packed lo hi spans) (hs : s ∈ spans) {x : Nat} (hx : x ∈ s) :
    lo ≤ x ∧ x < hi := by
  by_contra ho
  have h1 := h x
  have h2 := cover_le_of_mem hs hx
  rw [if_neg ho] at h1
  omega

lemma Packed.bounds (h : Packed lo hi spans) (hs : s ∈ spans) (hp : 0 < s.length) :
    lo ≤ s.start ∧ s.start + s.length ≤ hi := by
  have h1 := h.mem_bounds hs (x := s.start) (Span.mem_def.mpr ⟨le_refl _, by omega⟩)
  have h2 := h.mem_bounds hs (x := s.start + s.length - 1) (Span.mem_def.mpr ⟨by omega, by omega⟩)
  omega

lemma Packed.apart (h : Packed lo hi (s :: spans)) (ht : t ∈ spans) (hs : 0 < s.length)
    (hp : 0 < t.length) : s.start + s.length ≤ t.start ∨ t.start + t.length ≤ s.start :=
  (Span.disjoint_iff hs hp).mp ((List.pairwise_cons.mp h.pairwise).1 t ht)

lemma tiles_iff : Tiles lo hi spans ↔
    spans.Pairwise Span.Disjoint ∧ ∀ x, (∃ s ∈ spans, x ∈ s) ↔ lo ≤ x ∧ x < hi := by
  constructor
  · intro h
    refine ⟨h.packed.pairwise, fun x => ?_⟩
    rw [← cover_pos_iff, h x]
    split <;> simp_all
  rintro ⟨hds, hcv⟩ x
  have hle := cover_le_one_iff.mpr hds x
  have hp := (@cover_pos_iff spans x).trans (hcv x)
  by_cases hx : lo ≤ x ∧ x < hi
  · rw [if_pos hx]
    omega
  rw [if_neg hx]
  by_contra hne
  exact hx (hp.mp (by omega))

lemma Packed.sum_le (h : Packed lo hi spans) (hp : ∀ s ∈ spans, 0 < s.length) :
    (spans.map Span.length).sum ≤ hi - lo := by
  rw [← sum_cover fun s hs => (h.bounds hs (hp s hs)).2]
  calc ∑ x ∈ range hi, cover spans x
      ≤ ∑ x ∈ range hi, if lo ≤ x ∧ x < hi then 1 else 0 := sum_le_sum fun x _ => h x
    _ = hi - lo := by
      rw [← card_filter]
      have heq : ((range hi).filter fun x => lo ≤ x ∧ x < hi) = Finset.Ico lo hi := by
        ext x
        rw [mem_filter, mem_range, mem_Ico]
        omega
      rw [heq, Nat.card_Ico]

/-- If no two of the ranges `bs` are neighbours, one of `as` starts where one of them ends. -/
lemma Tiles.length_le {as bs : List Span} (h : Tiles lo hi (as ++ bs))
    (hp : ∀ s ∈ as ++ bs, 0 < s.length)
    (hap : ∀ s ∈ bs, ∀ t ∈ bs, s.start + s.length ≠ t.start) : bs.length ≤ as.length + 1 := by
  have hla {s : Span} (hs : s ∈ as ++ bs) : s.start + s.length - 1 ∈ s := by
    have := hp s hs
    rw [Span.mem_def]
    omega
  have hes : (bs.map fun s => s.start + s.length).Nodup := by
    refine List.pairwise_map.mpr ((List.pairwise_append.mp h.packed.pairwise).2.1.imp_of_mem ?_)
    intro s t hs ht hds heq
    have hin := hla (List.mem_append_right as ht)
    rw [← heq] at hin
    exact hds _ ⟨hla (List.mem_append_right as hs), hin⟩
  have hss : (bs.map fun s => s.start + s.length) ⊆ hi :: as.map Span.start := by
    intro e he
    obtain ⟨s, hs, rfl⟩ := List.mem_map.mp he
    have hs' := List.mem_append_right as hs
    obtain ⟨hlo, hhi⟩ := h.packed.bounds hs' (hp s hs')
    obtain heq | hlt := Nat.eq_or_lt_of_le hhi
    · exact heq ▸ List.mem_cons_self
    obtain ⟨t, ht, hm⟩ := ((tiles_iff.mp h).2 (s.start + s.length)).mpr ⟨by omega, hlt⟩
    have hs0 : s.start + s.length = t.start := by
      by_contra hne
      have hst : s ≠ t := by
        rintro rfl
        exact absurd hm.2 (Nat.lt_irrefl _)
      have : Std.Symm Span.Disjoint := ⟨fun _ _ h x hx => h x hx.symm⟩
      refine h.packed.pairwise.forall hs' ht hst _ ⟨hla hs', ?_⟩
      rw [Span.mem_def] at hm ⊢
      have := hp s hs'
      omega
    obtain hta | htb := List.mem_append.mp ht
    · exact List.mem_cons_of_mem _ (List.mem_map.mpr ⟨t, hta, hs0.symm⟩)
    · exact absurd hs0 (hap s hs t htb)
  simpa using (hes.subperm hss).length_le

end

end Nt61.Lib
