/-
VadSearch — the searches of `mm/vad.rs` over a range of pages.

`find_overlapping` skips a child by the range of the child alone, and `collect_gaps` hands the start
of a node down as the lower bound of its right subtree; both are wrong for some shapes of the tree.

Main results:
- `findOverlapping_exact_iff`: for which trees and ranges `find_overlapping` finds the right entries;
- `findGap_free_iff`: the trees for which `find_gap` is right for every base and size.
-/
import Nt61.Mm.Vad
import Mathlib.Data.List.Sort

namespace Nt61.Vad

open Lib Lib.Checked Lib.LinkedTree VadTree Option
open List hiding after

/-! ## Entries that overlap a range -/

namespace VadTree

variable (t : VadTree)

/-- The range of the entry meets the pages from `lo` to `hi`. -/
def inRange (lo hi q : Nat) : Bool := t.startingVpn q ≤ hi ∧ t.endingVpn q ≥ lo

/-- `find_overlapping_impl`; what it pushes onto the result. -/
def findOverlappingImpl (lo hi : Nat) : Nat → Nat → Option (List Nat)
  | 0, _ => none
  | rounds + 1, node =>
    if node = 0 then some []
    else
      let left := t.links.child .left node
      let right := t.links.child .right node
      (if left ≠ 0 ∧ t.endingVpn left ≥ lo then findOverlappingImpl lo hi rounds left
        else some []).bind fun before =>
      (if right ≠ 0 ∧ t.startingVpn right ≤ hi then findOverlappingImpl lo hi rounds right
        else some []).bind fun after =>
      some (before ++ (if t.inRange lo hi node then [node] else []) ++ after)

end VadTree

/-- Along the way of the search, a subtree that is skipped has no entry in the range. -/
def SkipsOutside (t : VadTree) (lo hi : Nat) : BinaryTree Nat → Prop
  | .nil => True
  | .node q a b =>
    (if t.endingVpn (t.links.child .left q) ≥ lo then SkipsOutside t lo hi a
      else ∀ x ∈ inorder a, ¬t.inRange lo hi x)
    ∧ if t.startingVpn (t.links.child .right q) ≤ hi then SkipsOutside t lo hi b
      else ∀ x ∈ inorder b, ¬t.inRange lo hi x

section

variable {t : VadTree} {lo hi : Nat}

/-- The search finds a part of the entries in the range, and all of them under the condition. -/
def Finds (t : VadTree) (lo hi : Nat) (sub : BinaryTree Nat) (c : Prop)
    (found : Option (List Nat)) : Prop :=
  ∃ result, found = some result ∧ result <+ (inorder sub).filter (t.inRange lo hi)
    ∧ (result = (inorder sub).filter (t.inRange lo hi) ↔ c)

lemma Finds.child {p rounds par : Nat} {sub : BinaryTree Nat} {c : Prop} [Decidable c]
    (hsh : Shape t.links par p sub)
    (h : Finds t lo hi sub (SkipsOutside t lo hi sub) (t.findOverlappingImpl lo hi rounds p)) :
    Finds t lo hi sub (if c then SkipsOutside t lo hi sub else ∀ x ∈ inorder sub, ¬t.inRange lo hi x)
      (if p ≠ 0 ∧ c then t.findOverlappingImpl lo hi rounds p else some []) := by
  by_cases hc : p ≠ 0 ∧ c
  · rw [if_pos hc, if_pos hc.2]
    exact h
  rw [if_neg hc]
  refine ⟨[], rfl, nil_sublist _, ?_⟩
  cases sub with
  | nil => simp [inorder, SkipsOutside]
  | node q a b => rw [if_neg fun h => hc ⟨hsh.1 ▸ hsh.2.1, h⟩, eq_comm, filter_eq_nil_iff]

lemma findOverlappingImpl_finds (rounds : Nat) {sub : BinaryTree Nat} {par p : Nat}
    (hsh : Shape t.links par p sub) (hro : (inorder sub).length < rounds) :
    Finds t lo hi sub (SkipsOutside t lo hi sub) (t.findOverlappingImpl lo hi rounds p) := by
  induction sub generalizing par p rounds with
  | nil =>
    obtain ⟨rounds, rfl⟩ := Nat.exists_eq_succ_of_ne_zero (by omega : rounds ≠ 0)
    exact ⟨[], if_pos hsh, nil_sublist _, iff_of_true rfl trivial⟩
  | node q a b iha ihb =>
    obtain ⟨rfl, hp, -, ha, hb⟩ := hsh
    have hns : inorder (.node p a b) = inorder a ++ p :: inorder b := rfl
    rw [hns, length_append, length_cons] at hro
    obtain ⟨rounds, rfl⟩ := Nat.exists_eq_succ_of_ne_zero (by omega : rounds ≠ 0)
    obtain ⟨ra, hra, hsb, hia⟩ := Finds.child (c := t.endingVpn (t.links.child .left p) ≥ lo) ha
      (iha rounds ha (by omega))
    obtain ⟨rb, hrb, hs, hib⟩ := Finds.child (c := t.startingVpn (t.links.child .right p) ≤ hi) hb
      (ihb rounds hb (by omega))
    rw [findOverlappingImpl, if_neg hp]
    dsimp only
    rw [hra, bind_some, hrb, bind_some]
    have hmd : (p :: inorder b).filter (t.inRange lo hi)
        = (if t.inRange lo hi p then [p] else []) ++ (inorder b).filter (t.inRange lo hi) := by
      rw [filter_cons]
      split <;> rfl
    refine ⟨_, rfl, ?_, ?_⟩
    · rw [hns, filter_append, hmd, append_assoc]
      exact hsb.append ((Sublist.refl _).append hs)
    rw [hns, filter_append, hmd, append_assoc, SkipsOutside, ← hia, ← hib]
    constructor
    · intro h
      -- neither part is longer than what it should be
      have hln := congrArg length h
      have hla := hsb.length_le
      have hlb := hs.length_le
      simp only [length_append] at hln
      exact ⟨hsb.eq_of_length (by omega), hs.eq_of_length (by omega)⟩
    · rintro ⟨ha, hb⟩
      rw [ha, hb]

end

/-- **`find_overlapping`** returns exactly the entries whose range meets the given one, each once
and in increasing order, if and only if no subtree that it skips has such an entry. -/
theorem findOverlapping_exact_iff {t : VadTree} {tree : BinaryTree Nat} (lo hi rounds : Nat)
    (hholds : Holds t.links t.root tree) (hsorted : (inorder tree).Pairwise (Before t))
    (hrounds : (inorder tree).length < rounds) :
    (∃ result, t.findOverlappingImpl lo hi rounds t.root = some result ∧
      (∀ q, q ∈ result ↔ q ∈ inorder tree ∧ t.startingVpn q ≤ hi ∧ lo ≤ t.endingVpn q) ∧
      result.Nodup ∧ result.Pairwise (Before t)) ↔ SkipsOutside t lo hi tree := by
  obtain ⟨result, hrs, hsb, hif⟩ : Finds t lo hi tree _ _ :=
    findOverlappingImpl_finds rounds hholds.shape hrounds
  rw [← hif, hrs]
  constructor
  · rintro ⟨_, ⟨⟩, hm, hnd, -⟩
    refine hsb.eq_of_length_le (subperm_of_subset (hholds.nodup.filter _) fun q hq => ?_).length_le
    rwa [mem_filter, inRange, decide_eq_true_eq, ← hm] at hq
  · rintro rfl
    refine ⟨_, rfl, fun q => ?_, hholds.nodup.filter _, hsorted.filter _⟩
    rw [mem_filter, inRange, decide_eq_true_eq]

/-- The pages 100, 10 and 50: the second is left of the first, the third right of the second. -/
def threeEntries : VadTree where
  root := 1
  nodeCount := 3
  links := ⟨fun q => if q = 3 then 2 else if q = 2 then 1 else 0,
    fun side q => if side = .left ∧ q = 1 then 2 else if side = .right ∧ q = 2 then 3 else 0⟩
  startingVpn q := if q = 1 then 100 else if q = 2 then 10 else 50
  endingVpn q := if q = 1 then 100 else if q = 2 then 10 else 50
  balanceFactor _ := 0

lemma threeEntries_holds :
    Holds threeEntries.links 1 (.node 1 (.node 2 .nil (.node 3 .nil .nil)) .nil) :=
  ⟨by simp [Shape, threeEntries], by decide⟩

theorem findOverlapping_exact_two : ∃ result, threeEntries.findOverlappingImpl 5 60 4 1 = some result
    ∧ (2 ∈ result ∧ 3 ∈ result ∧ 1 ∉ result) ∧ result.Nodup := by
  obtain ⟨result, hrs, hm, hnd, -⟩ := (findOverlapping_exact_iff 5 60 4 threeEntries_holds
    (by simp [inorder, Before, threeEntries]) (by decide)).mpr
    (by simp [SkipsOutside, threeEntries])
  exact ⟨result, hrs, by simp [hm, threeEntries, inorder], hnd⟩

/-- An entry below the root's left child, found by `find` and missed by `find_overlapping`. -/
theorem findOverlapping_misses :
    (executeAllowed step allowed [⟨4096, 100, 100⟩, ⟨8192, 10, 10⟩, ⟨12288, 50, 50⟩]
      (start ⟨7, 7, ⟨fun _ => 7, fun _ _ => 7⟩, fun _ => 7, fun _ => 7, fun _ => 7⟩)).map
      (fun s => (s.inserted.map Request.vad, s.tree.find 0x32000,
        s.tree.findOverlappingImpl 50 50 9 s.tree.root))
      = some ([12288, 8192, 4096], some (some 12288), some []) := by
  decide +kernel

/-! ## Gaps -/

/-- The first gap that serves; its pages become addresses, and a shift loses what it pushes out. -/
def firstServed (serve : Nat → Nat → Option (Option (Nat × Nat))) :
    List (Nat × Nat) → Option (Option (Nat × Nat))
  | [] => some none
  | gap :: gaps => do
    match ← serve ((gap.1 <<< 12) % 2 ^ 64) (((gap.2 + 1) <<< 12) % 2 ^ 64) with
    | some found => some (some found)
    | none => firstServed serve gaps

def serveAt (base size gapStart gapEnd : Nat) : Option (Option (Nat × Nat)) :=
  if gapStart ≤ base then do
    let room ← sub gapEnd gapStart
    if room ≥ size then
      let allocEnd ← add 64 base size
      some (if allocEnd ≤ gapEnd then some (base, allocEnd) else none)
    else some none
  else some none

def serveFirst (size gapStart gapEnd : Nat) : Option (Option (Nat × Nat)) := do
  let room ← sub gapEnd gapStart
  if room ≥ size then
    let allocEnd ← add 64 gapStart size
    some (some (gapStart, allocEnd))
  else some none

namespace VadTree

variable (t : VadTree)

/-- The gaps that `collect_gaps` pushes, each with its first and last page. -/
def collectGaps : Nat → Nat → Nat → Nat → Option (List (Nat × Nat))
  | 0, _, _, _ => none
  | rounds + 1, node, minVpn, maxVpn =>
    if node = 0 then some []
    else
      let lo := t.startingVpn node
      (collectGaps rounds (t.links.child .left node) minVpn (t.endingVpn node)).bind fun below =>
      (collectGaps rounds (t.links.child .right node) lo maxVpn).bind fun beyond =>
      some ((if lo > minVpn then [(minVpn, lo - 1)] else []) ++ below ++ beyond)

def findGap (rounds desiredBase size : Nat) : Option (Option (Nat × Nat)) :=
  match add 64 size 0xFFF with
  | none => some none
  | some padded => do
    let alignedSize := padded / 4096 * 4096
    let gaps ← t.collectGaps rounds t.root 0 ((2 ^ 64 - 1) >>> 12)
    if gaps = [] then
      let gapStart := if desiredBase = 0 then 0x10000 else desiredBase
      let gapEnd ← add 64 gapStart alignedSize
      some (some (gapStart, gapEnd))
    else
      let gaps := gaps.insertionSort fun a b => a.1 ≤ b.1
      (if desiredBase ≠ 0 then firstServed (serveAt desiredBase alignedSize) gaps
        else some none).bind fun
      | some found => some (some found)
      | none => firstServed (serveFirst alignedSize) gaps

end VadTree

section

variable {size lo hi s e : Nat}

lemma serveAt_spec {base : Nat} (h : serveAt base size lo hi = some (some (s, e))) :
    e = s + size ∧ e ≤ hi := by
  unfold serveAt at h
  split at h
  · obtain ⟨_, -, h⟩ := bind_eq_some_iff.mp h
    split at h
    · obtain ⟨_, he, h⟩ := bind_eq_some_iff.mp h
      split at h
      · next hle =>
        cases h
        exact ⟨(add_eq_some_iff.mp he).2, hle⟩
      · cases h
    · cases h
  · cases h

lemma serveFirst_spec (h : serveFirst size lo hi = some (some (s, e))) : e = s + size ∧ e ≤ hi := by
  obtain ⟨_, hro, h⟩ := bind_eq_some_iff.mp h
  split at h
  · obtain ⟨_, he, h⟩ := bind_eq_some_iff.mp h
    cases h
    have := sub_eq_some_iff.mp hro
    have := add_eq_some_iff.mp he
    omega
  · cases h

lemma firstServed_one {serve : Nat → Nat → Option (Option (Nat × Nat))} {gap found : Nat × Nat}
    (h : firstServed serve [gap] = some (some found)) :
    ∃ lo, serve lo (((gap.2 + 1) <<< 12) % 2 ^ 64) = some (some found) := by
  obtain ⟨result, hsv, h⟩ := bind_eq_some_iff.mp h
  cases result with
  | none => cases h
  | some r =>
    cases h
    exact ⟨_, hsv⟩

lemma collectGaps_null {t : VadTree} {rounds minVpn maxVpn : Nat} {gaps : List (Nat × Nat)}
    (h : t.collectGaps rounds 0 minVpn maxVpn = some gaps) : gaps = [] := by
  cases rounds with
  | zero => cases h
  | succ rounds => exact (some.inj h).symm

lemma collectGaps_one {t : VadTree} {rounds q maxVpn : Nat} {gaps : List (Nat × Nat)}
    (hsh : Shape t.links 0 q (.node q .nil .nil)) (hq : t.startingVpn q ≠ 0)
    (h : t.collectGaps rounds q 0 maxVpn = some gaps) : gaps = [(0, t.startingVpn q - 1)] := by
  obtain ⟨-, hne, -, hlf, hrt⟩ := hsh
  cases rounds with
  | zero => cases h
  | succ rounds =>
    rw [collectGaps, if_neg hne, show t.links.child .left q = 0 from hlf,
      show t.links.child .right q = 0 from hrt] at h
    obtain ⟨_, hbl, h⟩ := bind_eq_some_iff.mp h
    obtain ⟨_, hby, h⟩ := bind_eq_some_iff.mp h
    rw [collectGaps_null hbl, collectGaps_null hby, if_pos (Nat.pos_of_ne_zero hq)] at h
    exact (some.inj h).symm

/-- The gaps lie among the pages of an address space, and the first is before the root. -/
lemma collectGaps_spec {t : VadTree} (rounds minVpn maxVpn : Nat) {sub : BinaryTree Nat} {par p : Nat}
    (hsh : Shape t.links par p sub) (hro : (inorder sub).length < rounds)
    (hpg : ∀ q ∈ inorder sub, t.startingVpn q < 2 ^ 52) :
    ∃ gaps, t.collectGaps rounds p minVpn maxVpn = some gaps
      ∧ (∀ gap ∈ gaps, gap.1 ≤ gap.2 ∧ gap.2 + 1 < 2 ^ 52)
      ∧ (sub ≠ .nil → minVpn < t.startingVpn p → (minVpn, t.startingVpn p - 1) ∈ gaps)
      ∧ ∀ r a b c, sub = .node p c (.node r a b) → t.startingVpn p < t.startingVpn r →
        (t.startingVpn p, t.startingVpn r - 1) ∈ gaps := by
  induction sub generalizing par p rounds minVpn maxVpn with
  | nil =>
    obtain ⟨rounds, rfl⟩ := Nat.exists_eq_succ_of_ne_zero (by omega : rounds ≠ 0)
    exact ⟨[], if_pos hsh, nofun, nofun, nofun⟩
  | node q a b iha ihb =>
    obtain ⟨rfl, hp, -, ha, hb⟩ := hsh
    have hns : inorder (.node p a b) = inorder a ++ p :: inorder b := rfl
    rw [hns] at hro hpg
    rw [length_append, length_cons] at hro
    obtain ⟨rounds, rfl⟩ := Nat.exists_eq_succ_of_ne_zero (by omega : rounds ≠ 0)
    obtain ⟨ga, hga, hin, -⟩ := iha rounds minVpn (t.endingVpn p) ha (by omega)
      fun q hq => hpg q (mem_append_left _ hq)
    obtain ⟨gb, hgb, hib, hfb, -⟩ := ihb rounds (t.startingVpn p) maxVpn hb (by omega)
      fun q hq => hpg q (mem_append_right _ (mem_cons_of_mem _ hq))
    have hp52 := hpg p (mem_append_right _ mem_cons_self)
    refine ⟨_, by rw [collectGaps, if_neg hp, hga, bind_some, hgb, bind_some], ?_, ?_, ?_⟩
    · intro gap hg
      rw [mem_append, mem_append] at hg
      obtain (hg | hg) | hg := hg
      · split at hg
        · rw [mem_singleton.mp hg]
          dsimp only
          omega
        · cases hg
      · exact hin gap hg
      · exact hib gap hg
    · intro _ hlt
      rw [if_pos hlt]
      exact mem_append_left _ (mem_append_left _ (mem_singleton_self _))
    · rintro r a b c ⟨⟩ hlt
      rw [hb.1] at hfb
      exact mem_append_right _ (hfb nofun hlt)

lemma firstServed_mem {serve : Nat → Nat → Option (Option (Nat × Nat))} {gaps : List (Nat × Nat)}
    (found : Nat × Nat) (hal : ∀ gap ∈ gaps,
      let r := serve ((gap.1 <<< 12) % 2 ^ 64) (((gap.2 + 1) <<< 12) % 2 ^ 64)
      r = some none ∨ r = some (some found))
    (hon : ∃ gap ∈ gaps,
      serve ((gap.1 <<< 12) % 2 ^ 64) (((gap.2 + 1) <<< 12) % 2 ^ 64) = some (some found)) :
    firstServed serve gaps = some (some found) := by
  induction gaps with
  | nil => obtain ⟨_, ⟨⟩, _⟩ := hon
  | cons gap gaps ih =>
    obtain hno | hys := hal gap mem_cons_self
    · rw [firstServed, hno]
      refine ih (fun g hg => hal g (mem_cons_of_mem _ hg)) ?_
      obtain ⟨g, hg, hsv⟩ := hon
      obtain rfl | hg := mem_cons.mp hg
      · cases hno.symm.trans hsv
      · exact ⟨g, hg, hsv⟩
    · rw [firstServed, hys]
      rfl

/-- A page in a gap is given to who asks for it. -/
lemma findGap_serves {t : VadTree} {rounds page : Nat} {gaps : List (Nat × Nat)} {gap : Nat × Nat}
    (hgp : t.collectGaps rounds t.root 0 ((2 ^ 64 - 1) >>> 12) = some gaps)
    (hin : ∀ gap ∈ gaps, gap.1 ≤ gap.2 ∧ gap.2 + 1 < 2 ^ 52) (hga : gap ∈ gaps)
    (hpg : gap.1 ≤ page ∧ page ≤ gap.2) :
    t.findGap rounds (page <<< 12) 1 = some (some (page <<< 12, page <<< 12 + 4096)) := by
  have hmm (g : Nat × Nat) : g ∈ gaps.insertionSort (fun a b => a.1 ≤ b.1) ↔ g ∈ gaps :=
    mem_insertionSort _
  have hbn := hin gap hga
  unfold findGap
  rw [add_eq (by decide)]
  simp only [Option.bind_eq_bind, hgp, bind_some, if_neg (ne_nil_of_mem hga)]
  simp only [Nat.shiftLeft_eq]
  by_cases hzr : page = 0
  · -- page 0 is the start of the first gap
    subst hzr
    rw [if_neg (by decide), bind_some]
    have hsr : (gaps.insertionSort fun a b => a.1 ≤ b.1).Pairwise fun a b => a.1 ≤ b.1 :=
      haveI : Std.Total fun a b : Nat × Nat => a.1 ≤ b.1 := ⟨fun a b => Nat.le_total a.1 b.1⟩
      haveI : IsTrans (Nat × Nat) fun a b => a.1 ≤ b.1 := ⟨fun _ _ _ => Nat.le_trans⟩
      pairwise_insertionSort _ _
    cases hs : gaps.insertionSort fun a b => a.1 ≤ b.1 with
    | nil => cases hs ▸ (hmm gap).mpr hga
    | cons first rest =>
      have hf := hin first ((hmm first).mp (hs ▸ mem_cons_self))
      have hfr : first.1 = 0 := by
        obtain rfl | hr := mem_cons.mp (hs ▸ (hmm gap).mpr hga)
        · omega
        · have := rel_of_pairwise_cons (hs ▸ hsr) hr
          omega
      have hsv : serveFirst 4096 0 (((first.2 + 1) <<< 12) % 2 ^ 64) = some (some (0, 4096)) := by
        unfold serveFirst
        rw [Nat.shiftLeft_eq, Nat.mod_eq_of_lt (by omega), sub_eq (by omega)]
        simp only [Option.bind_eq_bind, bind_some]
        rw [if_pos (by omega), add_eq (by decide)]
        rfl
      rw [firstServed, hfr, show (0 <<< 12) % 2 ^ 64 = 0 from rfl, hsv]
      rfl
  · rw [if_pos (by omega)]
    have hsv (g : Nat × Nat) (hg : g ∈ gaps) : serveAt (page * 2 ^ 12) 4096
        ((g.1 <<< 12) % 2 ^ 64) (((g.2 + 1) <<< 12) % 2 ^ 64)
        = some (if g.1 ≤ page ∧ page ≤ g.2 then some (page * 2 ^ 12, page * 2 ^ 12 + 4096)
          else none) := by
      have hb := hin g hg
      unfold serveAt
      rw [Nat.shiftLeft_eq, Nat.shiftLeft_eq, Nat.mod_eq_of_lt (by omega),
        Nat.mod_eq_of_lt (by omega), sub_eq (by omega), add_eq (by omega)]
      simp only [Option.bind_eq_bind, bind_some]
      by_cases hlo : g.1 ≤ page
      · rw [if_pos (by omega), if_pos (by omega)]
        by_cases hhi : page ≤ g.2
        · rw [if_pos (by omega), if_pos ⟨hlo, hhi⟩]
        · rw [if_neg (by omega), if_neg (by omega)]
      · rw [if_neg (by omega), if_neg (by omega)]
    rw [firstServed_mem (page * 2 ^ 12, page * 2 ^ 12 + 4096), bind_some]
    · intro g hg
      dsimp only
      rw [hsv g ((hmm g).mp hg)]
      split
      · exact .inr rfl
      · exact .inl rfl
    · exact ⟨gap, (hmm gap).mpr hga, by rw [hsv gap hga, if_pos hpg]⟩

end

/-- What `find_gap` finds has the size rounded up to a page and meets no entry. -/
def GapsFree (t : VadTree) (tree : BinaryTree Nat) (rounds : Nat) : Prop :=
  ∀ base size s e, 1 ≤ size → t.findGap rounds base size = some (some (s, e)) →
    e = s + (size + 0xFFF) / 4096 * 4096 ∧
      ∀ q ∈ inorder tree, e ≤ t.startingVpn q <<< 12 ∨ (t.endingVpn q + 1) <<< 12 ≤ s

lemma gapsFree_of_one {t : VadTree} {tree : BinaryTree Nat} {rounds : Nat}
    (hhl : Holds t.links t.root tree)
    (hon : tree = .nil ∨ ∃ q, tree = .node q .nil .nil ∧ t.startingVpn q ≠ 0) :
    GapsFree t tree rounds := by
  intro base size s e _ hg
  unfold findGap at hg
  split at hg
  · cases hg
  next padded hpd =>
  obtain ⟨_, hgp, hg⟩ := bind_eq_some_iff.mp hg
  rw [(add_eq_some_iff.mp hpd).2] at hg
  rcases hon with rfl | ⟨q, rfl, hq⟩
  · rw [show t.root = 0 from hhl.shape] at hgp
    rw [collectGaps_null hgp] at hg
    obtain ⟨_, he, hg⟩ := bind_eq_some_iff.mp hg
    cases hg
    exact ⟨(add_eq_some_iff.mp he).2, by simp [inorder]⟩
  have hrt : t.root = q := hhl.shape.1
  have hsh := hhl.shape
  rw [hrt] at hgp hsh
  rw [collectGaps_one hsh hq hgp] at hg
  have hfi : e = s + (size + 0xFFF) / 4096 * 4096 ∧
      e ≤ ((t.startingVpn q - 1 + 1) <<< 12) % 2 ^ 64 := by
    obtain ⟨result, hb, hg⟩ := bind_eq_some_iff.mp hg
    cases result with
    | some found =>
      cases hg
      split at hb
      · obtain ⟨lo, hsv⟩ := firstServed_one hb
        exact serveAt_spec hsv
      · cases hb
    | none =>
      obtain ⟨lo, hsv⟩ := firstServed_one hg
      exact serveFirst_spec hsv
  rw [Nat.sub_add_cancel (Nat.pos_of_ne_zero hq)] at hfi
  refine ⟨hfi.1, fun x hx => .inl ?_⟩
  rw [mem_singleton.mp hx]
  exact hfi.2.trans (Nat.mod_le _ _)

/-- A tree with two entries has one of them in a gap. -/
lemma exists_gap_of_two {t : VadTree} {tree : BinaryTree Nat} {rounds : Nat}
    (hhl : Holds t.links t.root tree) (hsr : (inorder tree).Pairwise (Before t))
    (hrn : ∀ q ∈ inorder tree, t.startingVpn q ≤ t.endingVpn q ∧ t.startingVpn q < 2 ^ 52)
    (hro : (inorder tree).length < rounds) (htw : 2 ≤ (inorder tree).length) :
    ∃ x ∈ inorder tree, t.findGap rounds (t.startingVpn x <<< 12) 1
      = some (some (t.startingVpn x <<< 12, t.startingVpn x <<< 12 + 4096)) := by
  obtain ⟨gaps, hgp, hin, hrt, hrg⟩ := collectGaps_spec rounds 0 ((2 ^ 64 - 1) >>> 12)
    hhl.shape hro fun q hq => (hrn q hq).2
  cases tree with
  | nil => cases htw
  | node q a b =>
    obtain ⟨hq, -⟩ := hhl.shape
    have hns : inorder (.node q a b) = inorder a ++ q :: inorder b := rfl
    rw [hns] at hsr hrn htw ⊢
    obtain ⟨-, hsb, hab⟩ := pairwise_append.mp hsr
    have hqr := hrn q (mem_append_right _ mem_cons_self)
    rw [hq] at hrt hrg
    cases b with
    | node r c d =>
      -- the gap before the right child starts with the root
      have hmm : r ∈ inorder (.node r c d) := mem_append_right _ mem_cons_self
      have hlt : t.endingVpn q < t.startingVpn r := rel_of_pairwise_cons hsb hmm
      refine ⟨q, mem_append_right _ mem_cons_self, findGap_serves hgp hin
        (hrg r c d a rfl (by omega)) ?_⟩
      dsimp only
      omega
    | nil =>
      -- the gap before the root has the left subtree in it
      obtain ⟨x, hx⟩ : ∃ x, x ∈ inorder a := by
        refine exists_mem_of_length_pos ?_
        simp only [length_append, length_cons, inorder, length_nil] at htw
        omega
      have hlt : t.endingVpn x < t.startingVpn q := hab x hx q mem_cons_self
      have hxr := hrn x (mem_append_left _ hx)
      refine ⟨x, mem_append_left _ hx, findGap_serves hgp hin (hrt (by simp) (by omega)) ?_⟩
      dsimp only
      omega

/-- **`find_gap`** is right for every base and size exactly if the tree has at most one entry, which
does not start at page 0. -/
theorem findGap_free_iff {t : VadTree} {tree : BinaryTree Nat} {rounds : Nat}
    (hholds : Holds t.links t.root tree) (hsorted : (inorder tree).Pairwise (Before t))
    (hranges : ∀ q ∈ inorder tree, t.startingVpn q ≤ t.endingVpn q ∧ t.startingVpn q < 2 ^ 52)
    (hrounds : (inorder tree).length < rounds) : GapsFree t tree rounds
      ↔ tree = .nil ∨ ∃ q, tree = .node q .nil .nil ∧ t.startingVpn q ≠ 0 := by
  refine ⟨fun h => ?_, gapsFree_of_one hholds⟩
  by_cases htw : 2 ≤ (inorder tree).length
  · obtain ⟨x, hx, hg⟩ := exists_gap_of_two hholds hsorted hranges hrounds htw
    have hfr := (h _ _ _ _ le_rfl hg).2 x hx
    have hle := (hranges x hx).1
    simp only [Nat.shiftLeft_eq] at hfr
    omega
  cases tree with
  | nil => exact .inl rfl
  | node q a b =>
    have hns : inorder (.node q a b) = inorder a ++ q :: inorder b := rfl
    rw [hns, length_append, length_cons] at htw hrounds
    obtain rfl : a = .nil := by
      cases a with
      | nil => rfl
      | node _ _ _ => simp [inorder] at htw; omega
    obtain rfl : b = .nil := by
      cases b with
      | nil => rfl
      | node _ _ _ => simp [inorder] at htw
    refine .inr ⟨q, rfl, fun hzr => ?_⟩
    obtain ⟨rounds, rfl⟩ : ∃ n, rounds = n + 2 := ⟨rounds - 2, by omega⟩
    obtain ⟨hq, hne, -, hlf, hrt⟩ := hholds.shape
    -- there is no gap, and the base is returned as it is
    have hgp : t.collectGaps (rounds + 2) t.root 0 ((2 ^ 64 - 1) >>> 12) = some [] := by
      rw [hq]
      simp [collectGaps, hne, show t.links.child .left q = 0 from hlf,
        show t.links.child .right q = 0 from hrt, hzr]
    have hg : t.findGap (rounds + 2) 1 1 = some (some (1, 4097)) := by
      unfold findGap
      rw [add_eq (by decide), hgp]
      rfl
    have hfr := (h 1 1 _ _ le_rfl hg).2 q (by rw [hns]; simp)
    simp only [Nat.shiftLeft_eq, hzr] at hfr
    omega

def oneEntry : VadTree := ⟨1, 1, ⟨fun _ => 0, fun _ _ => 0⟩, fun _ => 5, fun _ => 9, fun _ => 0⟩

lemma oneEntry_holds : Holds oneEntry.links 1 (.node 1 .nil .nil) :=
  ⟨⟨rfl, by decide, rfl, rfl, rfl⟩, by decide⟩

/-- With one entry from page 5 on, the gap before it is right. -/
theorem findGap_free_one : GapsFree oneEntry (.node 1 .nil .nil) 2 :=
  (findGap_free_iff oneEntry_holds (pairwise_singleton _ _) (by decide) (by decide)).mpr
    (.inr ⟨1, rfl, by decide⟩)

/-- The gap before the second entry starts with the first one, and is returned. -/
theorem findGap_meets_entry : (executeAllowed step allowed [⟨4096, 16, 16⟩, ⟨8192, 32, 32⟩]
      (start ⟨7, 7, ⟨fun _ => 7, fun _ _ => 7⟩, fun _ => 7, fun _ => 7, fun _ => 7⟩)).map
      (fun s => (s.tree.find 0x10000, s.tree.findGap 9 0x10000 1))
      = some (some (some 4096), some (some (0x10000, 0x11000))) := by
  decide +kernel

end Nt61.Vad
