/-
DList — intrusive doubly linked lists that end in null.

All lists over one type of nodes share one memory of links. `Linked` is about one head: what the
four pointer operations do to its list, and that they touch the links of its nodes only.
`Represents` is about a family of heads over one memory: lists that share no node stay so.
-/

import Mathlib.Data.Fintype.Card

namespace Nt61.DList

open Function List Option

variable {T K : Type}

/-! ## Nodes, heads and the pointer operations -/

structure Links (T : Type) where
  flink : Option T
  blink : Option T
  deriving DecidableEq, Repr

structure Head (T : Type) where
  head : Option T
  blink : Option T
  deriving DecidableEq, Repr

def Head.new : Head T := ⟨none, none⟩

def Head.isEmpty (q : Head T) : Bool := q.head.isNone && q.blink.isNone

section

variable [DecidableEq T]

/-- Write a forward link, unless the pointer is null. -/
def setFlink (m : T → Links T) : Option T → Option T → T → Links T
  | some a, next => update m a { m a with flink := next }
  | none, _ => m

/-- Write a backward link, unless the pointer is null. -/
def setBlink (m : T → Links T) : Option T → Option T → T → Links T
  | some a, prev => update m a { m a with blink := prev }
  | none, _ => m

def addTail (q : Head T) (m : T → Links T) (a : T) : Head T × (T → Links T) :=
  let m := update m a ⟨none, q.blink⟩
  (⟨if q.blink.isNone then some a else q.head, some a⟩, setFlink m q.blink (some a))

def addHead (q : Head T) (m : T → Links T) (a : T) : Head T × (T → Links T) :=
  let m := update m a ⟨q.head, none⟩
  (⟨some a, if q.head.isNone then some a else q.blink⟩, setBlink m q.head (some a))

/-- Its own links stay as they are. -/
def removeHead (q : Head T) (m : T → Links T) : Option (T × Head T × (T → Links T)) :=
  q.head.map fun a =>
    let next := (m a).flink
    (a, ⟨next, if next.isNone then none else q.blink⟩, setBlink m next none)

def unlink (q : Head T) (m : T → Links T) (a : T) : Head T × (T → Links T) :=
  let prev := (m a).blink
  let next := (m a).flink
  let m := setBlink (setFlink m prev next) next prev
  (⟨if prev.isNone then next else q.head, if next.isNone then prev else q.blink⟩,
    update m a ⟨none, none⟩)

end

/-- The first node that passes the test. `none`: the walk takes more than `fuel` nodes. -/
def find (m : T → Links T) (test : T → Bool) : Nat → Option T → Option (Option T)
  | _, none => some none
  | 0, some _ => none
  | fuel + 1, some a => if test a then some (some a) else find m test fuel (m a).flink

def walk (m : T → Links T) : Nat → Option T → Option (List T)
  | _, none => some []
  | 0, some _ => none
  | fuel + 1, some a => (walk m fuel (m a).flink).map (a :: ·)

/-! ## Segments -/

/-- The nodes of `l` are linked in order, behind `prev` and before `next`. -/
def Seg (m : T → Links T) : Option T → List T → Option T → Prop
  | _, [], _ => True
  | prev, a :: l, next => m a = ⟨l.head?.or next, prev⟩ ∧ Seg m (some a) l next

variable {prev next : Option T} {l : List T}

lemma Seg.congr {m m' : T → Links T}
    (h : Seg m prev l next) (hs : ∀ a ∈ l, m' a = m a) : Seg m' prev l next := by
  induction l generalizing prev with
  | nil => trivial
  | cons a l ih =>
    obtain ⟨ha, hl⟩ := h
    refine ⟨?_, ih hl fun b hb => hs b (mem_cons_of_mem _ hb)⟩
    rw [hs a mem_cons_self, ha]

variable {m : T → Links T} {xs ys : List T}

lemma seg_append : Seg m prev (xs ++ ys) next
      ↔ Seg m prev xs (ys.head?.or next) ∧ Seg m (xs.getLast?.or prev) ys next := by
  induction xs generalizing prev with
  | nil => simp [Seg]
  | cons a xs ih =>
    have hhd : (xs ++ ys).head?.or next = xs.head?.or (ys.head?.or next) := by
      rw [head?_append, Option.or_assoc]
    have hla : (a :: xs).getLast?.or prev = xs.getLast?.or (some a) := by
      rw [getLast?_cons]
      cases xs.getLast? <;> rfl
    rw [cons_append, Seg, Seg, ih, hhd, hla, and_assoc]

lemma seg_snoc {z : T} :
    Seg m prev (l ++ [z]) next ↔ Seg m prev l (some z) ∧ m z = ⟨next, l.getLast?.or prev⟩ := by
  rw [seg_append]
  simp [Seg]

variable {t : T}

lemma setFlink_of_ne [DecidableEq T] {o next : Option T} (h : o ≠ some t) :
    setFlink m o next t = m t := by
  cases o with
  | none => rfl
  | some a => exact update_of_ne (fun hta => h (congrArg some hta.symm)) _ _

lemma setBlink_of_ne [DecidableEq T] {o prev : Option T} (h : o ≠ some t) :
    setBlink m o prev t = m t := by
  cases o with
  | none => rfl
  | some a => exact update_of_ne (fun hta => h (congrArg some hta.symm)) _ _

lemma head?_ne_some (h : t ∉ l) : l.head? ≠ some t := fun heq => h (mem_of_head? heq)

lemma getLast?_ne_some (h : t ∉ l) : l.getLast? ≠ some t := fun heq => h (mem_of_getLast? heq)

lemma Seg.setFlink [DecidableEq T] (h : Seg m prev l next)
    (hnd : l.Nodup) (next' : Option T) : Seg (setFlink m l.getLast? next') prev l next' := by
  rcases eq_nil_or_concat l with rfl | ⟨xs, z, rfl⟩
  · trivial
  rw [concat_eq_append] at *
  obtain ⟨hxs, hz⟩ := seg_snoc.mp h
  have hzx : z ∉ xs := fun hm => (nodup_append.mp hnd).2.2 z hm z (mem_singleton_self z) rfl
  rw [getLast?_concat, seg_snoc]
  refine ⟨hxs.congr ?_, ?_⟩
  · intro a ha
    exact setFlink_of_ne fun hza => hzx (some.inj hza ▸ ha)
  · show update m z _ z = _
    rw [update_self, hz]

lemma Seg.setBlink [DecidableEq T] (h : Seg m prev l next)
    (hnd : l.Nodup) (prev' : Option T) : Seg (setBlink m l.head? prev') prev' l next := by
  cases l with
  | nil => trivial
  | cons a l =>
    obtain ⟨ha, hl⟩ := h
    refine ⟨?_, hl.congr ?_⟩
    · show update m a _ a = _
      rw [update_self, ha]
    · intro b hb
      exact setBlink_of_ne fun hab => (nodup_cons.mp hnd).1 (some.inj hab ▸ hb)

def flip (m : T → Links T) : T → Links T := fun a => ⟨(m a).blink, (m a).flink⟩

lemma Seg.reverse (h : Seg m prev l next) : Seg (flip m) next l.reverse prev := by
  induction l generalizing prev with
  | nil => trivial
  | cons a l ih =>
    obtain ⟨ha, hl⟩ := h
    rw [reverse_cons, seg_snoc]
    refine ⟨ih hl, ?_⟩
    rw [flip, ha, getLast?_reverse]

/-! ## One list -/

/-- The head holds the list `l`. -/
structure Linked (m : T → Links T) (q : Head T) (l : List T) : Prop where
  nodup : l.Nodup
  head : q.head = l.head?
  last : q.blink = l.getLast?
  seg : Seg m none l none

variable {m : T → Links T} {q : Head T} {l : List T}

lemma Linked.nil (m : T → Links T) : Linked m Head.new [] := ⟨nodup_nil, rfl, rfl, trivial⟩

lemma Linked.congr {m' : T → Links T} (h : Linked m q l) (hs : ∀ a ∈ l, m' a = m a) :
    Linked m' q l :=
  ⟨h.nodup, h.head, h.last, h.seg.congr hs⟩

lemma Linked.isEmpty (h : Linked m q l) : q.isEmpty = l.isEmpty := by
  unfold Head.isEmpty
  rw [h.head, h.last]
  cases l <;> simp

variable {a : T}

lemma Linked.addTail [DecidableEq T] (h : Linked m q l) (ha : a ∉ l) :
    Linked (addTail q m a).2 (addTail q m a).1 (l ++ [a])
      ∧ ∀ t, t ∉ l → t ≠ a → (DList.addTail q m a).2 t = m t := by
  unfold DList.addTail
  dsimp only
  rw [h.last, h.head]
  have hold : ∀ t, t ≠ a → update m a ⟨none, l.getLast?⟩ t = m t := fun t ht => update_of_ne ht _ _
  constructor
  · refine ⟨nodup_append.mpr ⟨h.nodup, nodup_singleton a, ?_⟩, ?_, ?_, ?_⟩
    · rintro b hb c hc rfl
      exact ha (mem_singleton.mp hc ▸ hb)
    · cases l <;> simp
    · simp
    -- the old nodes, which now end before `a`, and then `a` itself
    rw [seg_snoc]
    constructor
    · have hkp : Seg (update m a ⟨none, l.getLast?⟩) none l none :=
        h.seg.congr fun b hb => hold b fun hba => ha (hba ▸ hb)
      exact hkp.setFlink h.nodup (some a)
    · rw [setFlink_of_ne (getLast?_ne_some ha), update_self, or_none]
  · intro t ht hta
    rw [setFlink_of_ne (getLast?_ne_some ht), hold t hta]

lemma Linked.addHead [DecidableEq T] (h : Linked m q l) (ha : a ∉ l) :
    Linked (addHead q m a).2 (addHead q m a).1 (a :: l)
      ∧ ∀ t, t ∉ l → t ≠ a → (DList.addHead q m a).2 t = m t := by
  unfold DList.addHead
  dsimp only
  rw [h.last, h.head]
  have hold : ∀ t, t ≠ a → update m a ⟨l.head?, none⟩ t = m t := fun t ht => update_of_ne ht _ _
  constructor
  · refine ⟨nodup_cons.mpr ⟨ha, h.nodup⟩, rfl, ?_, ?_, ?_⟩
    · cases l with
      | nil => rfl
      | cons b l => rw [getLast?_cons_cons]; rfl
    · -- `a` itself, and then the old nodes, which now start behind it
      rw [setBlink_of_ne (head?_ne_some ha), update_self, or_none]
    have hkp : Seg (update m a ⟨l.head?, none⟩) none l none :=
      h.seg.congr fun b hb => hold b fun hba => ha (hba ▸ hb)
    exact hkp.setBlink h.nodup (some a)
  · intro t ht hta
    rw [setBlink_of_ne (head?_ne_some ht), hold t hta]

lemma Linked.removeHead [DecidableEq T] (h : Linked m q (a :: l)) :
    ∃ q' m', removeHead q m = some (a, q', m') ∧ Linked m' q' l ∧ ∀ t, t ∉ l → m' t = m t := by
  obtain ⟨ha, hl⟩ := h.seg
  have hnd := (nodup_cons.mp h.nodup).2
  have hnx : (m a).flink = l.head? := by rw [ha, or_none]
  refine ⟨_, _, by rw [DList.removeHead, h.head, head?_cons, map_some, hnx], ?_, ?_⟩
  · refine ⟨hnd, rfl, ?_, hl.setBlink hnd none⟩
    rw [h.last]
    cases l <;> simp
  · intro t ht
    exact setBlink_of_ne (head?_ne_some ht)

lemma Linked.mem_others (h : Linked m q (xs ++ a :: ys)) :
    t ∈ xs ++ ys ↔ t ∈ xs ++ a :: ys ∧ t ≠ a := by
  have hfs : (a :: (xs ++ ys)).Nodup := perm_middle.nodup_iff.mp h.nodup
  have hnt : a ∉ xs ++ ys := (nodup_cons.mp hfs).1
  rw [perm_middle.mem_iff, mem_cons]
  constructor
  · intro ht
    exact ⟨Or.inr ht, ne_of_mem_of_not_mem ht hnt⟩
  rintro ⟨rfl | ht, hne⟩
  · exact absurd rfl hne
  · exact ht

lemma Linked.neighbours (h : Linked m q l) (ha : a ∈ l) :
    (∀ b, (m a).flink = some b → b ∈ l) ∧ ∀ b, (m a).blink = some b → b ∈ l := by
  obtain ⟨_, _, rfl⟩ := append_of_mem ha
  obtain ⟨-, hlk, -⟩ := seg_append.mp h.seg
  rw [or_none, or_none] at hlk
  rw [hlk]
  refine ⟨fun b hb => ?_, fun b hb => ?_⟩
  · exact mem_append_right _ (mem_cons_of_mem _ (mem_of_head? hb))
  · exact mem_append_left _ (mem_of_getLast? hb)

lemma Linked.unlink [DecidableEq T] (h : Linked m q (xs ++ a :: ys)) :
    Linked (unlink q m a).2 (unlink q m a).1 (xs ++ ys)
      ∧ ∀ t, t ∉ xs ++ a :: ys → (DList.unlink q m a).2 t = m t := by
  obtain ⟨hxs, ha, hys⟩ := seg_append.mp h.seg
  rw [or_none] at ha
  obtain ⟨hnd, hnp, hds⟩ := nodup_append.mp h.nodup
  obtain ⟨hay, hny⟩ := nodup_cons.mp hnp
  have hax : a ∉ xs := fun hm => hds a hm a mem_cons_self rfl
  have hxy : ∀ t, t ∈ xs → t ∉ ys := fun t hx hy => hds t hx t (mem_cons_of_mem _ hy) rfl
  unfold DList.unlink
  rw [ha, h.head, h.last, or_none]
  dsimp only
  constructor
  · refine ⟨nodup_append.mpr ⟨hnd, hny, ?_⟩, ?_, ?_, ?_⟩
    · rintro t hx t' hy rfl
      exact hxy t hx hy
    · cases xs <;> simp
    · cases ys with
      | nil => simp
      | cons b ys => simp
    -- the two halves meet where `a` was
    rw [seg_append, or_none, or_none]
    constructor
    · refine (hxs.setFlink hnd ys.head?).congr fun t ht => ?_
      have hta : t ≠ a := fun hta => hax (hta ▸ ht)
      rw [update_of_ne hta, setBlink_of_ne (head?_ne_some (hxy t ht))]
    have hkp : Seg (DList.setFlink m xs.getLast? ys.head?) (some a) ys none :=
      hys.congr fun t ht => setFlink_of_ne (getLast?_ne_some fun hx => hxy t hx ht)
    refine (hkp.setBlink hny xs.getLast?).congr fun t ht => ?_
    have hta : t ≠ a := fun hta => hay (hta ▸ ht)
    rw [update_of_ne hta]
  intro t ht
  rw [mem_append, mem_cons, not_or, not_or] at ht
  obtain ⟨htx, hta, hty⟩ := ht
  rw [update_of_ne hta, setBlink_of_ne (head?_ne_some hty), setFlink_of_ne (getLast?_ne_some htx)]

variable {fuel : Nat}

lemma Seg.find {prev : Option T} (h : Seg m prev l none) (test : T → Bool)
    (hfu : l.length ≤ fuel) : find m test fuel l.head? = some (l.find? test) := by
  induction l generalizing prev fuel with
  | nil => cases fuel <;> rfl
  | cons a l ih =>
    obtain ⟨ha, hl⟩ := h
    obtain ⟨fuel, rfl⟩ : ∃ k, fuel = k + 1 := ⟨fuel - 1, by simp at hfu; omega⟩
    have hnx : (m a).flink = l.head? := by rw [ha, or_none]
    rw [head?_cons, DList.find, find?_cons, hnx, ih hl (by simpa using hfu)]
    cases test a <;> rfl

lemma Linked.find (h : Linked m q l) (test : T → Bool) (hfu : l.length ≤ fuel) :
    find m test fuel q.head = some (l.find? test) := by
  rw [h.head]
  exact h.seg.find test hfu

lemma Seg.walk {prev : Option T} (h : Seg m prev l none)
    (hfu : l.length ≤ fuel) : walk m fuel l.head? = some l := by
  induction l generalizing prev fuel with
  | nil => cases fuel <;> rfl
  | cons a l ih =>
    obtain ⟨ha, hl⟩ := h
    obtain ⟨fuel, rfl⟩ : ∃ k, fuel = k + 1 := ⟨fuel - 1, by simp at hfu; omega⟩
    have hnx : (m a).flink = l.head? := by rw [ha, or_none]
    rw [head?_cons, DList.walk, hnx, ih hl (by simpa using hfu), map_some]

lemma Linked.walk (h : Linked m q l) (hfu : l.length ≤ fuel) : walk m fuel q.head = some l := by
  rw [h.head]
  exact h.seg.walk hfu

/-! ## Families of lists over one memory -/

structure Represents (m : T → Links T) (heads : K → Head T) (Q : K → List T) : Prop where
  linked : ∀ k, Linked m (heads k) (Q k)
  apart : ∀ {t k k'}, t ∈ Q k → t ∈ Q k' → k = k'

variable [DecidableEq K] {heads : K → Head T} {Q : K → List T}

omit [DecidableEq K] in
lemma Represents.empty (m : T → Links T) :
    Represents m (fun _ : K => Head.new) (fun _ => ([] : List T)) :=
  ⟨fun _ => Linked.nil m, nofun⟩

lemma Represents.update (h : Represents m heads Q) (k : K) {m' : T → Links T} {q : Head T}
    (hl : Linked m' q l) (hs : ∀ t k', k' ≠ k → t ∈ Q k' → m' t = m t)
    (hw : ∀ t k', k' ≠ k → t ∈ Q k' → t ∉ l) :
    Represents m' (update heads k q) (update Q k l) := by
  constructor
  · intro k'
    by_cases hk : k' = k
    · subst hk
      rw [update_self, update_self]
      exact hl
    · rw [update_of_ne hk, update_of_ne hk]
      exact (h.linked k').congr fun t ht => hs t k' hk ht
  intro t k1 k2 h1 h2
  by_cases hk1 : k1 = k
  · by_cases hk2 : k2 = k
    · rw [hk1, hk2]
    rw [hk1, update_self] at h1
    rw [update_of_ne hk2] at h2
    exact absurd h1 (hw t k2 hk2 h2)
  rw [update_of_ne hk1] at h1
  by_cases hk2 : k2 = k
  · rw [hk2, update_self] at h2
    exact absurd h2 (hw t k1 hk1 h1)
  · rw [update_of_ne hk2] at h2
    exact h.apart h1 h2

lemma mem_update_cons {k k' : K} : t ∈ update Q k (a :: Q k) k' ↔ t ∈ Q k' ∨ (t = a ∧ k' = k) := by
  by_cases hk : k' = k
  · subst hk
    simp [or_comm]
  · simp [hk]

variable [DecidableEq T] (h : Represents m heads Q)
include h

lemma Represents.mem_update_erase {k k' : K} (ha : a ∈ Q k) :
    t ∈ Function.update Q k ((Q k).erase a) k' ↔ t ∈ Q k' ∧ t ≠ a := by
  by_cases hk : k' = k
  · subst hk
    rw [update_self, (h.linked k').nodup.mem_erase_iff, and_comm]
  rw [update_of_ne hk]
  refine ⟨fun ht => ⟨ht, ?_⟩, And.left⟩
  rintro rfl
  exact hk (h.apart ht ha)

lemma Represents.addTail (k : K) (ha : ∀ k', a ∉ Q k') :
    Represents (addTail (heads k) m a).2 (Function.update heads k (addTail (heads k) m a).1)
      (Function.update Q k (Q k ++ [a])) := by
  obtain ⟨hl, hfr⟩ := (h.linked k).addTail (ha k)
  apply h.update k hl
  · intro t k' hk ht
    exact hfr t (fun htk => hk (h.apart ht htk)) fun hta => ha k' (hta ▸ ht)
  intro t k' hk ht hm
  rcases mem_append.mp hm with htk | hta
  · exact hk (h.apart ht htk)
  · exact ha k' (mem_singleton.mp hta ▸ ht)

lemma Represents.addHead (k : K) (ha : ∀ k', a ∉ Q k') :
    Represents (addHead (heads k) m a).2 (Function.update heads k (addHead (heads k) m a).1)
      (Function.update Q k (a :: Q k)) := by
  obtain ⟨hl, hfr⟩ := (h.linked k).addHead (ha k)
  apply h.update k hl
  · intro t k' hk ht
    exact hfr t (fun htk => hk (h.apart ht htk)) fun hta => ha k' (hta ▸ ht)
  intro t k' hk ht hm
  rcases mem_cons.mp hm with hta | htk
  · exact ha k' (hta ▸ ht)
  · exact hk (h.apart ht htk)

lemma Represents.removeHead {k : K} (hk : Q k = a :: l) :
    ∃ q' m', removeHead (heads k) m = some (a, q', m')
      ∧ Represents m' (Function.update heads k q') (Function.update Q k l) := by
  have hlk := h.linked k
  rw [hk] at hlk
  obtain ⟨q', m', hr, hl, hfr⟩ := hlk.removeHead
  refine ⟨q', m', hr, h.update k hl ?_ ?_⟩
  · intro t k' hne ht
    exact hfr t fun htl => hne (h.apart ht (hk ▸ mem_cons_of_mem _ htl))
  · intro t k' hne ht htl
    exact hne (h.apart ht (hk ▸ mem_cons_of_mem _ htl))

lemma Represents.unlink {k : K} (ha : a ∈ Q k) :
    Represents (unlink (heads k) m a).2 (Function.update heads k (unlink (heads k) m a).1)
      (Function.update Q k ((Q k).erase a)) := by
  have hlk := h.linked k
  obtain ⟨_, _, _, hsp, her⟩ := exists_erase_eq ha
  rw [hsp] at hlk
  obtain ⟨hl, hfr⟩ := hlk.unlink
  rw [her]
  apply h.update k hl
  · intro t k' hne ht
    exact hfr t fun hm => hne (h.apart ht (hsp ▸ hm))
  intro t k' hne ht hm
  exact hne (h.apart ht (hsp ▸ (mem_append.mp hm).elim (fun hx => mem_append_left _ hx)
    fun hy => mem_append_right _ (mem_cons_of_mem _ hy)))

end Nt61.DList
