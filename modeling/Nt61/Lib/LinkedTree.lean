/-
LinkedTree — binary trees of linked nodes in memory.

`Holds l root tree`: the pointers `l` form `tree`, with every node in one place; address 0 is null.
A place inside a tree is a list of frames up to the root (`plug`). What is above and below it can be
looked at apart (`shape_plug`), and a change of pointers is seen only where they are.
-/
import Mathlib.Data.Tree.Basic
import Mathlib.Data.List.Nodup

namespace Nt61.Lib.LinkedTree

open List

/-! ## Pointers and trees -/

inductive Side where
  | left
  | right
  deriving DecidableEq, Repr

def Side.flip : Side → Side
  | .left => .right
  | .right => .left

variable (s : Side)

@[simp]
lemma Side.flip_flip : s.flip.flip = s := by cases s <;> rfl

@[simp]
lemma Side.flip_ne : s.flip ≠ s := by cases s <;> decide

@[simp]
lemma Side.ne_flip : s ≠ s.flip := by cases s <;> decide

lemma Side.eq_or_eq_flip (s t : Side) : s = t ∨ s = t.flip := by cases s <;> cases t <;> decide

/-- The pointers of all nodes. -/
structure Links where
  parent : Nat → Nat
  child : Side → Nat → Nat

namespace Links

variable (l : Links)

def setParent (p v : Nat) : Links := { l with parent := Function.update l.parent p v }

def setChild (s : Side) (p v : Nat) : Links :=
  { l with child := Function.update l.child s (Function.update (l.child s) p v) }

@[simp]
lemma parent_setParent (p v q : Nat) :
    (l.setParent p v).parent q = if q = p then v else l.parent q :=
  Function.update_apply _ _ _ _

@[simp]
lemma child_setParent (p v : Nat) (s : Side) (q : Nat) :
    (l.setParent p v).child s q = l.child s q := rfl

@[simp]
lemma parent_setChild (p v q : Nat) : (l.setChild s p v).parent q = l.parent q := rfl

@[simp]
lemma child_setChild (p v : Nat) (t : Side) (q : Nat) :
    (l.setChild s p v).child t q = if t = s ∧ q = p then v else l.child t q := by
  unfold setChild
  by_cases hs : t = s
  · subst hs
    simp [Function.update_apply]
  · simp [hs]

/-- The parent of `y` gets the child `x` in its place. -/
def hang (s : Side) (y x : Nat) : Links :=
  if l.parent y = 0 then l
  else if l.child s (l.parent y) = y then l.setChild s (l.parent y) x
  else l.setChild s.flip (l.parent y) x

/-- A null pointer has no parent to set. -/
def reparent (p v : Nat) : Links := if p = 0 then l else l.setParent p v

@[simp]
lemma parent_hang (y x q : Nat) : (l.hang s y x).parent q = l.parent q := by
  unfold hang
  split_ifs <;> rfl

/-- The side of its parent on which `y` is looked for, and the other one if it is not there. -/
def sideOf (s : Side) (y : Nat) : Side := if l.child s (l.parent y) = y then s else s.flip

@[simp]
lemma child_hang (y x : Nat) (t : Side) (q : Nat) : (l.hang s y x).child t q
    = if l.parent y ≠ 0 ∧ t = l.sideOf s y ∧ q = l.parent y then x else l.child t q := by
  unfold hang sideOf
  split_ifs <;> simp_all

@[simp]
lemma parent_reparent (p v q : Nat) :
    (l.reparent p v).parent q = if p ≠ 0 ∧ q = p then v else l.parent q := by
  unfold reparent
  split_ifs <;> simp_all

@[simp]
lemma child_reparent (p v : Nat) (s : Side) (q : Nat) :
    (l.reparent p v).child s q = l.child s q := by
  unfold reparent
  split_ifs <;> rfl

/-- The child of `y` on one side takes the place of `y`, which becomes its child on the other side
and keeps the subtree between them. -/
def rotate (s : Side) (y : Nat) : Links :=
  let x := l.child s y
  let between := l.child s.flip x
  (((((l.setParent x (l.parent y)).hang s y x).setChild s.flip x y).setParent y x).setChild s y
    between).reparent between y

/-- Both have the same pointers at that node. -/
def Agree (l l' : Links) (q : Nat) : Prop :=
  l'.parent q = l.parent q ∧ ∀ s, l'.child s q = l.child s q

end Links

def inorder : BinaryTree Nat → List Nat
  | .nil => []
  | .node q a b => inorder a ++ q :: inorder b

def join (s : Side) (a : BinaryTree Nat) (q : Nat) (b : BinaryTree Nat) : BinaryTree Nat :=
  match s with
  | .left => .node q a b
  | .right => .node q b a

lemma inorder_join_perm (a : BinaryTree Nat) (q : Nat) (b : BinaryTree Nat) :
    (inorder (join s a q b)).Perm (q :: (inorder a ++ inorder b)) := by
  cases s with
  | left => exact perm_middle
  | right => exact perm_middle.trans (perm_append_comm.cons q)

lemma inorder_rotate (a b c : BinaryTree Nat) (x y : Nat) :
    inorder (join s a x (join s b y c)) = inorder (join s (join s a x b) y c) := by
  cases s <;> simp [join, inorder]

/-! ## Places in a tree -/

/-- A node above the place: the side on which the place is, and the subtree on the other side. -/
structure Frame where
  side : Side
  node : Nat
  other : BinaryTree Nat

def Frame.before (f : Frame) : List Nat :=
  match f.side with
  | .left => []
  | .right => inorder f.other ++ [f.node]

def Frame.after (f : Frame) : List Nat :=
  match f.side with
  | .left => f.node :: inorder f.other
  | .right => []

def plug (t : BinaryTree Nat) : List Frame → BinaryTree Nat
  | [] => t
  | f :: path => plug (join f.side t f.node f.other) path

def above : List Frame → Nat
  | [] => 0
  | f :: _ => f.node

def before : List Frame → List Nat
  | [] => []
  | f :: path => before path ++ f.before

def after : List Frame → List Nat
  | [] => []
  | f :: path => f.after ++ after path

def pathNodes : List Frame → List Nat
  | [] => []
  | f :: path => f.node :: (inorder f.other ++ pathNodes path)

variable {l l' : Links} {root par p : Nat} {t a b c : BinaryTree Nat} {path : List Frame} {f : Frame}

lemma inorder_frame (t : BinaryTree Nat) (f : Frame) :
    inorder (join f.side t f.node f.other) = f.before ++ inorder t ++ f.after := by
  unfold Frame.before Frame.after
  cases f.side <;> simp [join, inorder]

lemma inorder_plug (t : BinaryTree Nat) (path : List Frame) :
    inorder (plug t path) = before path ++ inorder t ++ after path := by
  induction path generalizing t with
  | nil => simp [plug, before, after]
  | cons f path ih =>
    unfold plug before after
    rw [ih, inorder_frame]
    simp only [append_assoc]

lemma plug_perm (t : BinaryTree Nat) (path : List Frame) :
    (inorder (plug t path)).Perm (inorder t ++ pathNodes path) := by
  induction path generalizing t with
  | nil => simp [plug, pathNodes]
  | cons f path ih =>
    refine (ih _).trans (((inorder_join_perm _ _ _ _).append_right _).trans ?_)
    rw [cons_append, append_assoc]
    exact (@perm_middle _ f.node (inorder t) (inorder f.other ++ pathNodes path)).symm

lemma length_path_le (path : List Frame) : path.length ≤ (pathNodes path).length := by
  induction path with
  | nil => exact Nat.le_refl _
  | cons f path ih =>
    unfold pathNodes
    rw [length_cons, length_cons, length_append]
    omega

/-! ## Trees in memory -/

/-- The pointers from `p` on form the tree; the root of it has the parent `par`. -/
def Shape (l : Links) : Nat → Nat → BinaryTree Nat → Prop
  | _, p, .nil => p = 0
  | par, p, .node q a b => p = q ∧ q ≠ 0 ∧ l.parent q = par ∧
      Shape l q (l.child .left q) a ∧ Shape l q (l.child .right q) b

/-- The pointers from the root down to the place form the frames; `p` is what hangs there. -/
def PathShape (l : Links) (root : Nat) : List Frame → Nat → Prop
  | [], p => root = p
  | f :: path, p => f.node ≠ 0 ∧ l.parent f.node = above path ∧ l.child f.side f.node = p ∧
      Shape l f.node (l.child f.side.flip f.node) f.other ∧ PathShape l root path f.node

lemma shape_join {s : Side} {q : Nat} :
    Shape l par p (join s a q b) ↔ p = q ∧ q ≠ 0 ∧ l.parent q = par ∧
      Shape l q (l.child s q) a ∧ Shape l q (l.child s.flip q) b := by
  cases s with
  | left => exact Iff.rfl
  | right =>
    show (p = q ∧ q ≠ 0 ∧ l.parent q = par ∧ Shape l q (l.child .left q) b ∧
      Shape l q (l.child .right q) a) ↔ _
    rw [and_comm (a := Shape l q (l.child .left q) b)]
    rfl

lemma shape_plug :
    Shape l 0 root (plug t path) ↔ ∃ p, Shape l (above path) p t ∧ PathShape l root path p := by
  induction path generalizing t with
  | nil =>
    constructor
    · intro h
      exact ⟨root, h, rfl⟩
    · rintro ⟨p, h, rfl⟩
      exact h
  | cons f path ih =>
    unfold plug
    rw [ih]
    constructor
    · rintro ⟨_, hq, hpa⟩
      obtain ⟨rfl, hne, hpr, hcd, hot⟩ := shape_join.mp hq
      exact ⟨_, hcd, hne, hpr, rfl, hot, hpa⟩
    · rintro ⟨p, hp, hne, hpr, rfl, hot, hpa⟩
      exact ⟨f.node, shape_join.mpr ⟨rfl, hne, hpr, hp, hot⟩, hpa⟩

lemma Shape.congr (h : Shape l par p t) (hs : ∀ q ∈ inorder t, l.Agree l' q) :
    Shape l' par p t := by
  induction t generalizing par p with
  | nil => exact h
  | node q a b iha ihb =>
    obtain ⟨rfl, hne, hpr, ha, hb⟩ := h
    obtain ⟨hpr', hcd⟩ := hs p (mem_append_right _ mem_cons_self)
    refine ⟨rfl, hne, hpr'.trans hpr, ?_, ?_⟩ <;> rw [hcd]
    · exact iha ha fun r hr => hs r (mem_append_left _ hr)
    · exact ihb hb fun r hr => hs r (mem_append_right _ (mem_cons_of_mem _ hr))

lemma Shape.congr_parent {par' : Nat} (h : Shape l par p t) (hnd : (inorder t).Nodup)
    (hrt : p ≠ 0 → l'.parent p = par' ∧ ∀ s, l'.child s p = l.child s p)
    (hs : ∀ q ∈ inorder t, q ≠ p → l.Agree l' q) : Shape l' par' p t := by
  cases t with
  | nil => exact h
  | node q a b =>
    obtain ⟨rfl, hne, -, ha, hb⟩ := h
    obtain ⟨hpr, hcd⟩ := hrt hne
    have hq : p ∉ inorder a ++ inorder b := (nodup_middle.mp hnd).notMem
    refine ⟨rfl, hne, hpr, ?_, ?_⟩
    · rw [hcd]
      refine ha.congr fun r hr => hs r (mem_append_left _ hr) ?_
      rintro rfl
      exact hq (mem_append_left _ hr)
    rw [hcd]
    refine hb.congr fun r hr => hs r (mem_append_right _ (mem_cons_of_mem _ hr)) ?_
    rintro rfl
    exact hq (mem_append_right _ hr)

lemma PathShape.congr (h : PathShape l root path p) (hs : ∀ q ∈ pathNodes path, l.Agree l' q) :
    PathShape l' root path p := by
  induction path generalizing p with
  | nil => exact h
  | cons f path ih =>
    obtain ⟨hne, hpr, hcd, hot, hpa⟩ := h
    obtain ⟨hpr', hcd'⟩ := hs f.node mem_cons_self
    refine ⟨hne, hpr'.trans hpr, (hcd' _).trans hcd, ?_, ih hpa fun q hq => ?_⟩
    · rw [hcd']
      exact hot.congr fun q hq => hs q (mem_cons_of_mem _ (mem_append_left _ hq))
    · exact hs q (mem_cons_of_mem _ (mem_append_right _ hq))

lemma PathShape.rehang {p' : Nat} (h : PathShape l root (f :: path) p)
    (hno : l'.parent f.node = l.parent f.node ∧ l'.child f.side f.node = p' ∧
      l'.child f.side.flip f.node = l.child f.side.flip f.node)
    (hs : ∀ q ∈ inorder f.other ++ pathNodes path, l.Agree l' q) :
    PathShape l' root (f :: path) p' := by
  obtain ⟨hne, hpr, -, hot, hpa⟩ := h
  refine ⟨hne, hno.1.trans hpr, hno.2.1, ?_, hpa.congr fun q hq => ?_⟩
  · rw [hno.2.2]
    exact hot.congr fun q hq => hs q (mem_append_left _ hq)
  · exact hs q (mem_append_right _ hq)

lemma Shape.ne_zero (h : Shape l par p t) {q : Nat} (hq : q ∈ inorder t) : q ≠ 0 := by
  induction t generalizing par p with
  | nil => cases hq
  | node r a b iha ihb =>
    obtain ⟨rfl, hne, -, ha, hb⟩ := h
    rcases mem_append.mp hq with hq | hq
    · exact iha ha hq
    rcases mem_cons.mp hq with rfl | hq
    · exact hne
    · exact ihb hb hq

lemma Shape.mem_of_ne (h : Shape l par p t) (hp : p ≠ 0) : p ∈ inorder t := by
  cases t with
  | nil => exact absurd h hp
  | node q a b =>
    obtain ⟨rfl, -⟩ := h
    exact mem_append_right _ mem_cons_self

/-- The pointers form the tree, and no node occurs in it twice. -/
structure Holds (l : Links) (root : Nat) (tree : BinaryTree Nat) : Prop where
  shape : Shape l 0 root tree
  nodup : (inorder tree).Nodup

lemma Holds.congr (h : Holds l root t) (hs : ∀ q ∈ inorder t, l.Agree l' q) : Holds l' root t :=
  ⟨h.shape.congr hs, h.nodup⟩

lemma holds_nil (l : Links) : Holds l 0 .nil := ⟨rfl, nodup_nil⟩

/-! ## New leaves and rotations -/

lemma Holds.attach {v : Nat} (h : Holds l root (plug .nil (f :: path))) (hv : v ≠ 0)
    (hw : v ∉ pathNodes (f :: path)) (hlf : ∀ s, l.child s v = 0) :
    Holds ((l.setChild f.side f.node v).setParent v f.node) root
      (plug (.node v .nil .nil) (f :: path)) := by
  have hold : (pathNodes (f :: path)).Nodup := (plug_perm .nil (f :: path)).nodup_iff.mp h.nodup
  obtain ⟨_, -, hpa⟩ := shape_plug.mp h.shape
  have hno : v ≠ f.node := fun heq => hw (heq ▸ mem_cons_self)
  have hfr : f.node ∉ inorder f.other ++ pathNodes path := hold.notMem
  have hs : ∀ q ∈ inorder f.other ++ pathNodes path,
      l.Agree ((l.setChild f.side f.node v).setParent v f.node) q := by
    intro q hq
    have hqv : q ≠ v := fun heq => hw (heq ▸ mem_cons_of_mem _ hq)
    have hqf : q ≠ f.node := fun heq => hfr (heq ▸ hq)
    simp [Links.Agree, hqv, hqf]
  refine ⟨shape_plug.mpr ⟨v, ?_, hpa.rehang ?_ hs⟩, ?_⟩
  · refine ⟨rfl, hv, by simp [above], ?_, ?_⟩
    · simp [Shape, hno, hlf]
    · simp [Shape, hno, hlf]
  · simp [Ne.symm hno]
  · refine (plug_perm _ _).nodup_iff.mpr ?_
    exact nodup_cons.mpr ⟨hw, hold⟩

section

variable {s : Side} {x y between q : Nat}

lemma parent_rotate : (l.rotate s y).parent q
    = if l.child s.flip (l.child s y) ≠ 0 ∧ q = l.child s.flip (l.child s y) then y
      else if q = y then l.child s y else if q = l.child s y then l.parent y else l.parent q := by
  simp [Links.rotate]

lemma child_rotate (t : Side) : (l.rotate s y).child t q
    = if t = s ∧ q = y then l.child s.flip (l.child s y) else if t = s.flip ∧ q = l.child s y then y
      else if l.parent y ≠ 0 ∧ t = l.sideOf s y ∧ q = l.parent y then l.child s y
      else l.child t q := by
  have hpr : (l.setParent (l.child s y) (l.parent y)).parent y = l.parent y := by simp
  have hsi : (l.setParent (l.child s y) (l.parent y)).sideOf s y = l.sideOf s y := by
    unfold Links.sideOf
    rw [hpr]
    rfl
  simp only [Links.rotate, Links.child_reparent, Links.child_setChild, Links.child_setParent,
    Links.child_hang, hpr, hsi]

lemma PathShape.sideOf (h : PathShape l root (f :: path) y) (hpr : l.parent y = f.node)
    (hy : y ≠ 0) (hot : y ∉ inorder f.other) : l.sideOf s y = f.side := by
  obtain ⟨-, -, hcd, hsh, -⟩ := h
  unfold Links.sideOf
  rw [hpr]
  rcases Side.eq_or_eq_flip s f.side with rfl | rfl
  · rw [if_pos hcd]
  rw [if_neg, Side.flip_flip]
  rintro heq
  rw [heq] at hsh
  exact hot (hsh.mem_of_ne hy)

lemma agree_rotate (hx : q ≠ l.child s y) (hy : q ≠ y)
    (hbt : q ≠ l.child s.flip (l.child s y)) (hpr : q ≠ l.parent y) :
    l.Agree (l.rotate s y) q := by
  refine ⟨?_, fun t => ?_⟩
  · rw [parent_rotate, if_neg (by tauto), if_neg hy, if_neg hx]
  · rw [child_rotate, if_neg (by tauto), if_neg (by tauto), if_neg (by tauto)]

/-- The subtrees `a`, `b` and `c` of the nodes `x` and `y` that change places, what is above them,
and what keeps all of them apart. -/
structure Turn (l : Links) (s : Side) (a b c : BinaryTree Nat) (x y : Nat) (path : List Frame) :
    Prop where
  child : l.child s y = x
  parent : l.parent y = above path
  shapes : Shape l x (l.child s x) a ∧ Shape l x (l.child s.flip x) b ∧ Shape l y (l.child s.flip y) c
  nodes : ∀ q ∈ x :: y :: (inorder a ++ (inorder b ++ (inorder c ++ pathNodes path))), q ≠ 0
  nodup : (x :: y :: (inorder a ++ (inorder b ++ (inorder c ++ pathNodes path)))).Nodup
  between : l.child s.flip x = 0 ∨ l.child s.flip x ∈ inorder b
  top : l.parent y = 0 ∨ l.parent y ∈ pathNodes path

lemma Holds.turn (h : Holds l root (plug (join s (join s a x b) y c) path)) :
    Turn l s a b c x y path ∧ PathShape l root path y := by
  have hpm : (inorder (plug (join s (join s a x b) y c) path)).Perm
      (x :: y :: (inorder a ++ (inorder b ++ (inorder c ++ pathNodes path)))) := by
    refine (plug_perm _ _).trans (((inorder_join_perm _ _ _ _).append_right _).trans ?_)
    refine .trans (((inorder_join_perm _ _ _ _).append_right _).cons y |>.append_right _) ?_
    simp only [cons_append, append_assoc]
    exact .swap x y _
  obtain ⟨_, hsb, hpa⟩ := shape_plug.mp h.shape
  obtain ⟨rfl, _, hpr, hlw, hc⟩ := shape_join.mp hsb
  obtain ⟨hcd, _, -, ha, hb⟩ := shape_join.mp hlw
  refine ⟨⟨hcd, hpr, ⟨ha, hb, hc⟩, fun q hq => h.shape.ne_zero (hpm.mem_iff.mpr hq),
    hpm.nodup_iff.mp h.nodup, ?_, ?_⟩, hpa⟩
  · by_cases hnu : l.child s.flip x = 0
    · exact .inl hnu
    · exact .inr (hb.mem_of_ne hnu)
  rw [hpr]
  cases path with
  | nil => exact .inl rfl
  | cons f path => exact .inr mem_cons_self

section

variable (h : Turn l s a b c x y path)
include h

lemma Turn.ne : x ≠ y ∧ x ≠ l.child s.flip x ∧ x ≠ l.parent y ∧
    y ≠ l.child s.flip x ∧ y ≠ l.parent y ∧
    (l.child s.flip x ≠ 0 → l.child s.flip x ≠ l.parent y) := by
  have hnd := h.nodup
  have hx := h.nodes x mem_cons_self
  have hy := h.nodes y (mem_cons_of_mem _ mem_cons_self)
  have hbt := h.between
  have htp := h.top
  simp only [nodup_cons, mem_cons, not_or, nodup_append] at hnd
  grind

lemma Turn.agree (hq : q ∈ inorder a ++ (inorder b ++ (inorder c ++ pathNodes path)))
    (hbt : q ∈ inorder b → q ≠ l.child s.flip x) (htp : q ∈ pathNodes path → q ≠ l.parent y) :
    l.Agree (l.rotate s y) q := by
  have hnd := h.nodup
  have hq0 := h.nodes q (mem_cons_of_mem _ (mem_cons_of_mem _ hq))
  have hb := h.between
  have hp := h.top
  have hxy := h.ne.1
  refine agree_rotate (h.child ▸ ?_) ?_ (h.child ▸ ?_) ?_
  · grind
  · grind
  · grind
  · grind

lemma Turn.lower : Shape (l.rotate s y) (above path) x (join s a x (join s b y c)) := by
  obtain ⟨ha, hb, hc⟩ := h.shapes
  obtain ⟨hxy, _, _, _, _, _⟩ := h.ne
  have hcd := h.child
  have hne : l.child s y ≠ y := hcd ▸ hxy
  have hx : x ≠ 0 := h.nodes x mem_cons_self
  have hy : y ≠ 0 := h.nodes y (mem_cons_of_mem _ mem_cons_self)
  have hnd := h.nodup
  simp only [nodup_cons, mem_append, nodup_append] at hnd
  obtain ⟨-, -, -, ⟨hnb, ⟨-, -, hcp⟩, hbc⟩, hab⟩ := hnd
  -- `y` with the subtrees that it keeps
  have hlw : Shape (l.rotate s y) x y (join s b y c) := by
    refine shape_join.mpr ⟨rfl, hy, ?_, ?_, ?_⟩
    · rw [parent_rotate, hcd, if_neg (by tauto), if_pos rfl]
    · rw [child_rotate, if_pos ⟨rfl, rfl⟩, hcd]
      refine hb.congr_parent hnb (fun hnu => ⟨?_, fun t => ?_⟩) fun q hq hqb => ?_
      · rw [parent_rotate, hcd, if_pos ⟨hnu, rfl⟩]
      · rw [child_rotate, hcd, if_neg (by tauto), if_neg (by tauto), if_neg (by tauto)]
      · exact h.agree (by simp [hq]) (fun _ => hqb) fun hqp => absurd rfl (hbc q hq q (.inr hqp))
    rw [child_rotate, if_neg (by simp), if_neg (by tauto), if_neg (by tauto)]
    refine hc.congr fun q hq => h.agree (by simp [hq]) (fun hqb => ?_) fun hqp => ?_
    · exact absurd rfl (hbc q hqb q (.inl hq))
    · exact absurd rfl (hcp q hq q hqp)
  refine shape_join.mpr ⟨rfl, hx, ?_, ?_, ?_⟩
  · rw [parent_rotate, hcd, if_neg (by tauto), if_neg hxy, if_pos rfl, h.parent]
  · rw [child_rotate, if_neg (by tauto), if_neg (by simp), if_neg (by tauto)]
    refine ha.congr fun q hq => h.agree (by simp [hq]) (fun hqb => ?_) fun hqp => ?_
    · exact absurd rfl (hab q hq q (.inl hqb))
    · exact absurd rfl (hab q hq q (.inr (.inr hqp)))
  · rw [child_rotate, hcd, if_neg (by simp), if_pos ⟨rfl, rfl⟩]
    exact hlw

lemma Turn.upper (hpa : PathShape l root path y) :
    PathShape (l.rotate s y) (if l.parent y = 0 then x else root) path x := by
  obtain ⟨hxy, _, hxp, _, hyp, hbp⟩ := h.ne
  have hcd := h.child
  have hpr := h.parent
  cases path with
  | nil => exact if_pos hpr
  | cons f path =>
    have hy : y ≠ 0 := h.nodes y (mem_cons_of_mem _ mem_cons_self)
    have hnd := h.nodup
    simp only [nodup_cons, mem_cons, mem_append, not_or, nodup_append, pathNodes] at hnd
    obtain ⟨-, ⟨-, -, -, -, hyo, -⟩, -, ⟨-, ⟨-, ⟨⟨hfo, hfp⟩, -⟩, _⟩, hbc⟩, _⟩ := hnd
    change l.parent y = f.node at hpr
    have hsi := hpa.sideOf (s := s) hpr hy hyo
    have hf : f.node ≠ 0 := hpa.1
    rw [hpr] at hxp hyp hbp
    rw [if_neg (hpr ▸ hf)]
    refine hpa.rehang ⟨?_, ?_, ?_⟩ fun q hq => ?_
    · rw [parent_rotate, hcd, if_neg ?_, if_neg (Ne.symm hyp), if_neg (Ne.symm hxp)]
      rintro ⟨hnu, heq⟩
      exact hbp hnu heq.symm
    · rw [child_rotate, hcd, if_neg (by tauto), if_neg (by tauto),
        if_pos ⟨hpr ▸ hf, hsi.symm, hpr.symm⟩]
    · rw [child_rotate, hcd, if_neg (by tauto), if_neg (by tauto), if_neg]
      rintro ⟨-, heq, -⟩
      exact Side.flip_ne f.side (heq.trans hsi)
    have hqf : q ≠ f.node := by
      rintro rfl
      rcases mem_append.mp hq with hq | hq
      · exact hfo hq
      · exact hfp hq
    have hqp : q ∈ pathNodes (f :: path) := mem_cons_of_mem _ hq
    refine h.agree (by simp [hqp]) (fun hqb => ?_) fun _ => hpr ▸ hqf
    exact absurd rfl (hbc q hqb q (.inr (.inr (mem_append.mp hq))))

end

variable (h : Holds l root (plug (join s (join s a x b) y c) path))
include h

lemma Holds.rotate : Holds (l.rotate s y) (if l.parent y = 0 then x else root)
      (plug (join s a x (join s b y c)) path) := by
  obtain ⟨htu, hpa⟩ := h.turn
  refine ⟨shape_plug.mpr ⟨x, htu.lower, htu.upper hpa⟩, ?_⟩
  rw [inorder_plug, inorder_rotate, ← inorder_plug]
  exact h.nodup

lemma Holds.child_rotate_eq_zero (hqx : q ≠ x) (hqy : q ≠ y) (t : Side) :
    (l.rotate s y).child t q = 0 ↔ l.child t q = 0 := by
  obtain ⟨htu, hpa⟩ := h.turn
  have hx : x ≠ 0 := htu.nodes x mem_cons_self
  have hy : y ≠ 0 := htu.nodes y (mem_cons_of_mem _ mem_cons_self)
  have hpr := htu.parent
  rw [child_rotate, htu.child, if_neg (by tauto), if_neg (by tauto)]
  by_cases htp : l.parent y ≠ 0 ∧ t = l.sideOf s y ∧ q = l.parent y
  · -- the node above: it had `y` there and now has `x`
    rw [if_pos htp]
    obtain ⟨htp, rfl, rfl⟩ := htp
    cases path with
    | nil => exact absurd hpr htp
    | cons f path =>
      have hyo : y ∉ inorder f.other := by
        have hm := (nodup_cons.mp (nodup_cons.mp htu.nodup).2).1
        intro hyo
        exact hm (by simp [pathNodes, hyo])
      rw [hpa.sideOf hpr hy hyo, hpr]
      show x = 0 ↔ l.child f.side f.node = 0
      rw [hpa.2.2.1]
      exact iff_of_false hx hy
  · rw [if_neg htp]

end

end Nt61.Lib.LinkedTree
