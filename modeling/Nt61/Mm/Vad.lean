/-
Vad — the tree of virtual address descriptors of `mm/vad.rs`: insertion and lookup.

What would dereference null, overflow or never end gives `none`. `insert` starts to rebalance at the
parent of the new entry, so that the balance factors do not count heights; what they do say is that
a node with factor −1 or +1 has a child on that side (`Leans`), and this is what the rotations need.
-/
import Nt61.Lib.LinkedTree
import Nt61.Lib.Checked
import Nt61.Lib.Run
import Mathlib.Data.List.Pairwise

namespace Nt61.Vad

open Lib Lib.Checked Lib.LinkedTree Function
open Option hiding or_self
open List hiding after

/-! ## The code -/

def STATUS_UNSUCCESSFUL : Nat := 0xC0000001

/-- The balance factor of a node with one level more on that side. -/
def sign : Side → Int
  | .left => -1
  | .right => 1

structure VadTree where
  root : Nat
  nodeCount : Nat
  links : Links
  startingVpn : Nat → Nat
  endingVpn : Nat → Nat
  balanceFactor : Nat → Int

namespace VadTree

variable (t : VadTree)

def left (p : Nat) : Nat := t.links.child .left p

def setBalance (p : Nat) (b : Int) : VadTree :=
  { t with balanceFactor := update t.balanceFactor p b }

/-- `VadEntry::new` with its range set. -/
def fresh (vad startingVpn endingVpn : Nat) : VadTree :=
  { t with
    links := ((t.links.setParent vad 0).setChild .left vad 0).setChild .right vad 0
    startingVpn := update t.startingVpn vad startingVpn
    endingVpn := update t.endingVpn vad endingVpn
    balanceFactor := update t.balanceFactor vad 0 }

/-- The child `x` of `y` on that side takes the place of `y`. -/
def rotate (s : Side) (y : Nat) : Option VadTree :=
  let x := t.links.child s y
  if y = 0 ∨ x = 0 then none
  else some
    { t with
      root := if t.links.parent y = 0 then x else t.root
      links := t.links.rotate s y
      balanceFactor := update (update t.balanceFactor y 0) x 0 }

def rotateRight (y : Nat) : Option VadTree := t.rotate .left y

def rotateLeft (x : Nat) : Option VadTree := t.rotate .right x

def rotateTwice (s : Side) (node : Nat) : Option VadTree :=
  let child := t.links.child s node
  if node = 0 ∨ child = 0 then none
  else do
    let oldChildBalance := t.balanceFactor child
    let t ← t.rotate s.flip child
    let t ← t.rotate s node
    some (if oldChildBalance = sign s then t.setBalance node (-sign s) else t)

def rotateLeftRight (node : Nat) : Option VadTree := t.rotateTwice .left node

def rotateRightLeft (node : Nat) : Option VadTree := t.rotateTwice .right node

/-- `self.balance_factor -= 1` or `+= 1`, in an `i8`. -/
def addBalance (p : Nat) (d : Int) : Option VadTree := do
  let b ← addSigned 8 (t.balanceFactor p) d
  some (t.setBalance p b)

def rebalanceInsert : Nat → Nat → VadTree → Option VadTree
  | 0, _, _ => none
  | rounds + 1, node, t =>
    let parent := t.links.parent node
    if parent = 0 then some t
    else do
      let t ← t.addBalance parent (if node = t.left parent then -1 else 1)
      let newBalance := t.balanceFactor parent
      if newBalance = 0 then some t
      else if newBalance = -2 then
        let leftChild := t.links.child .left parent
        if leftChild ≠ 0 ∧ t.balanceFactor leftChild ≤ 0 then t.rotateRight parent
        else t.rotateLeftRight parent
      else if newBalance = 2 then
        let rightChild := t.links.child .right parent
        if rightChild ≠ 0 ∧ t.balanceFactor rightChild ≥ 0 then t.rotateLeft parent
        else t.rotateRightLeft parent
      else rebalanceInsert rounds parent t

/-- More rounds than this no loop over a tree has. -/
def rounds : Nat := t.nodeCount + 1

/-- The entries of two ranges of pages meet. -/
def overlaps (vad current : Nat) : Prop :=
  t.startingVpn vad ≤ t.endingVpn current ∧ t.endingVpn vad ≥ t.startingVpn current

instance (vad current : Nat) : Decidable (t.overlaps vad current) :=
  inferInstanceAs (Decidable (_ ∧ _))

/-- The loop of `insert`: the node and the side where the entry goes, unless it overlaps. -/
def findPlace (vad : Nat) : Nat → Nat → Option (Option (Nat × Side))
  | 0, _ => none
  | rounds + 1, current =>
    if current = 0 then none
    else if t.overlaps vad current then some none
    else
      let side := if t.startingVpn vad < t.startingVpn current then .left else .right
      if t.links.child side current = 0 then some (some (current, side))
      else findPlace vad rounds (t.links.child side current)

def insertRoot (vad : Nat) : VadTree :=
  { t with
    root := vad
    links := ((t.links.setParent vad 0).setChild .left vad 0).setChild .right vad 0
    balanceFactor := update t.balanceFactor vad 0
    nodeCount := (t.nodeCount + 1) % 2 ^ 64 }

/-- The entry becomes a child of a node. -/
def attach (vad current : Nat) (side : Side) : VadTree :=
  { t with
    links := (t.links.setChild side current vad).setParent vad current
    balanceFactor := update t.balanceFactor vad 0
    nodeCount := (t.nodeCount + 1) % 2 ^ 64 }

def insert (vad : Nat) : Option (Except Nat Unit × VadTree) :=
  if t.root = 0 then some (.ok (), t.insertRoot vad)
  else do
    match ← t.findPlace vad t.rounds t.root with
    | none => some (.error STATUS_UNSUCCESSFUL, t)
    | some (current, side) =>
      let t := t.attach vad current side
      let parent := t.links.parent vad
      if parent = 0 then some (.ok (), t)
      else (t.rebalanceInsert t.rounds parent).map fun t => (.ok (), t)

def findLoop (vpn : Nat) : Nat → Nat → Option (Option Nat)
  | 0, _ => none
  | rounds + 1, current =>
    if current = 0 then some none
    else if vpn < t.startingVpn current then findLoop vpn rounds (t.links.child .left current)
    else if vpn > t.endingVpn current then findLoop vpn rounds (t.links.child .right current)
    else some (some current)

def find (addr : Nat) : Option (Option Nat) := t.findLoop (addr >>> 12) (t.rounds + 1) t.root

end VadTree

open VadTree

/-! ## Rotations and rebalancing -/

/-- A factor other than 0 has a child on its side. -/
def Leans (t : VadTree) (q : Nat) : Prop :=
  t.balanceFactor q = 0 ∨ ∃ s, t.balanceFactor q = sign s ∧ t.links.child s q ≠ 0

structure SameEntries (t t' : VadTree) : Prop where
  startingVpn : t'.startingVpn = t.startingVpn
  endingVpn : t'.endingVpn = t.endingVpn
  nodeCount : t'.nodeCount = t.nodeCount

lemma SameEntries.refl (t : VadTree) : SameEntries t t := ⟨rfl, rfl, rfl⟩

lemma SameEntries.trans {t1 t2 t3 : VadTree} (h12 : SameEntries t1 t2) (h23 : SameEntries t2 t3) :
    SameEntries t1 t3 :=
  ⟨h23.startingVpn.trans h12.startingVpn, h23.endingVpn.trans h12.endingVpn,
    h23.nodeCount.trans h12.nodeCount⟩

section

variable {t t' : VadTree} {s : Side} {a b c : BinaryTree Nat} {x y z q : Nat} {path : List Frame}

lemma sign_left : sign .left = -1 := rfl

lemma sign_right : sign .right = 1 := rfl

lemma sign_flip (s : Side) : sign s.flip = -sign s := by cases s <;> rfl

lemma sign_ne_zero (s : Side) : sign s ≠ 0 := by cases s <;> decide

lemma rotate_spec (h : Holds t.links t.root (plug (join s (join s a x b) y c) path)) :
    ∃ t', t.rotate s y = some t' ∧
      Holds t'.links t'.root (plug (join s a x (join s b y c)) path) ∧ SameEntries t t' ∧
      t'.balanceFactor x = 0 ∧ t'.balanceFactor y = 0 ∧
      ∀ q, q ≠ x → q ≠ y → Leans t q → Leans t' q := by
  have htu := h.turn.1
  have hx : x ≠ 0 := htu.nodes x mem_cons_self
  have hy : y ≠ 0 := htu.nodes y (mem_cons_of_mem _ mem_cons_self)
  have hxy := htu.ne.1
  unfold VadTree.rotate
  simp only [htu.child, hx, hy]
  refine ⟨_, rfl, h.rotate, ⟨rfl, rfl, rfl⟩, update_self _ _ _, ?_, ?_⟩
  · show update (update t.balanceFactor y 0) x 0 y = 0
    rw [update_of_ne (Ne.symm hxy), update_self]
  intro q hqx hqy hln
  have hs : update (update t.balanceFactor y 0) x 0 q = t.balanceFactor q := by
    rw [update_of_ne hqx, update_of_ne hqy]
  rcases hln with h0 | ⟨side, hsi, hcd⟩
  · exact .inl (hs.trans h0)
  · exact .inr ⟨side, hs.trans hsi, fun hnu => hcd ((h.child_rotate_eq_zero hqx hqy side).mp hnu)⟩

lemma join_flip (s : Side) (a b : BinaryTree Nat) (q : Nat) : join s.flip a q b = join s b q a := by
  cases s <;> rfl

lemma node_eq_join (s : Side) (q : Nat) (a b : BinaryTree Nat) :
    ∃ a' b', BinaryTree.node q a b = join s a' q b' := by
  cases s with
  | left => exact ⟨a, b, rfl⟩
  | right => exact ⟨b, a, rfl⟩

/-- What a change of the tree in memory keeps: the nodes in their order, their ranges and the count;
afterwards all nodes lean as they should. -/
structure Keeps (t : VadTree) (nodes : List Nat) (t' : VadTree) (tree' : BinaryTree Nat) : Prop where
  holds : Holds t'.links t'.root tree'
  inorder : inorder tree' = nodes
  same : SameEntries t t'
  leans : ∀ q ∈ nodes, Leans t' q

lemma Leans.of_zero (h : t.balanceFactor q = 0) : Leans t q := .inl h

lemma rotate_keeps (h : Holds t.links t.root (plug (join s (join s a x b) y c) path))
    (hln : ∀ q ∈ inorder (plug (join s (join s a x b) y c) path), q ≠ x → q ≠ y → Leans t q) :
    ∃ t' tree', t.rotate s y = some t' ∧
      Keeps t (inorder (plug (join s (join s a x b) y c) path)) t' tree' := by
  obtain ⟨t', hrt, hho, hs, hx, hy, hot⟩ := rotate_spec h
  refine ⟨t', _, hrt, hho, ?_, hs, fun q hq => ?_⟩
  · rw [inorder_plug, inorder_rotate, ← inorder_plug]
  by_cases hqx : q = x
  · exact .of_zero (hqx ▸ hx)
  by_cases hqy : q = y
  · exact .of_zero (hqy ▸ hy)
  · exact hot q hqx hqy (hln q hq hqx hqy)

lemma rotateTwice_keeps {d : BinaryTree Nat}
    (h : Holds t.links t.root (plug (join s (join s a x (join s b z c)) y d) path))
    (hbl : t.balanceFactor x = sign s.flip)
    (hln : ∀ q ∈ inorder (plug (join s (join s a x (join s b z c)) y d) path), q ≠ y → Leans t q) :
    ∃ t' tree', t.rotateTwice s y = some t' ∧
      Keeps t (inorder (plug (join s (join s a x (join s b z c)) y d) path)) t' tree' := by
  -- below `y`, the child of `x` on the other side is lifted
  have hin : plug (join s (join s a x (join s b z c)) y d) path
      = plug (join s.flip (join s.flip c z b) x a) (⟨s, y, d⟩ :: path) := by
    simp only [join_flip, plug]
  rw [hin] at h hln ⊢
  obtain ⟨htu, hpa⟩ := h.turn
  have hy : y ≠ 0 := hpa.1
  have hcd : t.links.child s y = x := hpa.2.2.1
  have hx' : x ≠ 0 := htu.nodes x (mem_cons_of_mem _ mem_cons_self)
  obtain ⟨t1, hrotate1, hholds1, hsame1, _, hx, hot⟩ := rotate_spec h
  -- then `y` goes down
  have hor : plug (join s.flip c z (join s.flip b x a)) (⟨s, y, d⟩ :: path)
      = plug (join s (join s (join s a x b) z c) y d) path := by
    simp only [join_flip, plug]
  rw [hor] at hholds1
  have hns : inorder (plug (join s (join s (join s a x b) z c) y d) path)
      = inorder (plug (join s.flip (join s.flip c z b) x a) (⟨s, y, d⟩ :: path)) := by
    rw [← hor, inorder_plug, inorder_rotate, ← inorder_plug]
  have hleans1 : ∀ q ∈ inorder (plug (join s (join s (join s a x b) z c) y d) path),
      q ≠ z → q ≠ y → Leans t1 q := by
    intro q hq hqz hqy
    by_cases hqx : q = x
    · exact .of_zero (hqx ▸ hx)
    · exact hot q hqz hqx (hln q (hns ▸ hq) hqy)
  obtain ⟨t2, tree2, hrotate2, hkp⟩ := rotate_keeps hholds1 hleans1
  rw [hns] at hkp
  refine ⟨t2, tree2, ?_, hkp.holds, hkp.inorder, hsame1.trans hkp.same, hkp.leans⟩
  -- the factor of the child was that of the other side, so nothing is corrected
  have hold : ¬ t.balanceFactor x = sign s := by
    rw [hbl, sign_flip]
    have := sign_ne_zero s
    omega
  unfold rotateTwice
  simp only [hcd, hy, hx', or_self, if_false, hrotate1, hrotate2, hold, bind_eq_bind,
    bind_some]

lemma settle_keeps (h : Holds t.links t.root (plug (join s (.node x a b) y c) path))
    (hln : ∀ q ∈ inorder (plug (join s (.node x a b) y c) path), q ≠ y → Leans t q) :
    ∃ t' tree', (if t.links.child s y ≠ 0 ∧ 0 ≤ sign s * t.balanceFactor (t.links.child s y) then
        t.rotate s y else t.rotateTwice s y) = some t' ∧
      Keeps t (inorder (plug (join s (.node x a b) y c) path)) t' tree' := by
  obtain ⟨a', b', hjo⟩ := node_eq_join s x a b
  rw [hjo] at h hln ⊢
  have htu := h.turn.1
  have hx : x ≠ 0 := htu.nodes x mem_cons_self
  rw [htu.child]
  by_cases hsi : 0 ≤ sign s * t.balanceFactor x
  · rw [if_pos ⟨hx, hsi⟩]
    exact rotate_keeps h fun q hq _ hqy => hln q hq hqy
  rw [if_neg fun hbt => hsi hbt.2]
  -- the child leans to the other side, where it has a child of its own
  have hm : x ∈ inorder (plug (join s (join s a' x b') y c) path) := by
    rw [(plug_perm _ _).mem_iff, mem_append, (inorder_join_perm _ _ _ _).mem_iff,
      mem_cons, mem_append, (inorder_join_perm _ _ _ _).mem_iff]
    simp
  obtain ⟨hbl, hcd⟩ : t.balanceFactor x = sign s.flip ∧ t.links.child s.flip x ≠ 0 := by
    rcases hln x hm htu.ne.1 with h0 | ⟨side, hsg, hcd⟩
    · rw [h0, Int.mul_zero] at hsi
      exact absurd (le_refl _) hsi
    rcases Side.eq_or_eq_flip side s with rfl | rfl
    · rw [hsg] at hsi
      cases side <;> exact absurd (by decide) hsi
    · exact ⟨hsg, hcd⟩
  cases b' with
  | nil => exact absurd htu.shapes.2.1 hcd
  | node z l r =>
    obtain ⟨_, _, hjo'⟩ := node_eq_join s z l r
    rw [hjo'] at h hln ⊢
    exact rotateTwice_keeps h hbl hln

lemma leans_setBalance {b : Int} (hq : q ≠ y) (h : Leans t q) : Leans (t.setBalance y b) q := by
  have hs : (t.setBalance y b).balanceFactor q = t.balanceFactor q := update_of_ne hq _ _
  rcases h with h0 | ⟨side, hsi, hcd⟩
  · exact .inl (hs.trans h0)
  · exact .inr ⟨side, hs.trans hsi, hcd⟩

lemma balance_side {node parent : Nat} (hpr : t.links.parent node = parent)
    (hsi : t.links.sideOf .left node = s) :
    (if node = t.left parent then (-1 : Int) else 1) = sign s := by
  rw [← hsi, ← hpr]
  unfold Links.sideOf left
  by_cases h : t.links.child .left (t.links.parent node) = node
  · rw [if_pos h, if_pos h.symm]
    rfl
  · rw [if_neg h, if_neg (Ne.symm h)]
    rfl

lemma Leans.addBalance (h : Leans t q) (s : Side) :
    t.addBalance q (sign s) = some (t.setBalance q (t.balanceFactor q + sign s)) := by
  have hfi : -2 ^ (8 - 1) ≤ t.balanceFactor q + sign s ∧
      t.balanceFactor q + sign s < 2 ^ (8 - 1) := by
    rcases h with h0 | ⟨side, hsi, -⟩
    · rw [h0]
      cases s <;> decide
    · rw [hsi]
      cases s <;> cases side <;> decide
  unfold VadTree.addBalance addSigned
  rw [if_pos hfi]
  rfl

lemma rebalanceInsert_succ {node parent rounds : Nat} (hpr : t.links.parent node = parent)
    (hne : parent ≠ 0) (hsi : t.links.sideOf .left node = s) (hln : Leans t parent)
    (ht' : t' = t.setBalance parent (t.balanceFactor parent + sign s)) :
    t.rebalanceInsert (rounds + 1) node = if t'.balanceFactor parent = 0 then some t'
      else if t'.balanceFactor parent = 2 * sign s then
        if t'.links.child s parent ≠ 0 ∧ 0 ≤ sign s * t'.balanceFactor (t'.links.child s parent) then
          t'.rotate s parent else t'.rotateTwice s parent
      else t'.rebalanceInsert rounds parent := by
  have hw : t'.balanceFactor parent = t.balanceFactor parent + sign s := by
    rw [ht']
    exact update_self _ _ _
  have hold : t.balanceFactor parent = -1 ∨ t.balanceFactor parent = 0 ∨ t.balanceFactor parent = 1 := by
    rcases hln with h0 | ⟨side, hsi, -⟩
    · exact .inr (.inl h0)
    cases side with
    | left => exact .inl hsi
    | right => exact .inr (.inr hsi)
  rw [rebalanceInsert]
  simp only [hpr, if_neg hne, balance_side hpr hsi, hln.addBalance, ← ht',
    bind_eq_bind, bind_some]
  by_cases h0 : t'.balanceFactor parent = 0
  · rw [if_pos h0, if_pos h0]
  rw [if_neg h0, if_neg h0]
  cases s with
  | left =>
    have hrt : ¬ t'.balanceFactor parent = 2 := by
      rw [hw, sign_left]
      omega
    rw [if_neg hrt]
    refine if_congr Iff.rfl (if_congr (and_congr_right fun _ => ?_) rfl rfl) rfl
    rw [sign_left]
    omega
  | right =>
    have hlf : ¬ t'.balanceFactor parent = -2 := by
      rw [hw, sign_right]
      omega
    rw [if_neg hlf]
    refine if_congr Iff.rfl (if_congr (and_congr_right fun _ => ?_) rfl rfl) rfl
    rw [sign_right]
    omega

lemma join_eq_node (s : Side) (a : BinaryTree Nat) (q : Nat) (b : BinaryTree Nat) :
    ∃ a' b', join s a q b = .node q a' b' := by
  cases s with
  | left => exact ⟨a, b, rfl⟩
  | right => exact ⟨b, a, rfl⟩

lemma rebalanceInsert_keeps {node rounds : Nat}
    (h : Holds t.links t.root (plug (.node node a b) path))
    (hln : ∀ q ∈ inorder (plug (.node node a b) path), Leans t q)
    (hrs : path.length < rounds) : ∃ t' tree', t.rebalanceInsert rounds node = some t' ∧
      Keeps t (inorder (plug (.node node a b) path)) t' tree' := by
  induction path generalizing t node a b rounds with
  | nil =>
    obtain ⟨rounds, rfl⟩ := Nat.exists_eq_succ_of_ne_zero (by omega : rounds ≠ 0)
    obtain ⟨-, -, hpr, -⟩ := h.shape
    exact ⟨t, _, if_pos hpr, h, rfl, .refl t, hln⟩
  | cons f path ih =>
    obtain ⟨rounds, rfl⟩ := Nat.exists_eq_succ_of_ne_zero (by omega : rounds ≠ 0)
    obtain ⟨p, hsb, hpa⟩ := shape_plug.mp h.shape
    obtain ⟨rfl, hno, hpr, -⟩ := hsb
    have hpr' : t.links.parent p = f.node := hpr
    have hap : p ∉ inorder f.other := fun hm =>
      disjoint_of_nodup_append ((plug_perm _ _).nodup_iff.mp h.nodup)
        (mem_append_right _ mem_cons_self)
        (mem_cons_of_mem _ (mem_append_left _ hm))
    have hm : f.node ∈ inorder (plug (.node p a b) (f :: path)) := by
      rw [(plug_perm _ _).mem_iff]
      exact mem_append_right _ mem_cons_self
    have hold := hln f.node hm
    obtain ⟨t1, ht1⟩ : ∃ t1, t1 = t.setBalance f.node (t.balanceFactor f.node + sign f.side) :=
      ⟨_, rfl⟩
    rw [rebalanceInsert_succ hpr' hpa.1 (hpa.sideOf hpr' hno hap) hold ht1]
    have hw : t1.balanceFactor f.node = t.balanceFactor f.node + sign f.side := by
      rw [ht1]
      exact update_self _ _ _
    have hlk : t1.links = t.links := by rw [ht1]; rfl
    have hsame1 : SameEntries t t1 := by
      rw [ht1]
      exact ⟨rfl, rfl, rfl⟩
    have h1 : Holds t1.links t1.root (plug (join f.side (.node p a b) f.node f.other) path) := by
      rw [ht1]
      exact h
    have hot : ∀ q ∈ inorder (plug (.node p a b) (f :: path)), q ≠ f.node → Leans t1 q := by
      intro q hq hqf
      rw [ht1]
      exact leans_setBalance hqf (hln q hq)
    have ha : Leans t1 f.node → ∀ q ∈ inorder (plug (.node p a b) (f :: path)), Leans t1 q := by
      intro hno' q hq
      by_cases hqf : q = f.node
      · exact hqf ▸ hno'
      · exact hot q hq hqf
    rcases hold with h0 | ⟨side, hsg, hkd⟩
    · -- the parent was level: it leans to this side now, and the loop goes on
      rw [h0, Int.zero_add] at hw
      have hno' : Leans t1 f.node := by
        refine .inr ⟨f.side, hw, ?_⟩
        rw [hlk, hpa.2.2.1]
        exact hno
      have hso : ¬ t1.balanceFactor f.node = 0 ∧ ¬ t1.balanceFactor f.node = 2 * sign f.side := by
        rw [hw]
        cases f.side <;> decide
      rw [if_neg hso.1, if_neg hso.2]
      obtain ⟨a', b', hjo⟩ := join_eq_node f.side (.node p a b) f.node f.other
      rw [hjo] at h1
      have hleans1 : ∀ q ∈ inorder (plug (.node f.node a' b') path), Leans t1 q := by
        rw [← hjo]
        exact ha hno'
      obtain ⟨t', tree', heq, hkp⟩ := ih h1 hleans1 (Nat.lt_of_succ_lt_succ hrs)
      rw [← hjo] at hkp
      exact ⟨t', tree', heq, hkp.holds, hkp.inorder, hsame1.trans hkp.same, hkp.leans⟩
    rcases Side.eq_or_eq_flip side f.side with rfl | rfl
    · -- it leans too far
      have hso : ¬ t1.balanceFactor f.node = 0 ∧ t1.balanceFactor f.node = 2 * sign f.side := by
        rw [hw, hsg]
        cases f.side <;> decide
      rw [if_neg hso.1, if_pos hso.2]
      obtain ⟨t', tree', heq, hkp⟩ := settle_keeps h1 hot
      exact ⟨t', tree', heq, hkp.holds, hkp.inorder, hsame1.trans hkp.same, hkp.leans⟩
    -- it leaned to the other side and is level now
    have hlv : t1.balanceFactor f.node = 0 := by rw [hw, hsg, sign_flip, Int.add_left_neg]
    rw [if_pos hlv]
    exact ⟨t1, _, rfl, h1, rfl, hsame1, ha (.of_zero hlv)⟩

end

/-! ## Insertion -/

/-- The entry `a` ends before `b` starts. -/
def Before (t : VadTree) (a b : Nat) : Prop := t.endingVpn a < t.startingVpn b

structure Inv (t : VadTree) (tree : BinaryTree Nat) : Prop where
  holds : Holds t.links t.root tree
  leans : ∀ q ∈ inorder tree, Leans t q
  sorted : (inorder tree).Pairwise (Before t)
  ranges : ∀ q ∈ inorder tree, t.startingVpn q ≤ t.endingVpn q
  count : t.nodeCount = (inorder tree).length

section

variable {t : VadTree} {tree sub a b : BinaryTree Nat} {path : List Frame} {vad p q : Nat}

lemma sorted_node {R : Nat → Nat → Prop} (h : (inorder (plug (.node q a b) path)).Pairwise R) :
    (∀ x ∈ inorder a, R x q) ∧ ∀ x ∈ inorder b, R q x := by
  rw [inorder_plug, pairwise_append, pairwise_append] at h
  have hno : (inorder a ++ q :: inorder b).Pairwise R := h.1.2.1
  rw [pairwise_append, pairwise_cons] at hno
  exact ⟨fun x hx => hno.2.2 x hx q mem_cons_self, hno.2.1.1⟩

/-- The entry belongs at this place: what comes before ends before it, what comes after starts after
it. -/
structure Belongs (t : VadTree) (vad : Nat) (path : List Frame) : Prop where
  before : ∀ q ∈ before path, Before t q vad
  after : ∀ q ∈ after path, Before t vad q

lemma Belongs.left (h : Belongs t vad path) (hq : Before t vad q)
    (hb : ∀ x ∈ inorder b, Before t vad x) : Belongs t vad (⟨.left, q, b⟩ :: path) := by
  refine ⟨fun x hx => h.before x ?_, fun x hx => ?_⟩
  · rcases mem_append.mp hx with hx | hx
    · exact hx
    · cases hx
  rcases mem_append.mp hx with hx | hx
  · rcases mem_cons.mp hx with rfl | hx
    · exact hq
    · exact hb x hx
  · exact h.after x hx

lemma Belongs.right (h : Belongs t vad path) (hq : Before t q vad)
    (ha : ∀ x ∈ inorder a, Before t x vad) : Belongs t vad (⟨.right, q, a⟩ :: path) := by
  refine ⟨fun x hx => ?_, fun x hx => h.after x ?_⟩
  · rcases mem_append.mp hx with hx | hx
    · exact h.before x hx
    rcases mem_append.mp hx with hx | hx
    · exact ha x hx
    · rw [mem_singleton.mp hx]
      exact hq
  rcases mem_append.mp hx with hx | hx
  · cases hx
  · exact hx

lemma nil_of_shape {l : Links} {par : Nat} (h : Shape l par p sub) (hp : p = 0) : sub = .nil := by
  cases sub with
  | nil => rfl
  | node q a b => exact absurd (h.1.symm.trans hp) h.2.1

lemma length_inorder_node (p : Nat) (a b : BinaryTree Nat) :
    (inorder (.node p a b)).length = (inorder a).length + (inorder b).length + 1 := by
  show (inorder a ++ p :: inorder b).length = _
  rw [length_append, length_cons]
  omega

lemma findPlace_spec {rounds : Nat} (hsh : Shape t.links (above path) p sub) (hp : p ≠ 0)
    (hsr : (inorder (plug sub path)).Pairwise (Before t))
    (hrg : ∀ q ∈ inorder sub, t.startingVpn q ≤ t.endingVpn q)
    (hvd : t.startingVpn vad ≤ t.endingVpn vad) (hpl : Belongs t vad path)
    (hrs : (inorder sub).length ≤ rounds) :
    (t.findPlace vad rounds p = some none ∧ ∃ q ∈ inorder sub, t.overlaps vad q) ∨
    ∃ f path', t.findPlace vad rounds p = some (some (f.node, f.side)) ∧
      plug sub path = plug .nil (f :: path') ∧ Belongs t vad (f :: path') := by
  induction sub generalizing p path rounds with
  | nil => exact absurd hsh hp
  | node q a b iha ihb =>
    obtain ⟨rfl, -, -, ha, hb⟩ := hsh
    have hm : p ∈ inorder (.node p a b) := mem_append_right _ mem_cons_self
    obtain ⟨hlf, hrt⟩ := sorted_node hsr
    have hl := length_inorder_node p a b
    obtain ⟨rounds, rfl⟩ := Nat.exists_eq_succ_of_ne_zero (by omega : rounds ≠ 0)
    rw [findPlace, if_neg hp]
    by_cases hov : t.overlaps vad p
    · rw [if_pos hov]
      exact .inl ⟨rfl, p, hm, hov⟩
    rw [if_neg hov]
    have hpg := hrg p hm
    unfold overlaps at hov
    by_cases hlt : t.startingVpn vad < t.startingVpn p
    · -- left of the node, so before all that is right of it
      rw [if_pos hlt]
      have hbf : Before t vad p := by
        unfold Before
        omega
      have hpl' : Belongs t vad (⟨.left, p, b⟩ :: path) := by
        refine hpl.left hbf fun x hx => ?_
        have := hrt x hx
        unfold Before at *
        omega
      by_cases hnu : t.links.child .left p = 0
      · obtain rfl := nil_of_shape ha hnu
        exact .inr ⟨⟨.left, p, b⟩, path, if_pos hnu, rfl, hpl'⟩
      simp only [if_neg hnu]
      have ha' : Shape t.links (above (⟨.left, p, b⟩ :: path)) (t.links.child .left p) a := ha
      rcases iha ha' hnu hsr (fun x hx => hrg x (mem_append_left _ hx)) hpl'
        (show (inorder a).length ≤ rounds by omega) with ⟨hfn, x, hx, hxo⟩ | hfn
      · exact .inl ⟨hfn, x, mem_append_left _ hx, hxo⟩
      · exact .inr hfn
    rw [if_neg hlt]
    have hbf : Before t p vad := by
      unfold Before
      omega
    have hpl' : Belongs t vad (⟨.right, p, a⟩ :: path) := by
      refine hpl.right hbf fun x hx => ?_
      have := hlf x hx
      unfold Before at *
      omega
    by_cases hnu : t.links.child .right p = 0
    · obtain rfl := nil_of_shape hb hnu
      exact .inr ⟨⟨.right, p, a⟩, path, if_pos hnu, rfl, hpl'⟩
    simp only [if_neg hnu]
    have hb' : Shape t.links (above (⟨.right, p, a⟩ :: path)) (t.links.child .right p) b := hb
    rcases ihb hb' hnu hsr (fun x hx => hrg x (mem_append_right _ (mem_cons_of_mem _ hx))) hpl'
      (show (inorder b).length ≤ rounds by omega) with ⟨hfn, x, hx, hxo⟩ | hfn
    · exact .inl ⟨hfn, x, mem_append_right _ (mem_cons_of_mem _ hx), hxo⟩
    · exact .inr hfn

lemma Inv.fresh (h : Inv t tree) (hvd : vad ∉ inorder tree) (lo hi : Nat) :
    Inv (t.fresh vad lo hi) tree := by
  have hne : ∀ q ∈ inorder tree, q ≠ vad := by
    rintro q hq rfl
    exact hvd hq
  have hs0 : ∀ q ∈ inorder tree, (t.fresh vad lo hi).startingVpn q = t.startingVpn q :=
    fun q hq => update_of_ne (hne q hq) _ _
  have he : ∀ q ∈ inorder tree, (t.fresh vad lo hi).endingVpn q = t.endingVpn q :=
    fun q hq => update_of_ne (hne q hq) _ _
  have hag : ∀ q ∈ inorder tree, t.links.Agree (t.fresh vad lo hi).links q := by
    intro q hq
    simp [Links.Agree, VadTree.fresh, hne q hq]
  refine ⟨h.holds.congr hag, fun q hq => ?_, ?_, fun q hq => ?_, h.count⟩
  · have hbl : (t.fresh vad lo hi).balanceFactor q = t.balanceFactor q :=
      update_of_ne (hne q hq) _ _
    rcases h.leans q hq with h0 | ⟨side, hsi, hcd⟩
    · exact .inl (hbl.trans h0)
    refine .inr ⟨side, hbl.trans hsi, ?_⟩
    rw [(hag q hq).2]
    exact hcd
  · refine h.sorted.imp_of_mem fun {c d} hc hd hbf => ?_
    unfold Before
    rw [he c hc, hs0 d hd]
    exact hbf
  · rw [hs0 q hq, he q hq]
    exact h.ranges q hq

lemma Inv.attach {f : Frame} (h : Inv t tree) (htr : tree = plug .nil (f :: path))
    (hv : vad ≠ 0) (hw : vad ∉ inorder tree) (hlf : ∀ s, t.links.child s vad = 0)
    (hrg : t.startingVpn vad ≤ t.endingVpn vad) (hpl : Belongs t vad (f :: path))
    (hro : (inorder tree).length + 1 < 2 ^ 64) :
    Inv (t.attach vad f.node f.side) (plug (.node vad .nil .nil) (f :: path)) ∧
      (inorder (plug (.node vad .nil .nil) (f :: path))).Perm (vad :: inorder tree) := by
  have hold : inorder tree = before (f :: path) ++ after (f :: path) := by
    rw [htr, inorder_plug]
    simp [inorder]
  have hns : inorder (plug (.node vad .nil .nil) (f :: path))
      = before (f :: path) ++ vad :: after (f :: path) := by
    rw [inorder_plug]
    simp [inorder]
  have hpm : (inorder (plug (.node vad .nil .nil) (f :: path))).Perm (vad :: inorder tree) := by
    rw [hns, hold]
    exact perm_middle
  have hcs : ∀ q ∈ inorder (plug (.node vad .nil .nil) (f :: path)), q = vad ∨ q ∈ inorder tree :=
    fun q hq => mem_cons.mp (hpm.mem_iff.mp hq)
  refine ⟨⟨?_, fun q hq => ?_, ?_, fun q hq => ?_, ?_⟩, hpm⟩
  · refine Holds.attach (htr ▸ h.holds) hv (fun hm => hw ?_) hlf
    rw [htr, (plug_perm _ _).mem_iff]
    exact hm
  · rcases hcs q hq with rfl | hq'
    · exact .of_zero (update_self _ _ _)
    have hne : q ≠ vad := by
      rintro rfl
      exact hw hq'
    have hbl : (t.attach vad f.node f.side).balanceFactor q = t.balanceFactor q :=
      update_of_ne hne _ _
    rcases h.leans q hq' with h0 | ⟨side, hsi, hcd⟩
    · exact .inl (hbl.trans h0)
    -- a child more, if anything
    refine .inr ⟨side, hbl.trans hsi, ?_⟩
    simp only [VadTree.attach, Links.child_setParent, Links.child_setChild]
    split
    · exact hv
    · exact hcd
  · rw [hns]
    have hsr := h.sorted
    rw [hold, pairwise_append] at hsr
    refine pairwise_append.mpr ⟨hsr.1, pairwise_cons.mpr ⟨hpl.after, hsr.2.1⟩, fun c hc d hd => ?_⟩
    rcases mem_cons.mp hd with rfl | hd
    · exact hpl.before c hc
    · exact hsr.2.2 c hc d hd
  · rcases hcs q hq with rfl | hq'
    · exact hrg
    · exact h.ranges q hq'
  · rw [hpm.length_eq, length_cons, ← h.count]
    exact Nat.mod_eq_of_lt (h.count ▸ hro)

lemma Inv.rebalance {f : Frame} (h : Inv t (plug (.node vad a b) (f :: path))) :
    ∃ t' tree', t.rebalanceInsert t.rounds f.node = some t' ∧ Inv t' tree' ∧
      inorder tree' = inorder (plug (.node vad a b) (f :: path)) ∧ SameEntries t t' := by
  have hl := (plug_perm (.node vad a b) (f :: path)).length_eq
  have hpa := length_path_le (f :: path)
  have hrs : path.length < t.rounds := by
    unfold rounds
    rw [h.count, hl, length_append]
    rw [length_cons] at hpa
    omega
  obtain ⟨a', b', hjo⟩ := join_eq_node f.side (.node vad a b) f.node f.other
  have htr : plug (.node vad a b) (f :: path) = plug (.node f.node a' b') path := by
    rw [← hjo]
    rfl
  rw [htr] at h ⊢
  obtain ⟨t', tree', heq, hkp⟩ := rebalanceInsert_keeps h.holds h.leans hrs
  obtain ⟨hs0, he, hcn⟩ := hkp.same
  refine ⟨t', tree', heq, ⟨hkp.holds, ?_, ?_, ?_, ?_⟩, hkp.inorder, hkp.same⟩
  · rw [hkp.inorder]
    exact hkp.leans
  · rw [hkp.inorder]
    unfold Before
    rw [hs0, he]
    exact h.sorted
  · rw [hkp.inorder, hs0, he]
    exact h.ranges
  · rw [hkp.inorder, hcn]
    exact h.count

lemma Belongs.not_overlaps (h : Belongs t vad path) (hq : q ∈ inorder (plug .nil path)) :
    ¬ t.overlaps vad q := by
  rintro ⟨hlo, hhi⟩
  rw [inorder_plug, inorder, append_nil] at hq
  rcases mem_append.mp hq with hq | hq
  · exact Nat.not_lt.mpr hlo (h.before q hq)
  · exact Nat.not_lt.mpr hhi (h.after q hq)

lemma insert_spec (h : Inv t tree) (hv : vad ≠ 0) (hw : vad ∉ inorder tree)
    (hlf : ∀ s, t.links.child s vad = 0) (hrg : t.startingVpn vad ≤ t.endingVpn vad)
    (hro : (inorder tree).length + 1 < 2 ^ 64) :
    ((∃ q ∈ inorder tree, t.overlaps vad q) ∧ t.insert vad = some (.error STATUS_UNSUCCESSFUL, t)) ∨
    ((∀ q ∈ inorder tree, ¬ t.overlaps vad q) ∧ ∃ t' tree', t.insert vad = some (.ok (), t') ∧
      Inv t' tree' ∧ (inorder tree').Perm (vad :: inorder tree) ∧
      t'.startingVpn = t.startingVpn ∧ t'.endingVpn = t.endingVpn) := by
  unfold VadTree.insert
  by_cases hrt : t.root = 0
  · -- the first entry
    obtain rfl := nil_of_shape h.holds.shape hrt
    rw [if_pos hrt]
    refine .inr ⟨by simp [inorder], _, .node vad .nil .nil, rfl, ⟨⟨⟨rfl, hv, ?_, ?_, ?_⟩, ?_⟩,
      ?_, ?_, ?_, ?_⟩, .refl _, rfl, rfl⟩
    · simp [insertRoot]
    · simp [insertRoot, Shape]
    · simp [insertRoot, Shape]
    · simp [inorder]
    · exact forall_mem_singleton.mpr (.of_zero (update_self _ _ _))
    · exact pairwise_singleton _ _
    · exact forall_mem_singleton.mpr hrg
    show (t.nodeCount + 1) % 2 ^ 64 = 1
    rw [h.count]
    rfl
  rw [if_neg hrt]
  have hem : Belongs t vad [] := ⟨by simp [before], by simp [after]⟩
  have hrs : (inorder tree).length ≤ t.rounds := by
    unfold rounds
    rw [h.count]
    exact Nat.le_succ _
  have hsh : Shape t.links (above []) t.root tree := h.holds.shape
  rcases findPlace_spec hsh hrt h.sorted h.ranges hrg hem hrs with
    ⟨hfn, hov⟩ | ⟨f, path, hfn, htr, hpl⟩
  · exact .inl ⟨hov, by simp only [hfn, bind_eq_bind, bind_some]⟩
  have htr' : tree = plug .nil (f :: path) := htr
  obtain ⟨hi, hpm⟩ := h.attach htr' hv hw hlf hrg hpl hro
  obtain ⟨t', tree', heq, hi', hns, hs⟩ := hi.rebalance
  have hpr : (t.attach vad f.node f.side).links.parent vad = f.node := by simp [VadTree.attach]
  have hf : f.node ≠ 0 := by
    obtain ⟨_, -, hpa⟩ := shape_plug.mp hi.holds.shape
    exact hpa.1
  refine .inr ⟨fun q hq => ?_, t', tree', ?_, hi', hns ▸ hpm, hs.startingVpn, hs.endingVpn⟩
  · exact hpl.not_overlaps (htr' ▸ hq)
  · simp only [hfn, bind_eq_bind, bind_some, hpr, if_neg hf, heq, map_some]

end

/-! ## Lookup -/

def Contains (t : VadTree) (q vpn : Nat) : Prop := t.startingVpn q ≤ vpn ∧ vpn ≤ t.endingVpn q

lemma contains_unique {t : VadTree} {nodes : List Nat} {vpn x q : Nat}
    (hsr : nodes.Pairwise (Before t)) (hx : x ∈ nodes) (hq : q ∈ nodes) (hxv : Contains t x vpn)
    (hqv : Contains t q vpn) : x = q := by
  by_contra hne
  have hap : nodes.Pairwise fun a b => ¬ (Contains t a vpn ∧ Contains t b vpn) := by
    refine hsr.imp ?_
    rintro a b hbf ⟨⟨-, ha⟩, ⟨hb, -⟩⟩
    unfold Before at hbf
    omega
  have hsy : Std.Symm fun a b => ¬ (Contains t a vpn ∧ Contains t b vpn) :=
    ⟨fun a b h hab => h hab.symm⟩
  exact hap.forall hx hq hne ⟨hxv, hqv⟩

lemma findLoop_spec {t : VadTree} {sub : BinaryTree Nat} {par p vpn rounds : Nat}
    (hsh : Shape t.links par p sub) (hsr : (inorder sub).Pairwise (Before t))
    (hrg : ∀ q ∈ inorder sub, t.startingVpn q ≤ t.endingVpn q)
    (hrs : (inorder sub).length < rounds) :
    (∃ q ∈ inorder sub, Contains t q vpn ∧ t.findLoop vpn rounds p = some (some q)) ∨
    (∀ q ∈ inorder sub, ¬ Contains t q vpn) ∧ t.findLoop vpn rounds p = some none := by
  induction sub generalizing par p rounds with
  | nil =>
    obtain ⟨rounds, rfl⟩ := Nat.exists_eq_succ_of_ne_zero (by omega : rounds ≠ 0)
    exact .inr ⟨by simp [inorder], if_pos hsh⟩
  | node q a b iha ihb =>
    obtain ⟨rfl, hp, -, ha, hb⟩ := hsh
    have hno : (inorder a ++ p :: inorder b).Pairwise (Before t) := hsr
    rw [pairwise_append, pairwise_cons] at hno
    obtain ⟨hsa, ⟨hrt, hsb⟩, hcr⟩ := hno
    have hl := length_inorder_node p a b
    obtain ⟨rounds, rfl⟩ := Nat.exists_eq_succ_of_ne_zero (by omega : rounds ≠ 0)
    have hm : p ∈ inorder (.node p a b) := mem_append_right _ mem_cons_self
    have hmm : ∀ {x}, x ∈ inorder a → x ∈ inorder (.node p a b) := mem_append_left _
    have hmb : ∀ {x}, x ∈ inorder b → x ∈ inorder (.node p a b) := fun hx =>
      mem_append_right _ (mem_cons_of_mem _ hx)
    have hpg := hrg p hm
    have hcs : ∀ x ∈ inorder (.node p a b), x ∈ inorder a ∨ x = p ∨ x ∈ inorder b := fun x hx =>
      (mem_append.mp hx).imp_right mem_cons.mp
    rw [findLoop, if_neg hp]
    by_cases hlt : vpn < t.startingVpn p
    · rw [if_pos hlt]
      rcases iha ha hsa (fun x hx => hrg x (hmm hx)) (show (inorder a).length < rounds by omega)
        with ⟨x, hx, hfn⟩ | ⟨hn, hfn⟩
      · exact .inl ⟨x, hmm hx, hfn⟩
      refine .inr ⟨fun x hx => ?_, hfn⟩
      rcases hcs x hx with hx | rfl | hx
      · exact hn x hx
      · rintro ⟨hlo, -⟩
        omega
      rintro ⟨hlo, -⟩
      have : t.endingVpn p < t.startingVpn x := hrt x hx
      omega
    rw [if_neg hlt]
    by_cases hgt : vpn > t.endingVpn p
    · rw [if_pos hgt]
      rcases ihb hb hsb (fun x hx => hrg x (hmb hx))
        (show (inorder b).length < rounds by omega) with ⟨x, hx, hfn⟩ | ⟨hn, hfn⟩
      · exact .inl ⟨x, hmb hx, hfn⟩
      refine .inr ⟨fun x hx => ?_, hfn⟩
      rcases hcs x hx with hx | rfl | hx
      · rintro ⟨-, hhi⟩
        have : t.endingVpn x < t.startingVpn p := hcr x hx p mem_cons_self
        omega
      · rintro ⟨-, hhi⟩
        omega
      · exact hn x hx
    · rw [if_neg hgt]
      exact .inl ⟨p, hm, ⟨by omega, by omega⟩, rfl⟩

/-! ## Runs -/

/-- A new entry at an address, with its range of pages. -/
structure Request where
  vad : Nat
  startingVpn : Nat
  endingVpn : Nat
  deriving DecidableEq, Repr

structure State where
  tree : VadTree
  inserted : List Request

/-- `VadTree::new`, over memory with any contents. -/
def start (memory : VadTree) : State := ⟨{ memory with root := 0, nodeCount := 0 }, []⟩

/-- An entry with a range, at an address that no entry of the tree has. -/
def allowed (s : State) (r : Request) : Prop :=
  r.vad ≠ 0 ∧ r.vad < 2 ^ 64 ∧ r.startingVpn ≤ r.endingVpn ∧ ∀ i ∈ s.inserted, i.vad ≠ r.vad

instance (s : State) (r : Request) : Decidable (allowed s r) :=
  inferInstanceAs (Decidable (_ ∧ _ ∧ _ ∧ _))

/-- The call of `insert` with a fresh entry. -/
def insertFresh (t : VadTree) (r : Request) : Option (Except Nat Unit × VadTree) :=
  (t.fresh r.vad r.startingVpn r.endingVpn).insert r.vad

def step (r : Request) (s : State) : Option State := do
  let (result, tree) ← insertFresh s.tree r
  match result with
  | .ok () => some ⟨tree, r :: s.inserted⟩
  | .error _ => some ⟨tree, s.inserted⟩

structure Follows (s : State) (tree : BinaryTree Nat) : Prop where
  inv : Inv s.tree tree
  nodes : (inorder tree).Perm (s.inserted.map Request.vad)
  entries : ∀ r ∈ s.inserted, r.vad < 2 ^ 64 ∧ s.tree.startingVpn r.vad = r.startingVpn ∧
    s.tree.endingVpn r.vad = r.endingVpn

section

variable {s s' : State} {tree : BinaryTree Nat} {r : Request}

lemma follows_start (memory : VadTree) : Follows (start memory) .nil where
  inv := ⟨holds_nil _, by simp [inorder], List.Pairwise.nil, by simp [inorder], rfl⟩
  nodes := .refl _
  entries := by simp [start]

abbrev State.entered (s : State) (r : Request) : VadTree :=
  s.tree.fresh r.vad r.startingVpn r.endingVpn

section

variable (h : Follows s tree) (hr : allowed s r)
include h hr

lemma Follows.notMem : r.vad ∉ inorder tree := by
  intro hm
  obtain ⟨i, hi, heq⟩ := mem_map.mp (h.nodes.mem_iff.mp hm)
  exact hr.2.2.2 i hi heq

lemma Follows.room : (inorder tree).length + 1 < 2 ^ 64 := by
  have h0 : (0 : Nat) ∉ r.vad :: inorder tree := by
    intro hm
    rcases mem_cons.mp hm with heq | hm
    · exact hr.1 heq.symm
    · exact h.inv.holds.shape.ne_zero hm rfl
  have hnd : (0 :: r.vad :: inorder tree).Nodup :=
    nodup_cons.mpr ⟨h0, nodup_cons.mpr ⟨h.notMem hr, h.inv.holds.nodup⟩⟩
  have hsb : 0 :: r.vad :: inorder tree ⊆ List.range (2 ^ 64) := by
    intro q hq
    rw [mem_range]
    rcases mem_cons.mp hq with rfl | hq
    · exact Nat.two_pow_pos 64
    rcases mem_cons.mp hq with rfl | hq
    · exact hr.2.1
    · obtain ⟨i, hi, rfl⟩ := mem_map.mp (h.nodes.mem_iff.mp hq)
      exact (h.entries i hi).1
  have hl := (subperm_of_subset hnd hsb).length_le
  rw [length_range, length_cons, length_cons] at hl
  omega

lemma Follows.entries_fresh {i : Request} (hi : i ∈ s.inserted) :
    (s.entered r).startingVpn i.vad = i.startingVpn ∧ (s.entered r).endingVpn i.vad = i.endingVpn := by
  have hne := hr.2.2.2 i hi
  obtain ⟨-, hs0, he⟩ := h.entries i hi
  exact ⟨(update_of_ne hne _ _).trans hs0, (update_of_ne hne _ _).trans he⟩

def Meets (t : VadTree) (r : Request) (q : Nat) : Prop :=
  r.startingVpn ≤ t.endingVpn q ∧ t.startingVpn q ≤ r.endingVpn

lemma Follows.insertFresh : ((∃ q ∈ inorder tree, Meets s.tree r q) ∧ insertFresh s.tree r
      = some (.error STATUS_UNSUCCESSFUL, s.entered r) ∧ Follows ⟨s.entered r, s.inserted⟩ tree) ∨
    ((∀ q ∈ inorder tree, ¬ Meets s.tree r q) ∧ ∃ t' tree', insertFresh s.tree r = some (.ok (), t') ∧
      Follows ⟨t', r :: s.inserted⟩ tree') := by
  have hw := h.notMem hr
  have hfr := h.inv.fresh hw r.startingVpn r.endingVpn
  have hlf : ∀ side, (s.entered r).links.child side r.vad = 0 := by
    intro side
    cases side <;> simp [fresh]
  have hs0 : (s.entered r).startingVpn r.vad = r.startingVpn := update_self _ _ _
  have he : (s.entered r).endingVpn r.vad = r.endingVpn := update_self _ _ _
  have hmt : ∀ q ∈ inorder tree, (s.entered r).overlaps r.vad q ↔ Meets s.tree r q := by
    intro q hq
    have hne : q ≠ r.vad := by
      rintro rfl
      exact hw hq
    unfold overlaps Meets
    rw [hs0, he]
    simp only [fresh, update_of_ne hne]
  have hrg : (s.entered r).startingVpn r.vad ≤ (s.entered r).endingVpn r.vad := by
    rw [hs0, he]
    exact hr.2.2.1
  rcases insert_spec hfr hr.1 hw hlf hrg (h.room hr) with
    ⟨⟨q, hq, hov⟩, heq⟩ | ⟨hn, t', tree', heq, hv, hpm, hs⟩
  · refine .inl ⟨⟨q, hq, (hmt q hq).mp hov⟩, heq, hfr, h.nodes, fun i hi => ?_⟩
    exact ⟨(h.entries i hi).1, h.entries_fresh hr hi⟩
  refine .inr ⟨fun q hq hm => hn q hq ((hmt q hq).mpr hm), t', tree', heq, hv,
    hpm.trans (h.nodes.cons _), fun i hi => ?_⟩
  rw [hs.1, hs.2]
  rcases mem_cons.mp hi with rfl | hi
  · exact ⟨hr.2.1, hs0, he⟩
  · exact ⟨(h.entries i hi).1, h.entries_fresh hr hi⟩

end

lemma follows_step (h : ∃ tree, Follows s tree) (hr : allowed s r) (hst : step r s = some s') :
    ∃ tree, Follows s' tree := by
  obtain ⟨tree, h⟩ := h
  obtain ⟨⟨_, _⟩, heq, hs'⟩ := bind_eq_some_iff.mp hst
  rcases h.insertFresh hr with ⟨-, heq', hfl⟩ | ⟨-, t', tree', heq', hfl⟩
  · rw [heq] at heq'
    cases heq'
    cases hs'
    exact ⟨tree, hfl⟩
  rw [heq] at heq'
  cases heq'
  cases hs'
  exact ⟨tree', hfl⟩

end

/-- After any insertions the pointers form a tree of the entries that were inserted, with their
ranges in increasing order and apart. `insert` always returns: an error, with everything as it was,
if the new range meets one of the tree, and otherwise success. `find` returns the entry whose range
has the page of the address. -/
theorem vad_inserts_correct (memory : VadTree) {requests : List Request} {s : State}
    (hrun : Run step allowed (start memory) requests s) :
    ∃ tree, Holds s.tree.links s.tree.root tree ∧ (inorder tree).Perm (s.inserted.map Request.vad) ∧
      (∀ r ∈ s.inserted, s.tree.startingVpn r.vad = r.startingVpn ∧
        s.tree.endingVpn r.vad = r.endingVpn) ∧
      (∀ q ∈ inorder tree, s.tree.startingVpn q ≤ s.tree.endingVpn q) ∧
      (inorder tree).Pairwise (fun a b => s.tree.startingVpn a < s.tree.startingVpn b ∧
        s.tree.endingVpn a < s.tree.startingVpn b) ∧ s.tree.nodeCount = (inorder tree).length ∧
      (∀ r, allowed s r → ((∃ q ∈ inorder tree, Meets s.tree r q) → insertFresh s.tree r
          = some (.error STATUS_UNSUCCESSFUL, s.tree.fresh r.vad r.startingVpn r.endingVpn)) ∧
        ((∀ q ∈ inorder tree, ¬ Meets s.tree r q) →
          ∃ t', insertFresh s.tree r = some (.ok (), t'))) ∧
      ∀ addr, (∀ q ∈ inorder tree, Contains s.tree q (addr >>> 12) →
          s.tree.find addr = some (some q)) ∧
        ((∀ q ∈ inorder tree, ¬ Contains s.tree q (addr >>> 12)) → s.tree.find addr = some none) := by
  obtain ⟨tree, h⟩ := hrun.keeps follows_step ⟨.nil, follows_start memory⟩
  have hsr := h.inv.sorted
  refine ⟨tree, h.inv.holds, h.nodes, fun r hr => (h.entries r hr).2, h.inv.ranges, ?_, h.inv.count,
    fun r hr => ?_, fun addr => ?_⟩
  · refine hsr.imp_of_mem fun {a b} ha _ hbf => ⟨?_, hbf⟩
    exact Nat.lt_of_le_of_lt (h.inv.ranges a ha) hbf
  · rcases h.insertFresh hr with ⟨⟨q, hq, hmt⟩, heq, -⟩ | ⟨hn, t', -, heq, -⟩
    · exact ⟨fun _ => heq, fun hn => absurd hmt (hn q hq)⟩
    · exact ⟨fun ⟨q, hq, hmt⟩ => absurd hmt (hn q hq), fun _ => ⟨t', heq⟩⟩
  have hrs : (inorder tree).length < s.tree.rounds + 1 := by
    unfold rounds
    rw [h.inv.count]
    omega
  rcases @findLoop_spec s.tree tree 0 s.tree.root (addr >>> 12) _ h.inv.holds.shape hsr
    h.inv.ranges hrs with ⟨q, hq, hcn, hfn⟩ | ⟨hn, hfn⟩
  · refine ⟨fun x hx hx' => ?_, fun hn => absurd hcn (hn q hq)⟩
    rw [contains_unique hsr hx hq hx' hcn]
    exact hfn
  · exact ⟨fun x hx hx' => absurd hx' (hn x hx), fun _ => hfn⟩

/-- Three entries in decreasing order, one between them that overlaps, and one that does not. -/
def fiveInserts : List Request :=
  [⟨4096, 30, 39⟩, ⟨8192, 20, 29⟩, ⟨12288, 10, 15⟩, ⟨16384, 15, 16⟩, ⟨16384, 16, 16⟩]

theorem vad_inserts_correct_five :
    ∃ s, Run step allowed (start ⟨7, 7, ⟨fun _ => 7, fun _ _ => 7⟩, fun _ => 7, fun _ => 7, fun _ => 7⟩)
        fiveInserts s ∧
      s.inserted.map Request.vad = [16384, 12288, 8192, 4096] ∧ s.tree.root = 8192 ∧
      s.tree.nodeCount = 4 ∧ s.tree.find 65536 = some (some 16384) ∧ s.tree.find 69632 = some none ∧
      ∃ tree, Holds s.tree.links s.tree.root tree ∧
        (inorder tree).Perm (s.inserted.map Request.vad) := by
  have hev : (executeAllowed step allowed fiveInserts (start ⟨7, 7, ⟨fun _ => 7, fun _ _ => 7⟩,
      fun _ => 7, fun _ => 7, fun _ => 7⟩)).map (fun s => ([s.tree.root, s.tree.nodeCount] ++
        s.inserted.map Request.vad, [s.tree.find 65536, s.tree.find 69632]))
      = some ([8192, 4, 16384, 12288, 8192, 4096], [some (some 16384), some none]) := by
    decide +kernel
  obtain ⟨s, hs, heq⟩ := map_eq_some_iff.mp hev
  have hrn := Run.of_executeAllowed hs
  obtain ⟨tree, hho, hns, -⟩ := vad_inserts_correct _ hrn
  simp only [Prod.mk.injEq, cons_append, List.cons.injEq, and_true] at heq
  obtain ⟨⟨hrt, hcn, hin⟩, hfn, hn⟩ := heq
  exact ⟨s, hrn, hin, hrt, hcn, hfn, hn, tree, hho, hns⟩

end Nt61.Vad
