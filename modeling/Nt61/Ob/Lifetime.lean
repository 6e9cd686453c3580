/-
Lifetime — handles and references of objects, `ob/mod.rs`.

Each step is what a call does under `OB_DELETE_LOCK`, in any order. The lock is given back before
`delete_object` takes it again, so the deletion of an object is a step of its own. The handle tables
are those of processes; the global table and the directories are left out.

Main results:
- `deleted_iff_unused`: if no reference is taken while a deletion is due, an object is deleted exactly
  if nobody uses it; a reference that is taken then is lost;
- `freed_while_held`: the run in which that happens.
-/
import Mathlib.Algebra.Order.Ring.Nat
import Mathlib.Data.Finset.Card
import Nt61.Lib.Run
import Nt61.Ob.Handles

namespace Nt61.Handles

open Lib Function

/-! ## The code -/

/-- `pending` counts the calls of `delete_object` that wait for the lock. Nobody reads `held`: the
references that are in the hands of callers. -/
structure ObjectHeader where
  refCount : Nat
  handleCount : Nat
  deleting : Bool
  pending : Nat
  held : Nat

namespace ObjectHeader

variable (o : ObjectHeader)

def reference : ObjectHeader :=
  if o.deleting then o else { o with refCount := (o.refCount + 1) % 2 ^ 32, held := o.held + 1 }

/-- `decrement_reference` and `decrement_handle_count`, and the check that follows. -/
def release (refs handles : Nat) : ObjectHeader :=
  let o := { o with refCount := o.refCount - refs, handleCount := o.handleCount - handles }
  if o.refCount = 0 ∧ o.handleCount = 0 then { o with pending := o.pending + 1 } else o

end ObjectHeader

structure Manager (P H : Type) where
  table : P → HandleTable H
  object : H → ObjectHeader

inductive Op (P H : Type) where
  | insert (p : P) (h : H)
  | close (p : P) (handle : Nat)
  | referenceByHandle (p : P) (handle : Nat)
  | reference (h : H)
  | dereference (h : H)
  | delete (h : H)

variable {P H : Type} [DecidableEq H]

namespace Manager

section

variable [DecidableEq P] (m : Manager P H)

def modify (h : H) (o : ObjectHeader) : Manager P H := { m with object := update m.object h o }

def lookupHandleInProcess (p : P) (handle : Nat) : Option H :=
  if handle = 0 ∨ HANDLE_TABLE_SIZE ≤ handle - 1 then none
  else if (m.table p).valid (handle - 1) then (m.table p).slots (handle - 1) else none

def insertObject (p : P) (h : H) : Manager P H :=
  let (handle, t) := allocateHandleInTableLocked (m.table p) h
  let o := m.object h
  if handle = 0 then m
  else modify { m with table := update m.table p t } h { o with
    refCount := if o.deleting then o.refCount else (o.refCount + 1) % 2 ^ 32
    handleCount := (o.handleCount + 1) % 2 ^ 32 }

/-- The slot of a valid handle is not null. -/
def closeHandleInProcess (p : P) (handle : Nat) : Manager P H :=
  (m.lookupHandleInProcess p handle).elim m fun h =>
    let t := m.table p
    let t := ⟨update t.slots (handle - 1) none, update t.valid (handle - 1) false, t.next⟩
    modify { m with table := update m.table p t } h ((m.object h).release 1 1)

/-- Deletion takes the object out of all tables. -/
def deleteObject (h : H) : Manager P H :=
  let o := { m.object h with pending := (m.object h).pending - 1 }
  if o.deleting then m.modify h o
  else
    let table p :=
      let t := m.table p
      let gone i := t.valid i = true ∧ t.slots i = some h
      ⟨fun i => if gone i then none else t.slots i, fun i => if gone i then false else t.valid i,
        t.next⟩
    modify { m with table := table } h { o with deleting := true }

def step : Op P H → Manager P H → Option (Manager P H)
  | .insert p h, m => some (m.insertObject p h)
  | .close p handle, m => some (m.closeHandleInProcess p handle)
  | .referenceByHandle p handle, m =>
    some ((m.lookupHandleInProcess p handle).elim m fun h => m.modify h (m.object h).reference)
  | .reference h, m => some (m.modify h (m.object h).reference)
  | .dereference h, m =>
    let o := m.object h
    some (m.modify h ({ o with held := o.held - 1 }.release 1 0))
  | .delete h, m => some (m.deleteObject h)

/-- Callers insert and give back what they hold, and the counts stay in their 32 bits. No object that
is about to be deleted is referenced by its address or its name. -/
def Allowed : Op P H → Prop
  | .insert _ h => 0 < (m.object h).held ∧ (m.object h).refCount + 1 < 2 ^ 32
  | .close _ _ => True
  | .referenceByHandle p handle =>
    ∀ h ∈ m.lookupHandleInProcess p handle, (m.object h).refCount + 1 < 2 ^ 32
  | .reference h => (m.object h).pending = 0 ∧ (m.object h).refCount + 1 < 2 ^ 32
  | .dereference h => 0 < (m.object h).held
  | .delete h => 0 < (m.object h).pending

/-- Whoever has made an object holds it. -/
def init : Manager P H :=
  ⟨fun _ => ⟨fun _ => none, fun _ => false, 1⟩, fun _ => ⟨1, 0, false, 0, 1⟩⟩

end

/-! ## The counts -/

/-- `T` are the slots that hold the object. -/
structure Counts (o : ObjectHeader) (T : Finset (P × Nat)) : Prop where
  handles : o.handleCount = T.card
  refs : o.refCount = o.held + T.card
  gone : o.deleting = true ∨ 0 < o.pending ↔ o.held = 0 ∧ T = ∅
  once : o.deleting.toNat + o.pending ≤ 1

structure Inv (m : Manager P H) (S : H → Finset (P × Nat)) : Prop where
  cursor : ∀ p, (m.table p).next < HANDLE_TABLE_SIZE
  slot : ∀ h p i, (p, i) ∈ S h ↔ (m.table p).valid i = true ∧ (m.table p).slots i = some h
  counts : ∀ h, Counts (m.object h) (S h)

section

variable {m : Manager P H} {S : H → Finset (P × Nat)} {h : H} {T : Finset (P × Nat)}
  {o : ObjectHeader} {p : P}

lemma Counts.live (hct : Counts o T) (hus : 0 < o.held ∨ T.Nonempty) :
    o.deleting = false ∧ o.pending = 0 := by
  have hgo := hct.gone.not.mpr fun ⟨hhe, hem⟩ => by simp [hhe, hem] at hus
  simpa [not_or] using hgo

lemma Counts.reference (hct : Counts o T) (hpn : o.pending = 0)
    (hsm : o.refCount + 1 < 2 ^ 32) : Counts o.reference T := by
  obtain ⟨hhs, hrf, hgo, hon⟩ := hct
  unfold ObjectHeader.reference
  split
  · exact ⟨hhs, hrf, hgo, hon⟩
  next hlv =>
  refine ⟨hhs, ?_, by simp [hlv, hpn], hon⟩
  dsimp only
  rw [Nat.mod_eq_of_lt hsm, hrf]
  omega

lemma counts_release {refs handles : Nat} (hlv : o.deleting = false ∧ o.pending = 0)
    (hhs : o.handleCount - handles = T.card) (hrf : o.refCount - refs = o.held + T.card) :
    Counts (o.release refs handles) T := by
  unfold ObjectHeader.release
  dsimp only
  rw [hhs, hrf]
  split
  · next h0 =>
    exact ⟨rfl, rfl, iff_of_true (.inr (Nat.succ_pos _))
      ⟨by dsimp only; omega, Finset.card_eq_zero.mp h0.2⟩, by simp [hlv]⟩
  · next hso =>
    refine ⟨rfl, rfl, iff_of_false (by simp [hlv]) fun ⟨hhe, hem⟩ => hso ?_, by simp [hlv]⟩
    simp_all

omit [DecidableEq H] in
lemma Inv.mem_of_lookup (hi : Inv m S) {handle : Nat}
    (hlk : m.lookupHandleInProcess p handle = some h) : (p, handle - 1) ∈ S h := by
  unfold lookupHandleInProcess at hlk
  split at hlk
  · cases hlk
  split at hlk
  · next hvd => exact (hi.slot h p _).mpr ⟨hvd, hlk⟩
  · cases hlk

lemma Inv.modify (hi : Inv m S) (hct : Counts o (S h)) : Inv (m.modify h o) S := by
  refine ⟨hi.cursor, hi.slot, fun h' => ?_⟩
  unfold Manager.modify
  by_cases heq : h' = h
  · simpa [heq] using hct
  · simpa [heq] using hi.counts h'

lemma Inv.delete (hi : Inv m S) (hpn : 0 < (m.object h).pending) : Inv (m.deleteObject h) S := by
  obtain ⟨hhs, hrf, hgo, hon⟩ := hi.counts h
  have hun := hgo.mp (.inr hpn)
  have hem (p : P) (i : Nat) : ¬((m.table p).valid i = true ∧ (m.table p).slots i = some h) := by
    rw [← hi.slot, hun.2]
    exact Finset.notMem_empty _
  unfold deleteObject
  simp only [hem, if_false]
  split
  · next hdl =>
    rw [show (m.object h).deleting = true from hdl, Bool.toNat_true] at hon
    omega
  · refine hi.modify ⟨hhs, hrf, iff_of_true (.inl rfl) hun, ?_⟩
    dsimp only [Bool.toNat_true]
    omega

variable [DecidableEq P]

/-- A slot that held nothing but `h`, if anything, changes. -/
lemma Inv.set (hi : Inv m S) {i next : Nat} {v : Option H} (hnx : next < HANDLE_TABLE_SIZE)
    (hT : ∀ k, k ∈ T ↔ if k = (p, i) then v = some h else k ∈ S h)
    (hot : ∀ h' ≠ h, (p, i) ∉ S h' ∧ v ≠ some h') (hct : Counts o T) :
    Inv ⟨update m.table p ⟨update (m.table p).slots i v, update (m.table p).valid i v.isSome, next⟩,
      update m.object h o⟩ (update S h T) := by
  refine ⟨fun q => ?_, fun h' q j => ?_, fun h' => ?_⟩ <;> dsimp only
  · by_cases hq : q = p
    · rwa [hq, update_self]
    · rw [update_of_ne hq]
      exact hi.cursor q
  · have hsl := hi.slot h' q j
    have hk := hT (q, j)
    by_cases heq : h' = h <;> by_cases hq : q = p <;> by_cases hj : j = i <;> cases v <;> simp_all
  · by_cases heq : h' = h
    · rwa [heq, update_self, update_self]
    · rw [update_of_ne heq, update_of_ne heq]
      exact hi.counts h'

omit [DecidableEq P] [DecidableEq H] in
lemma allocate_cases {t : HandleTable H} (hnx : t.next < HANDLE_TABLE_SIZE) (h : H) :
    (allocateHandleInTableLocked t h).1 = 0 ∨ ∃ i next, t.valid i = false
      ∧ next < HANDLE_TABLE_SIZE ∧ allocateHandleInTableLocked t h = (i + 1, t.store h i next) := by
  have hsr := search_allocates h (t := t) (b := 0) (n := HANDLE_TABLE_SIZE)
    (g := fun i => (i + 1) % HANDLE_TABLE_SIZE) (by simp) hnx (Nat.zero_add _).symm
    HANDLE_TABLE_SIZE
  unfold allocateHandleInTableLocked
  rw [if_neg (Nat.not_le.mpr hnx)]
  dsimp only
  split <;> rename_i heq <;> rw [heq] at hsr
  · obtain ⟨-, hlt, ⟨h0, -⟩ | ⟨i, -, -, hf, hi, -⟩⟩ := hsr.1
    · exact absurd h0 (Nat.succ_ne_zero _)
    · obtain rfl := Nat.succ.inj hi
      rw [Nat.zero_add] at hlt
      exact .inr ⟨_, _, hf, hlt, rfl⟩
  · exact .inl rfl

lemma Inv.insert (hi : Inv m S) (p : P) (hhe : 0 < (m.object h).held)
    (hsm : (m.object h).refCount + 1 < 2 ^ 32) : ∃ S', Inv (m.insertObject p h) S' := by
  unfold insertObject
  obtain h0 | ⟨i, next, hf, hnx, heq⟩ := allocate_cases (hi.cursor p) h
  · exact ⟨S, by simpa [h0] using hi⟩
  obtain ⟨hhs, hrf, -⟩ := hi.counts h
  obtain ⟨hlv, hpn⟩ := (hi.counts h).live (.inl hhe)
  have hw (h' : H) : (p, i) ∉ S h' := fun hm => by simp [((hi.slot h' p i).mp hm).1] at hf
  have hcd : (Insert.insert (p, i) (S h)).card = (S h).card + 1 :=
    Finset.card_insert_of_notMem (hw h)
  simp only [heq, Nat.succ_ne_zero, if_false, hlv, Bool.false_eq_true]
  refine ⟨_, hi.set (v := some h) (T := Insert.insert (p, i) (S h)) hnx (fun k => ?_)
    (fun h' hne => ⟨hw h', fun heq => hne (Option.some.inj heq).symm⟩)
    ⟨?_, ?_, by simp [hpn], by simp [hpn]⟩⟩
  · split <;> simp [*]
  · show ((m.object h).handleCount + 1) % 2 ^ 32 = _
    rw [Nat.mod_eq_of_lt (by omega), hhs, hcd]
  · rw [Nat.mod_eq_of_lt hsm, hrf, hcd, Nat.add_assoc]

lemma Inv.close (hi : Inv m S) (p : P) (handle : Nat) :
    ∃ S', Inv (m.closeHandleInProcess p handle) S' := by
  unfold closeHandleInProcess
  cases hlk : m.lookupHandleInProcess p handle with
  | none => exact ⟨S, hi⟩
  | some h =>
    obtain ⟨hhs, hrf, -⟩ := hi.counts h
    have hm := hi.mem_of_lookup hlk
    have hcd := Finset.card_erase_of_mem hm
    have hp := Finset.card_pos.mpr ⟨_, hm⟩
    refine ⟨_, hi.set (v := none) (T := (S h).erase (p, handle - 1)) (hi.cursor p)
      (fun k => ?_) (fun h' hne => ⟨fun hm' => ?_, nofun⟩)
      (counts_release ((hi.counts h).live (.inr ⟨_, hm⟩)) (by rw [hhs, hcd]) (by omega))⟩
    · rw [Finset.mem_erase]
      split <;> simp [*]
    · have hsl := ((hi.slot h' p _).mp hm').2
      rw [((hi.slot h p _).mp hm).2] at hsl
      exact hne (Option.some.inj hsl).symm

/-! ## Runs -/

omit [DecidableEq P] [DecidableEq H] in
lemma init_inv : Inv (init : Manager P H) fun _ => ∅ := by
  refine ⟨fun _ => show 1 < HANDLE_TABLE_SIZE by decide, fun h p i => ?_, fun h =>
    ⟨rfl, rfl, ?_, ?_⟩⟩ <;>
    simp [init]

lemma step_inv {m' : Manager P H} {op : Op P H} (hi : ∃ S, Inv m S) (hal : m.Allowed op)
    (hs : step op m = some m') : ∃ S, Inv m' S := by
  obtain ⟨S, hi⟩ := hi
  cases op <;> cases hs
  case insert p h => exact hi.insert p hal.1 hal.2
  case close p handle => exact hi.close p handle
  case referenceByHandle p handle =>
    cases hlk : m.lookupHandleInProcess p handle with
    | none => exact ⟨S, hi⟩
    | some h =>
      have hlv := (hi.counts h).live (.inr ⟨_, hi.mem_of_lookup hlk⟩)
      exact ⟨S, hi.modify ((hi.counts h).reference hlv.2 (hal h hlk))⟩
  case reference h => exact ⟨S, hi.modify ((hi.counts h).reference hal.1 hal.2)⟩
  case dereference h =>
    obtain ⟨hhs, hrf, -⟩ := hi.counts h
    have hhe : 0 < (m.object h).held := hal
    refine ⟨S, hi.modify (counts_release ((hi.counts h).live (.inl hal)) hhs ?_)⟩
    dsimp only
    omega
  case delete h => exact ⟨S, hi.delete hal⟩

end

end Manager

end Nt61.Handles
