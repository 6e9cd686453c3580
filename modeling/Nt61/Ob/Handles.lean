/-
Handles — allocation of handles, `ob/mod.rs`.

Both tables are searched from a cursor on. In the table of a process the search goes once round, so
it fails only if all slots are taken; in the global table it gives up after 64 slots.
-/
import Mathlib.Logic.Function.Basic
import Nt61.Lib.Scan

namespace Nt61.Handles

open Lib Function

/-- A handle is the number of its slot, plus one. -/
structure HandleTable (H : Type) where
  slots : Nat → Option H
  valid : Nat → Bool
  next : Nat

def HANDLE_TABLE_SIZE : Nat := 4096
def MAX_HANDLES : Nat := 16384
def HANDLE_SCAN_LIMIT : Nat := 64

variable {H : Type} (t : HandleTable H) (header : H)

def HandleTable.store (idx next : Nat) : HandleTable H :=
  ⟨update t.slots idx (some header), update t.valid idx true, next⟩

def allocateHandleInTableLocked : Nat × HandleTable H :=
  let first := if HANDLE_TABLE_SIZE ≤ t.next then 1 else t.next
  match searchFrom (fun i => !t.valid i) (fun i => (i + 1) % HANDLE_TABLE_SIZE) t.next
    HANDLE_TABLE_SIZE first with
  | (some idx, next) => (idx + 1, t.store header idx next)
  | (none, _) => (0, t)

/-- The cursor moves also if nothing is found. -/
def allocateHandleInGlobalTableLocked : Nat × HandleTable H :=
  match searchFrom (fun i => !t.valid i) (fun i => if MAX_HANDLES ≤ i + 1 then 1 else i + 1) t.next
    HANDLE_SCAN_LIMIT t.next with
  | (some idx, next) => (idx + 1, t.store header idx next)
  | (none, next) => (0, { t with next := next })

/-- The slots from `lo` on are all taken, or one that was free is taken for the header and its
handle is returned; nothing else changes, and the cursor stays in the table. -/
def Allocates (lo size : Nat) (r : Nat × HandleTable H) : Prop :=
  lo ≤ r.2.next ∧ r.2.next < size
    ∧ (r.1 = 0 ∧ (∀ i, lo ≤ i → i < size → t.valid i = true) ∧ r.2.slots = t.slots
        ∧ r.2.valid = t.valid
      ∨ ∃ i, lo ≤ i ∧ i < size ∧ t.valid i = false ∧ r.1 = i + 1
        ∧ r.2.slots = update t.slots i (some header) ∧ r.2.valid = update t.valid i true)

variable {t}

lemma search_allocates {b n s : Nat} {g : Nat → Nat}
    (had : ∀ i < n, g (b + i) = b + (i + 1) % n) (hs : s < n) (hnx : t.next = b + s)
    (rounds : Nat) :
    match searchFrom (fun i => !t.valid i) g t.next rounds t.next with
    | (some idx, next) => Allocates t header b (b + n) (idx + 1, t.store header idx next)
      ∧ ∃ k < rounds, t.valid (b + (s + k) % n) = false
    | (none, next) => (∃ j < n, next = b + j) ∧ ∀ k < rounds, t.valid (b + (s + k) % n) = true := by
  have h := searchFrom_spec (f := fun i => !t.valid i) (k := 0) had hs (by omega) rounds nofun
  simp only [Nat.add_zero, Nat.mod_eq_of_lt hs, ← hnx, Nat.zero_add] at h
  generalize searchFrom (fun i => !t.valid i) g t.next rounds t.next = r at h ⊢
  obtain ⟨_ | idx, next⟩ := r
  · exact ⟨h.1, fun k hk => by simpa using h.2.2 rfl k hk⟩
  · obtain ⟨hf, k, hk, rfl⟩ := h.2.1 idx rfl
    obtain ⟨j, hj, rfl⟩ := h.1
    replace hf : t.valid (b + (s + k) % n) = false := by simpa using hf
    exact ⟨⟨Nat.le_add_right b j, Nat.add_lt_add_left hj b, .inr ⟨_, Nat.le_add_right b _,
      Nat.add_lt_add_left (Nat.mod_lt _ (by omega)) b, hf, rfl, rfl, rfl⟩⟩, k, hk, hf⟩

/-- **Allocation** is complete in the table of a process. In the global table it is exactly if one
of the next 64 slots is free or none at all. -/
theorem allocates_iff (t : HandleTable H) (header : H) : (t.next < HANDLE_TABLE_SIZE →
      Allocates t header 0 HANDLE_TABLE_SIZE (allocateHandleInTableLocked t header))
    ∧ (1 ≤ t.next → t.next < MAX_HANDLES →
      (Allocates t header 1 MAX_HANDLES (allocateHandleInGlobalTableLocked t header)
        ↔ ((∀ k < HANDLE_SCAN_LIMIT, t.valid (1 + (t.next - 1 + k) % (MAX_HANDLES - 1)) = true) →
          ∀ i, 1 ≤ i → i < MAX_HANDLES → t.valid i = true))) := by
  constructor
  · intro hlt
    have h := search_allocates header (b := 0) (n := HANDLE_TABLE_SIZE)
      (g := fun i => (i + 1) % HANDLE_TABLE_SIZE) (by simp) hlt (Nat.zero_add _).symm
      HANDLE_TABLE_SIZE
    unfold allocateHandleInTableLocked
    rw [if_neg (Nat.not_le.mpr hlt)]
    dsimp only
    split <;> rename_i heq <;> rw [heq] at h
    · simpa using h.1
    refine ⟨Nat.zero_le _, hlt, .inl ⟨rfl, fun i _ hi => ?_, rfl, rfl⟩⟩
    -- slot `i` comes up after this many rounds
    have hro := h.2 ((i + HANDLE_TABLE_SIZE - t.next) % HANDLE_TABLE_SIZE)
      (Nat.mod_lt _ (by decide))
    rwa [Nat.add_mod_mod, show t.next + (i + HANDLE_TABLE_SIZE - t.next) = i + HANDLE_TABLE_SIZE by
      omega, Nat.add_mod_right, Nat.mod_eq_of_lt hi, Nat.zero_add] at hro
  · intro hp hlt
    have h := search_allocates header (b := 1) (n := MAX_HANDLES - 1)
      (s := t.next - 1) (g := fun i => if MAX_HANDLES ≤ i + 1 then 1 else i + 1)
      (by unfold MAX_HANDLES; intro i hi; split <;> omega) (by unfold MAX_HANDLES at *; omega)
      (Nat.add_sub_cancel' hp).symm HANDLE_SCAN_LIMIT
    unfold allocateHandleInGlobalTableLocked
    split <;> rename_i heq <;> rw [heq] at h
    · obtain ⟨ha, k, hk, hf⟩ := h
      exact iff_of_true ha fun hnr => absurd (hf.symm.trans (hnr k hk)) nofun
    obtain ⟨⟨j, hj, rfl⟩, htk⟩ := h
    constructor
    · rintro ⟨-, -, ⟨-, ha, -⟩ | ⟨i, -, -, -, h0, -⟩⟩ -
      · exact ha
      · cases h0
    · intro hnr
      exact ⟨Nat.le_add_right 1 j, Nat.add_lt_of_lt_sub' hj, .inl ⟨rfl, hnr htk, rfl, rfl⟩⟩

/-- Four slots at the end and two at the front are taken: the search goes round to slot 3. -/
def aroundTaken : HandleTable Unit := ⟨fun _ => some (), fun i => decide (16380 ≤ i ∨ i < 3), 16380⟩

theorem allocates_around : Allocates aroundTaken () 1 MAX_HANDLES
      (allocateHandleInGlobalTableLocked aroundTaken ())
    ∧ (allocateHandleInGlobalTableLocked aroundTaken ()).1 = 4 :=
  ⟨((allocates_iff aroundTaken ()).2 (by decide) (by decide)).mpr
    fun h => absurd (h 6 (by decide)) (by decide), by decide⟩

def firstTaken : HandleTable Unit := ⟨fun _ => some (), fun i => decide (i < 65), 1⟩

/-- 64 taken slots hide the free ones. -/
theorem taken_slots_hide : firstTaken.valid 65 = false
    ∧ (allocateHandleInGlobalTableLocked firstTaken ()).1 = 0 := by decide

end Nt61.Handles
