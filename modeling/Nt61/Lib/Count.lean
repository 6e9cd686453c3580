/-
Count — how many of finitely many threads are in a kind of state.

A step moves one thread, so it changes such a number by one or not at all.
-/
import Mathlib.Data.Fintype.Card

namespace Nt61.Lib

open Function Finset

variable {T α : Type} [Fintype T] [DecidableEq T] {p : α → Bool} {f : T → α} {t : T} {a : α}

/-- The number of threads whose state passes the test. -/
def countOf (p : α → Bool) (f : T → α) : Nat := (univ.filter fun t => p (f t) = true).card

lemma countOf_update_same (h : p a = p (f t)) : countOf p (update f t a) = countOf p f := by
  unfold countOf
  congr 1
  ext u
  rw [mem_filter, mem_filter]
  by_cases hu : u = t
  · rw [hu, update_self, h]
  · rw [update_of_ne hu]

lemma countOf_update_enter (hold : p (f t) = false) (hw : p a = true) :
    countOf p (update f t a) = countOf p f + 1 := by
  have hin : (univ.filter fun u => p (update f t a u) = true)
      = insert t (univ.filter fun u => p (f u) = true) := by
    ext u
    by_cases hu : u = t
    · simp [hu, hw]
    · simp [hu]
  have hnt : t ∉ univ.filter fun u => p (f u) = true := by simp [hold]
  unfold countOf
  rw [hin, card_insert_of_notMem hnt]

lemma countOf_update_leave (hold : p (f t) = true) (hw : p a = false) :
    countOf p (update f t a) + 1 = countOf p f := by
  have hba : update (update f t a) t (f t) = f := by rw [update_idem, update_eq_self]
  have hen := @countOf_update_enter T α _ _ p (update f t a) t (f t)
    (by rw [update_self]; exact hw) hold
  rw [hba] at hen
  exact hen.symm

omit [Fintype T] in
lemma countP_update {l : List T} (hnd : l.Nodup) (ht : t ∈ l) :
    l.countP (fun u => p (update f t a u)) + (p (f t)).toNat
      = l.countP (fun u => p (f u)) + (p a).toNat := by
  induction l with
  | nil => cases ht
  | cons b l ih =>
    obtain ⟨hb, hnd⟩ := List.nodup_cons.mp hnd
    rw [List.countP_cons, List.countP_cons]
    rcases List.mem_cons.mp ht with rfl | ht
    · have hr : l.countP (fun u => p (update f t a u)) = l.countP fun u => p (f u) := by
        refine List.countP_congr fun u hu => ?_
        rw [update_of_ne]
        rintro rfl
        exact hb hu
      rw [hr, update_self]
      cases p a <;> cases p (f t) <;> simp
    have hne : b ≠ t := by
      rintro rfl
      exact hb ht
    have := ih hnd ht
    rw [update_of_ne hne]
    omega

end Nt61.Lib
