/-
Ticket — lines of clients that hold consecutive tickets.

A ticket dispenser counts in `BitVec w`, so it wraps around. As long as fewer than `2 ^ w` clients
stand in line, the tickets of the line are all different.
-/

import Mathlib.Data.BitVec

namespace Nt61.Ticket

variable {C : Type} {w : Nat}

/-- The clients of `q` hold the tickets from `t` on, in this order. -/
def Line (holds : C → BitVec w → Prop) : BitVec w → List C → Prop
  | _, [] => True
  | t, c :: q => holds c t ∧ Line holds (t + 1) q

variable {holds holds' : C → BitVec w → Prop} {t : BitVec w} {q : List C}

lemma Line.congr (h : Line holds t q) (hs : ∀ c ∈ q, ∀ t, holds c t → holds' c t) :
    Line holds' t q := by
  induction q generalizing t with
  | nil => trivial
  | cons c q ih =>
    obtain ⟨hc, hq⟩ := h
    exact ⟨hs c List.mem_cons_self t hc, ih hq fun d hd => hs d (List.mem_cons_of_mem c hd)⟩

lemma Line.snoc (h : Line holds t q) {c : C} (hc : holds c (t + BitVec.ofNat w q.length)) :
    Line holds t (q ++ [c]) := by
  induction q generalizing t with
  | nil =>
    refine ⟨?_, trivial⟩
    simpa using hc
  | cons d q ih =>
    obtain ⟨hd, hq⟩ := h
    refine ⟨hd, ih hq ?_⟩
    have htc : t + 1 + BitVec.ofNat w q.length = t + BitVec.ofNat w (d :: q).length := by
      rw [List.length_cons, Nat.add_comm, BitVec.ofNat_add, BitVec.add_assoc]
      rfl
    rw [htc]
    exact hc

lemma Line.ticket (h : Line holds t q) {c : C} (hc : c ∈ q) :
    ∃ i, i < q.length ∧ holds c (t + BitVec.ofNat w i) := by
  induction q generalizing t with
  | nil => cases hc
  | cons d q ih =>
    obtain ⟨hd, hq⟩ := h
    rcases List.mem_cons.mp hc with rfl | hm
    · exact ⟨0, by simp, by simpa using hd⟩
    obtain ⟨i, hi, htc⟩ := ih hq hm
    refine ⟨i + 1, by simpa using hi, ?_⟩
    rw [Nat.add_comm, BitVec.ofNat_add, ← BitVec.add_assoc]
    exact htc

lemma Line.ticket_ne (h : Line holds (t + 1) q) (hsh : q.length + 1 < 2 ^ w) {c : C} (hc : c ∈ q) :
    ∃ u, holds c u ∧ u ≠ t := by
  obtain ⟨i, _, htc⟩ := h.ticket hc
  refine ⟨_, htc, ?_⟩
  intro heq
  have h0 : BitVec.ofNat w (1 + i) = 0#w := by
    rw [BitVec.ofNat_add]
    have had : t + (1#w + BitVec.ofNat w i) = t + 0#w := by
      rw [← BitVec.add_assoc, BitVec.add_zero]
      exact heq
    exact (BitVec.add_right_inj t).mp had
  have hvl : (1 + i) % 2 ^ w = 0 := by rw [← BitVec.toNat_ofNat, h0, BitVec.toNat_zero]
  rw [Nat.mod_eq_of_lt (by omega)] at hvl
  omega

end Nt61.Ticket
