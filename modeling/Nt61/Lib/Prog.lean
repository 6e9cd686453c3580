/-
Prog — programs that mutate a state and may stop with an error, and a REFINEMENT LOGIC for them.

The state SURVIVES an error: an early return keeps every mutation made before it, which is what `?`
does to a `&mut` argument.

`Moves view R P m Q`: from any state whose view satisfies `P`, however `m` ends, the view has moved
along finitely many `R` transitions; and if `m` ends well with `a`, the view satisfies `Q a`.
-/
import Mathlib.Logic.Relation

namespace Nt61.Lib

/-! ## Programs -/

/-- A program: a result and the state left behind, also when the result is an error. -/
def Prog (σ ε α : Type) : Type := σ → Except ε α × σ

namespace Prog

variable {σ ε ν α β : Type}

/-- End well with `a`, leaving the state alone. -/
def ret (a : α) : Prog σ ε α := fun s => (.ok a, s)

/-- Run `m`, then `f` on its result; an error of `m` ends the whole. -/
def andThen (m : Prog σ ε α) (f : α → Prog σ ε β) : Prog σ ε β := fun s =>
  match m s with
  | (.ok a, s') => f a s'
  | (.error e, s') => (.error e, s')

instance : Monad (Prog σ ε) where
  pure := ret
  bind := andThen

def fail (e : ε) : Prog σ ε α := fun s => (.error e, s)

def read : Prog σ ε σ := fun s => (.ok s, s)

def update (f : σ → σ) : Prog σ ε Unit := fun s => (.ok (), f s)

/-- The value of an `Option`, or the error `e`. -/
def ofOption (e : ε) : Option α → Prog σ ε α
  | some a => ret a
  | none => fail e

/-- Run `m`; hand an error of `m` to `h`. -/
def rescue (m : Prog σ ε α) (h : ε → Prog σ ε α) : Prog σ ε α := fun s =>
  match m s with
  | (.ok a, s') => (.ok a, s')
  | (.error e, s') => h e s'

/-! ### Running a sequence -/

variable {m : Prog σ ε α} {f : α → Prog σ ε β} {s s' : σ}

lemma bind_of_ok {a : α} (h : m s = (.ok a, s')) : (m >>= f) s = f a s' := by
  show andThen m f s = f a s'
  unfold andThen
  rw [h]

lemma bind_of_error {e : ε} (h : m s = (.error e, s')) : (m >>= f) s = (.error e, s') := by
  show andThen m f s = _
  unfold andThen
  rw [h]

lemma bind_eq_ok {s s'' : σ} {b : β}
    (h : (m >>= f) s = (.ok b, s'')) : ∃ a s', m s = (.ok a, s') ∧ f a s' = (.ok b, s'') := by
  cases hm : m s with
  | mk r s' =>
    cases r with
    | ok a => exact ⟨a, s', rfl, (bind_of_ok hm).symm.trans h⟩
    | error e =>
      rw [bind_of_error hm] at h
      exact absurd h (by simp)

lemma ofOption_eq_ok {e : ε} {o : Option α} {a : α}
    (h : (ofOption e o : Prog σ ε α) s = (.ok a, s')) : o = some a ∧ s' = s := by
  cases o with
  | none => cases h
  | some b =>
    injection h with hb hs
    injection hb with hb
    exact ⟨congrArg some hb, hs.symm⟩

lemma pure_eq_ok {a b : α} (h : (Pure.pure a : Prog σ ε α) s = (.ok b, s')) : a = b ∧ s = s' := by
  injection h with hab hs
  injection hab with hab
  exact ⟨hab, hs⟩

lemma eq_ok_of_fst {r : Except ε α × σ} {a : α} (h : r.1 = .ok a) : r = (.ok a, r.2) :=
  Prod.ext h rfl

/-! ## Silent programs: those that never move the view -/

def Silent (view : σ → ν) (m : Prog σ ε α) : Prop := ∀ s, view (m s).2 = view s

variable {view : σ → ν}

lemma Silent.pure (a : α) : Silent view (Pure.pure a : Prog σ ε α) := fun _ => rfl

lemma Silent.fail (e : ε) : Silent view (Prog.fail e : Prog σ ε α) := fun _ => rfl

lemma Silent.ofOption (e : ε) (o : Option α) : Silent view (Prog.ofOption e o : Prog σ ε α) := by
  intro s
  cases o <;> rfl

lemma Silent.update {f : σ → σ} (h : ∀ s, view (f s) = view s) :
    Silent view (Prog.update f : Prog σ ε Unit) := h

lemma Silent.bind (hm : Silent view m) (hf : ∀ a, Silent view (f a)) : Silent view (m >>= f) := by
  intro s
  show view (andThen m f s).2 = view s
  unfold andThen
  have hs := hm s
  cases h : m s with
  | mk r s' =>
    rw [h] at hs
    cases r with
    | ok a => exact (hf a s').trans hs
    | error e => exact hs

lemma Silent.read_bind {f : σ → Prog σ ε β}
    (hf : ∀ t, Silent view (f t)) : Silent view (Prog.read >>= f) :=
  fun s => hf s s

lemma Silent.ite {c : Prop} [Decidable c] {m m' : Prog σ ε α}
    (ht : Silent view m) (he : Silent view m') : Silent view (if c then m else m') := by
  by_cases hc : c
  · rw [if_pos hc]; exact ht
  · rw [if_neg hc]; exact he

/-! ## The refinement logic -/

/-- From `P`, the program moves the view along `R`, and a good end with `a` leaves it in `Q a`. -/
def Moves (view : σ → ν) (R : ν → ν → Prop) (P : ν → Prop) (m : Prog σ ε α)
    (Q : α → ν → Prop) : Prop :=
  ∀ s, P (view s) → Relation.ReflTransGen R (view s) (view (m s).2)
      ∧ ∀ a, (m s).1 = .ok a → Q a (view (m s).2)

section

variable {view : σ → ν} {R : ν → ν → Prop} {P P' : ν → Prop} {Q : α → ν → Prop}

lemma Moves.pure (a : α) (h : ∀ v, P v → Q a v) : Moves view R P (Pure.pure a : Prog σ ε α) Q := by
  intro s hs
  refine ⟨.refl, ?_⟩
  intro b hb
  have hab : a = b := by injection hb
  exact hab ▸ h _ hs

lemma Moves.fail (e : ε) : Moves view R P (Prog.fail e : Prog σ ε α) Q := by
  intro s _
  refine ⟨.refl, ?_⟩
  intro b hb
  exact absurd hb (by simp [Prog.fail])

/-- **Sequencing**: the views of the two parts compose, and the second part starts where a good end
of the first leaves it. -/
lemma Moves.bind
    {Q' : β → ν → Prop} (hm : Moves view R P m Q) (hf : ∀ a, Moves view R (Q a) (f a) Q') :
    Moves view R P (m >>= f) Q' := by
  intro s hs
  obtain ⟨hmv, hq⟩ := hm s hs
  show Relation.ReflTransGen R (view s) (view (andThen m f s).2)
    ∧ ∀ b, (andThen m f s).1 = .ok b → Q' b (view (andThen m f s).2)
  unfold andThen
  cases h : m s with
  | mk r s' =>
    rw [h] at hmv hq
    cases r with
    | ok a =>
      obtain ⟨hmv', hq'⟩ := hf a s' (hq a rfl)
      exact ⟨hmv.trans hmv', hq'⟩
    | error e =>
      refine ⟨hmv, ?_⟩
      intro b hb
      exact absurd hb (by simp)

lemma Moves.read_bind {f : σ → Prog σ ε β} {Q : β → ν → Prop}
    (hf : ∀ t, P (view t) → Moves view R (fun v => v = view t) (f t) Q) :
    Moves view R P (Prog.read >>= f) Q :=
  fun s hs => hf s hs s rfl

lemma Moves.ofOption_bind {e : ε} {o : Option α} {Q : β → ν → Prop}
    (hf : ∀ a, o = some a → Moves view R P (f a) Q) :
    Moves view R P (Prog.ofOption e o >>= f) Q := by
  cases o with
  | none =>
    intro s _
    refine ⟨.refl, ?_⟩
    intro b hb
    exact absurd hb (by simp [Prog.ofOption, Prog.fail, Bind.bind, andThen])
  | some a => exact hf a rfl

lemma Moves.update {f : σ → σ} {Q : Unit → ν → Prop} (h : ∀ s, P (view s) →
      Relation.ReflTransGen R (view s) (view (f s)) ∧ Q () (view (f s))) :
    Moves view R P (Prog.update f : Prog σ ε Unit) Q := by
  intro s hs
  exact ⟨(h s hs).1, fun _ _ => (h s hs).2⟩

lemma Moves.of_silent (h : Silent view m) : Moves view R P m (fun _ => P) := by
  intro s hs
  rw [h s]
  exact ⟨.refl, fun _ _ => hs⟩

lemma Moves.silent_bind {Q : β → ν → Prop}
    (hm : Silent view m) (hf : ∀ a, Moves view R P (f a) Q) : Moves view R P (m >>= f) Q :=
  Moves.bind (Moves.of_silent hm) hf

lemma Moves.weaken {Q Q' : α → ν → Prop} (h : Moves view R P m Q)
    (hP : ∀ v, P' v → P v) (hQ : ∀ a v, Q a v → Q' a v) : Moves view R P' m Q' := by
  intro s hs
  obtain ⟨hmv, hq⟩ := h s (hP _ hs)
  exact ⟨hmv, fun a ha => hQ a _ (hq a ha)⟩

lemma Moves.ite {c : Prop} [Decidable c] {m m' : Prog σ ε α}
    (ht : c → Moves view R P m Q) (he : ¬ c → Moves view R P m' Q) :
    Moves view R P (if c then m else m') Q := by
  by_cases hc : c
  · rw [if_pos hc]; exact ht hc
  · rw [if_neg hc]; exact he hc

end

/-! ## Invariants -/

lemma closed_of_step {R : ν → ν → Prop} {I : ν → Prop} (hs : ∀ v w, R v w → I v → I w)
    {v w : ν} (h : Relation.ReflTransGen R v w) (hv : I v) : I w := by
  induction h with
  | refl => exact hv
  | tail _ hr ih => exact hs _ _ hr ih

lemma Moves.keep {R : ν → ν → Prop} {P I : ν → Prop}
    {Q : α → ν → Prop} (hst : ∀ v w, R v w → I v → I w) (hP : ∀ v, P v → I v)
    (h : Moves view R P m Q) : Moves view R P m (fun a v => I v ∧ Q a v) := by
  intro s hs
  obtain ⟨hmv, hq⟩ := h s hs
  exact ⟨hmv, fun a ha => ⟨closed_of_step hst hmv (hP _ hs), hq a ha⟩⟩

end Prog

end Nt61.Lib
