/-
Fallible — calls that return, fail with an error, or stop the program.
-/
import Mathlib.Logic.Basic

namespace Nt61.Lib

variable {ε α β : Type}

/-- The outcome of a call; `none` where the program stops. -/
abbrev Fallible (ε α : Type) := ExceptT ε Option α

def okOr (o : Option α) (e : ε) : Except ε α :=
  match o with
  | some a => .ok a
  | none => .error e

def ensure (c : Prop) [Decidable c] (e : ε) : Except ε Unit := if c then .ok () else .error e

namespace Fallible

/-- A call that does not stop the program. -/
def orError (x : Except ε α) : Fallible ε α := ExceptT.mk (some x)

/-- The program stops if there is no value. -/
def orPanic (o : Option α) : Fallible ε α := ExceptT.mk (o.map Except.ok)

@[simp]
lemma orError_ok (a : α) : (orError (.ok a) : Fallible ε α) = pure a := rfl

@[simp]
lemma orPanic_some (a : α) : (orPanic (some a) : Fallible ε α) = pure a := rfl

lemma orPanic_eq_pure_iff {o : Option α} {a : α} :
    (orPanic o : Fallible ε α) = pure a ↔ o = some a := by
  cases o with
  | none => exact iff_of_false nofun nofun
  | some b =>
    constructor
    · intro h
      exact congrArg some (Except.ok.inj (Option.some.inj h))
    intro h
    cases h
    rfl

lemma pure_inj {a b : α} : (pure a : Fallible ε α) = pure b ↔ a = b := by
  constructor
  · intro h
    exact Except.ok.inj (Option.some.inj h)
  · rintro rfl
    rfl

def value? (x : Fallible ε α) : Option α := x.run.bind Except.toOption

lemma value?_eq_some_iff {x : Fallible ε α} {a : α} : x.value? = some a ↔ x = pure a := by
  match x with
  | none => exact iff_of_false nofun nofun
  | some (.error e) => exact iff_of_false nofun nofun
  | some (.ok b) =>
    constructor
    · intro h
      cases h
      rfl
    intro h
    cases h
    rfl

lemma bind_eq_pure_iff {x : Fallible ε α} {f : α → Fallible ε β} {b : β} :
    (x >>= f) = pure b ↔ ∃ a, x = pure a ∧ f a = pure b := by
  match x with
  | none => exact iff_of_false nofun (by rintro ⟨a, ha, -⟩; cases ha)
  | some (.error e) => exact iff_of_false nofun (by rintro ⟨a, ha, -⟩; cases ha)
  | some (.ok a) =>
    constructor
    · intro h
      exact ⟨a, rfl, h⟩
    rintro ⟨_, ha, h⟩
    cases ha
    exact h

lemma orPanic_bind_eq_pure_iff {o : Option α} {f : α → Fallible ε β} {b : β} :
    (orPanic o >>= f) = pure b ↔ ∃ a, o = some a ∧ f a = pure b := by
  simp only [bind_eq_pure_iff, orPanic_eq_pure_iff]

end Fallible

@[simp]
lemma okOr_some (a : α) (e : ε) : okOr (some a) e = .ok a := rfl

lemma ensure_pos {c : Prop} [Decidable c] (h : c) (e : ε) : ensure c e = .ok () := if_pos h

@[simp]
lemma ok_bind (a : α) (f : α → Except ε β) : (Except.ok a >>= f) = f a := rfl

end Nt61.Lib
