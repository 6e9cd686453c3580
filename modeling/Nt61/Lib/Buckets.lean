/-
Buckets — elements kept in several lists.

`takeFirst test buckets` takes out the first element that passes the test; a test may stop the
program (`none`). `push i a` puts an element at the end of list `i`. Both are given by what they do
to all elements together, up to order.
-/
import Mathlib.Data.List.Perm.Basic

namespace Nt61.Lib.Buckets

open List

variable {α : Type}

def takeFrom (test : α → Option Bool) : List α → Option (Option (α × List α))
  | [] => some none
  | a :: rest => do
    if ← test a then some (some (a, rest))
    else
      match ← takeFrom test rest with
      | none => some none
      | some (b, rest) => some (some (b, a :: rest))

def takeFirst (test : α → Option Bool) : List (List α) → Option (Option (α × List (List α)))
  | [] => some none
  | bucket :: buckets => do
    match ← takeFrom test bucket with
    | some (a, rest) => some (some (a, rest :: buckets))
    | none =>
      match ← takeFirst test buckets with
      | none => some none
      | some (a, rest) => some (some (a, bucket :: rest))

def push (i : Nat) (a : α) (buckets : List (List α)) : List (List α) := buckets.modify i (· ++ [a])

variable {test : α → Option Bool} {q : α → Bool}

lemma takeFrom_cases {bucket : List α} (ht : ∀ a ∈ bucket, test a = some (q a)) :
    (takeFrom test bucket = some none ∧ ∀ a ∈ bucket, q a = false) ∨
    ∃ a rest, takeFrom test bucket = some (some (a, rest)) ∧ q a = true ∧
      bucket.Perm (a :: rest) := by
  induction bucket with
  | nil => exact .inl ⟨rfl, by simp⟩
  | cons b bucket ih =>
    have hb := ht b mem_cons_self
    cases hq : q b with
    | true =>
      refine .inr ⟨b, bucket, ?_, hq, .refl _⟩
      unfold takeFrom
      rw [hb, hq]
      rfl
    | false =>
      have hs : takeFrom test (b :: bucket) = (takeFrom test bucket).bind fun r =>
          match r with
          | none => some none
          | some (a, rest) => some (some (a, b :: rest)) := by
        rw [takeFrom, hb, hq]
        rfl
      rw [hs]
      rcases ih fun a ha => ht a (mem_cons_of_mem _ ha) with
        ⟨hn, hal⟩ | ⟨a, rest, hso, ha, hpm⟩
      · rw [hn]
        exact .inl ⟨rfl, forall_mem_cons.mpr ⟨hq, hal⟩⟩
      · rw [hso]
        exact .inr ⟨a, b :: rest, rfl, ha, (hpm.cons b).trans (.swap a b rest)⟩

variable {buckets : List (List α)}

lemma takeFirst_cases (ht : ∀ a ∈ buckets.flatten, test a = some (q a)) :
    (takeFirst test buckets = some none ∧ ∀ a ∈ buckets.flatten, q a = false) ∨
    ∃ a rest, takeFirst test buckets = some (some (a, rest)) ∧ q a = true ∧
      buckets.flatten.Perm (a :: rest.flatten) ∧ rest.length = buckets.length := by
  induction buckets with
  | nil => exact .inl ⟨rfl, by simp⟩
  | cons bucket buckets ih =>
    have hbc : ∀ a ∈ bucket, test a = some (q a) := fun a ha =>
      ht a (by rw [flatten_cons]; exact mem_append_left _ ha)
    have hbk : ∀ a ∈ buckets.flatten, test a = some (q a) := fun a ha =>
      ht a (by rw [flatten_cons]; exact mem_append_right _ ha)
    rcases takeFrom_cases hbc with ⟨hn, hal⟩ | ⟨a, rest, hso, ha, hpm⟩
    · have hs : takeFirst test (bucket :: buckets) = (takeFirst test buckets).bind fun r =>
          match r with
          | none => some none
          | some (a, rest) => some (some (a, bucket :: rest)) := by
        rw [takeFirst, hn]
        rfl
      rw [hs]
      rcases ih hbk with ⟨hn', ha'⟩ | ⟨a, rest, hso, ha, hpm, hl⟩
      · rw [hn']
        refine .inl ⟨rfl, fun a ha => ?_⟩
        rcases mem_append.mp ha with ha | ha
        · exact hal a ha
        · exact ha' a ha
      rw [hso]
      refine .inr ⟨a, bucket :: rest, rfl, ha, ?_, by simp [hl]⟩
      exact (hpm.append_left bucket).trans perm_middle
    have hs : takeFirst test (bucket :: buckets) = some (some (a, rest :: buckets)) := by
      rw [takeFirst, hso]
      rfl
    refine .inr ⟨a, rest :: buckets, hs, ha, ?_, by simp⟩
    exact hpm.append_right buckets.flatten

lemma takeFirst_drop_cases (i : Nat) (ht : ∀ a ∈ buckets.flatten, test a = some (q a)) :
    takeFirst test (buckets.drop i) = some none ∨
    ∃ a rest, takeFirst test (buckets.drop i) = some (some (a, rest)) ∧ q a = true ∧
      buckets.flatten.Perm (a :: (buckets.take i ++ rest).flatten) ∧
      (buckets.take i ++ rest).length = buckets.length := by
  have hsp : buckets.flatten = (buckets.take i).flatten ++ (buckets.drop i).flatten := by
    rw [← flatten_append, take_append_drop]
  have hdr : ∀ a ∈ (buckets.drop i).flatten, test a = some (q a) := fun a ha =>
    ht a (by rw [hsp]; exact mem_append_right _ ha)
  rcases takeFirst_cases hdr with ⟨hn, -⟩ | ⟨a, rest, hso, ha, hpm, hl⟩
  · exact .inl hn
  refine .inr ⟨a, rest, hso, ha, ?_, ?_⟩
  · rw [hsp, flatten_append]
    exact (hpm.append_left _).trans perm_middle
  · rw [length_append, hl, ← length_append, take_append_drop]

lemma push_perm {i : Nat} (hi : i < buckets.length) (a : α) :
    (push i a buckets).flatten.Perm (a :: buckets.flatten) := by
  induction buckets generalizing i with
  | nil => cases hi
  | cons bucket buckets ih =>
    cases i with
    | zero =>
      show ((bucket ++ [a]) ++ buckets.flatten).Perm (a :: (bucket ++ buckets.flatten))
      rw [append_assoc]
      exact perm_middle
    | succ i => exact ((ih (Nat.lt_of_succ_lt_succ hi)).append_left bucket).trans perm_middle

lemma length_push (i : Nat) (a : α) (buckets : List (List α)) :
    (push i a buckets).length = buckets.length :=
  length_modify ..

end Nt61.Lib.Buckets
