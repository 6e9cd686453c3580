/-
Unicode — texts, their UTF-16 form, and the lossy reading of bytes as UTF-8.

`fromUtf8Lossy` reads any bytes: each ill-formed piece, as long as it could still have been
completed, becomes one replacement character.
-/
import Nt61.Lib.Bytes
import Nt61.Lib.Utf8

namespace Nt61.Lib

open List

abbrev Text := List Char

/-! ## UTF-16 units -/

def utf16 (s : Text) : List Nat := encodeUtf16 (s.map Char.toNat)

/-- `String::from_utf16`: every surrogate must be part of a pair. -/
def fromUtf16 : List Nat → Option Text
  | [] => some []
  | u :: us =>
    if u < 0xD800 ∨ 0xDFFF < u then (fromUtf16 us).map (Char.ofNat u :: ·)
    else if 0xDC00 ≤ u then none
    else
      match us with
      | [] => none
      | v :: vs =>
        if 0xDC00 ≤ v ∧ v ≤ 0xDFFF then
          (fromUtf16 vs).map (Char.ofNat (0x10000 + (u - 0xD800) * 0x400 + (v - 0xDC00)) :: ·)
        else none

lemma utf16_cons (c : Char) (s : Text) : utf16 (c :: s) = utf16Units c.toNat ++ utf16 s := rfl

lemma toNat_valid (c : Char) : c.toNat < 0xD800 ∨ 0xDFFF < c.toNat ∧ c.toNat < 0x110000 := c.valid

lemma utf16Units_pair {n : Nat} (h : 0x10000 ≤ n) :
    utf16Units n = [0xD800 + (n - 0x10000) / 0x400, 0xDC00 + (n - 0x10000) % 0x400] :=
  if_neg (by omega)

lemma fromUtf16_cons_unit {u : Nat} (hu : u < 0xD800 ∨ 0xDFFF < u) (us : List Nat) :
    fromUtf16 (u :: us) = (fromUtf16 us).map (Char.ofNat u :: ·) := by
  rw [fromUtf16.eq_def]
  exact if_pos hu

lemma fromUtf16_cons_pair {u v : Nat} (hu : 0xD800 ≤ u ∧ u < 0xDC00) (hv : 0xDC00 ≤ v ∧ v ≤ 0xDFFF)
    (us : List Nat) : fromUtf16 (u :: v :: us)
      = (fromUtf16 us).map (Char.ofNat (0x10000 + (u - 0xD800) * 0x400 + (v - 0xDC00)) :: ·) := by
  rw [fromUtf16.eq_def]
  dsimp only
  rw [if_neg (by omega), if_neg (by omega), if_pos hv]

lemma fromUtf16_utf16 (s : Text) : fromUtf16 (utf16 s) = some s := by
  induction s with
  | nil => rfl
  | cons c s ih =>
    rw [utf16_cons]
    by_cases hc : c.toNat < 0x10000
    · have hus : utf16Units c.toNat = [c.toNat] := if_pos hc
      have hvd := toNat_valid c
      rw [hus, singleton_append, fromUtf16_cons_unit (by omega), ih, Option.map_some,
        Char.ofNat_toNat]
    have hvd := toNat_valid c
    rw [utf16Units_pair (by omega), cons_append, singleton_append,
      fromUtf16_cons_pair (by omega) (by omega), ih, Option.map_some]
    -- the two halves of the offset come together again
    have hsm : 0x10000 + (0xD800 + (c.toNat - 0x10000) / 0x400 - 0xD800) * 0x400
        + (0xDC00 + (c.toNat - 0x10000) % 0x400 - 0xDC00) = c.toNat := by omega
    rw [hsm, Char.ofNat_toNat]

lemma utf16Units_lt {n : Nat} (h : n < 0x110000) : ∀ u ∈ utf16Units n, u < 0x10000 := by
  intro u hu
  unfold utf16Units at hu
  split at hu
  · rw [mem_singleton] at hu
    omega
  · simp only [mem_cons, not_mem_nil, or_false] at hu
    omega

lemma utf16_lt (s : Text) : ∀ u ∈ utf16 s, u < 0x10000 := by
  intro u hu
  obtain ⟨_, hn, hu⟩ := mem_flatMap.mp hu
  obtain ⟨c, -, rfl⟩ := mem_map.mp hn
  have hvd := toNat_valid c
  exact utf16Units_lt (by omega) u hu

/-! ## Units as bytes -/

/-- The units as bytes, least significant first. -/
def utf16Le (us : List Nat) : Bytes := us.flatMap (leBytes 2)

def unitsLe : Bytes → List Nat
  | a :: b :: rest => leValue [a, b] :: unitsLe rest
  | _ => []

lemma utf16Le_cons (u : Nat) (us : List Nat) : utf16Le (u :: us) = leBytes 2 u ++ utf16Le us := rfl

lemma length_utf16Le (us : List Nat) : (utf16Le us).length = 2 * us.length := by
  induction us with
  | nil => rfl
  | cons u us ih =>
    rw [utf16Le_cons, length_append, leBytes_length, length_cons]
    omega

lemma unitsLe_utf16Le {us : List Nat} (h : ∀ u ∈ us, u < 0x10000) : unitsLe (utf16Le us) = us := by
  induction us with
  | nil => rfl
  | cons u us ih =>
    have hu : leValue (leBytes 2 u) = u := by
      rw [leValue_leBytes]
      exact Nat.mod_eq_of_lt (h u mem_cons_self)
    have hcs : unitsLe (utf16Le (u :: us)) = leValue (leBytes 2 u) :: unitsLe (utf16Le us) := rfl
    rw [hcs, hu, ih fun v hv => h v (mem_cons_of_mem _ hv)]

/-! ## Bytes as UTF-8 -/

def replacement : Char := Char.ofNat 0xFFFD

/-- The character that `a :: rest` starts with, and how many bytes it takes after `a`. -/
def lossyStep (a : UInt8) (rest : Bytes) : Char × Nat :=
  if a.toNat < 0x80 then (Char.ofNat a.toNat, 0)
  else
    match rest with
    | [] => (replacement, 0)
    | b :: rest =>
      if isLead2 a && isCont b then (Char.ofNat (a.toNat % 0x20 * 0x40 + contBits b), 1)
      else if isLead3 a b then
        match rest with
        | [] => (replacement, 1)
        | c :: _ =>
          if isCont c then
            (Char.ofNat (a.toNat % 0x10 * 0x1000 + contBits b * 0x40 + contBits c), 2)
          else (replacement, 1)
      else if isLead4 a b then
        match rest with
        | [] => (replacement, 1)
        | c :: rest =>
          if isCont c then
            match rest with
            | [] => (replacement, 2)
            | d :: _ =>
              if isCont d then
                (Char.ofNat (a.toNat % 0x08 * 0x40000 + contBits b * 0x1000 + contBits c * 0x40
                  + contBits d), 3)
              else (replacement, 2)
          else (replacement, 1)
      else (replacement, 0)

def fromUtf8Lossy : Bytes → Text
  | [] => []
  | a :: rest => (lossyStep a rest).1 :: fromUtf8Lossy (rest.drop (lossyStep a rest).2)
termination_by bytes => bytes.length
decreasing_by
  rw [length_drop, length_cons]
  omega

lemma fromUtf8Lossy_cons_ascii {a : UInt8} (h : a.toNat < 0x80) (rest : Bytes) :
    fromUtf8Lossy (a :: rest) = Char.ofNat a.toNat :: fromUtf8Lossy rest := by
  have hs : lossyStep a rest = (Char.ofNat a.toNat, 0) := if_pos h
  rw [fromUtf8Lossy, hs]
  rfl

def asciiBytes (s : Text) : Bytes := s.map fun c => UInt8.ofNat c.toNat

lemma fromUtf8Lossy_asciiBytes {s : Text} (h : ∀ c ∈ s, c.toNat < 0x80) :
    fromUtf8Lossy (asciiBytes s) = s := by
  induction s with
  | nil => rw [asciiBytes, map_nil, fromUtf8Lossy]
  | cons c s ih =>
    have hc := h c mem_cons_self
    have hby : (UInt8.ofNat c.toNat).toNat = c.toNat := by
      rw [UInt8.toNat_ofNat']
      omega
    have hcs : asciiBytes (c :: s) = UInt8.ofNat c.toNat :: asciiBytes s := rfl
    rw [hcs, fromUtf8Lossy_cons_ascii (by omega), hby, Char.ofNat_toNat,
      ih fun d hd => h d (mem_cons_of_mem _ hd)]

end Nt61.Lib
