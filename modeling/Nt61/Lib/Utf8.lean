/-
Utf8 — UTF-8 validation and the UTF-16 form of a text, over lists of bytes.

`decodeUtf8` accepts exactly the well-formed byte sequences of the Unicode standard (shortest form,
no surrogates, nothing above `0x10FFFF`) and returns the scalar values.
-/
import Mathlib.Data.List.Basic

namespace Nt61.Lib

/-! ## Decoding -/

/-- A continuation byte `10xxxxxx`. -/
def isCont (b : UInt8) : Bool := decide (0x80 ≤ b.toNat ∧ b.toNat ≤ 0xBF)

def contBits (b : UInt8) : Nat := b.toNat % 0x40

/-- Lead byte of a two-byte sequence (shortest form only). -/
def isLead2 (a : UInt8) : Bool := decide (0xC2 ≤ a.toNat ∧ a.toNat ≤ 0xDF)

/-- First two bytes of a three-byte sequence: no overlong forms, no surrogates. -/
def isLead3 (a b : UInt8) : Bool :=
  decide ((a.toNat = 0xE0 ∧ 0xA0 ≤ b.toNat ∧ b.toNat ≤ 0xBF)
    ∨ (((0xE1 ≤ a.toNat ∧ a.toNat ≤ 0xEC) ∨ (0xEE ≤ a.toNat ∧ a.toNat ≤ 0xEF))
        ∧ 0x80 ≤ b.toNat ∧ b.toNat ≤ 0xBF)
    ∨ (a.toNat = 0xED ∧ 0x80 ≤ b.toNat ∧ b.toNat ≤ 0x9F))

/-- First two bytes of a four-byte sequence: no overlong forms, nothing above `0x10FFFF`. -/
def isLead4 (a b : UInt8) : Bool :=
  decide ((a.toNat = 0xF0 ∧ 0x90 ≤ b.toNat ∧ b.toNat ≤ 0xBF)
    ∨ ((0xF1 ≤ a.toNat ∧ a.toNat ≤ 0xF3) ∧ 0x80 ≤ b.toNat ∧ b.toNat ≤ 0xBF)
    ∨ (a.toNat = 0xF4 ∧ 0x80 ≤ b.toNat ∧ b.toNat ≤ 0x8F))

/-- The scalar values of a well-formed UTF-8 byte sequence, `none` for any other. -/
def decodeUtf8 : List UInt8 → Option (List Nat)
  | [] => some []
  | a :: as =>
    if a.toNat < 0x80 then (decodeUtf8 as).map (a.toNat :: ·)
    else
      match as with
      | [] => none
      | b :: bs =>
        if isLead2 a && isCont b then
          (decodeUtf8 bs).map ((a.toNat % 0x20 * 0x40 + contBits b) :: ·)
        else
          match bs with
          | [] => none
          | c :: cs =>
            if isLead3 a b && isCont c then
              (decodeUtf8 cs).map ((a.toNat % 0x10 * 0x1000 + contBits b * 0x40 + contBits c) :: ·)
            else
              match cs with
              | [] => none
              | d :: ds =>
                if isLead4 a b && isCont c && isCont d then
                  (decodeUtf8 ds).map
                    ((a.toNat % 0x08 * 0x40000 + contBits b * 0x1000 + contBits c * 0x40
                      + contBits d) :: ·)
                else none

/-- The text held by `bytes` when they are valid UTF-8. A text is kept as its own UTF-8 bytes. -/
def fromUtf8 (bytes : List UInt8) : Option (List UInt8) :=
  if (decodeUtf8 bytes).isSome then some bytes else none

/-! ## UTF-16 -/

/-- One scalar value as one unit, or as a surrogate pair. -/
def utf16Units (c : Nat) : List Nat :=
  if c < 0x10000 then [c]
  else [0xD800 + (c - 0x10000) / 0x400, 0xDC00 + (c - 0x10000) % 0x400]

def encodeUtf16 (cs : List Nat) : List Nat := cs.flatMap utf16Units

lemma utf16Units_length_le (c : Nat) : (utf16Units c).length ≤ 2 := by
  unfold utf16Units
  split <;> simp

lemma utf16Units_length_of_lt {c : Nat} (h : c < 0x10000) : (utf16Units c).length = 1 := by
  unfold utf16Units
  rw [if_pos h]
  rfl

lemma encodeUtf16_cons_length_le {c : Nat} {cs : List Nat} (bs : List UInt8) (k : Nat)
    (hc : (utf16Units c).length ≤ k) (hcs : (encodeUtf16 cs).length ≤ bs.length) :
    (encodeUtf16 (c :: cs)).length ≤ bs.length + k := by
  have he : encodeUtf16 (c :: cs) = utf16Units c ++ encodeUtf16 cs := rfl
  rw [he, List.length_append]
  omega

/-- **No more units than bytes**: a one-byte scalar is one unit, and every other scalar takes at
least two bytes and at most two units. -/
lemma encodeUtf16_length_le (bytes : List UInt8) (cs : List Nat)
    (h : decodeUtf8 bytes = some cs) : (encodeUtf16 cs).length ≤ bytes.length := by
  have htw {c : Nat} (k : Nat) : (utf16Units c).length ≤ k + 2 :=
    Nat.le_add_left_of_le (utf16Units_length_le c)
  induction bytes using decodeUtf8.induct generalizing cs with unfold decodeUtf8 at h
  | case1 =>
    cases h
    exact Nat.le_refl 0
  | case2 a as ha ih =>
    simp only [ha, if_true, Option.map_eq_some_iff] at h
    obtain ⟨ds, hds, rfl⟩ := h
    have hon : (utf16Units a.toNat).length ≤ 1 := Nat.le_of_eq (utf16Units_length_of_lt (by omega))
    exact encodeUtf16_cons_length_le as 1 hon (ih ds hds)
  | case3 a ha => simp [ha] at h
  | case4 a ha b bs hab ih =>
    simp only [ha, hab, if_true, if_false, Option.map_eq_some_iff] at h
    obtain ⟨ds, hds, rfl⟩ := h
    exact encodeUtf16_cons_length_le bs 2 (htw 0) (ih ds hds)
  | case5 a ha b hab => simp [ha, hab] at h
  | case6 a ha b hab c cs' hac ih =>
    simp only [ha, hab, hac, if_true, if_false, Bool.false_eq_true, Option.map_eq_some_iff] at h
    obtain ⟨ds, hds, rfl⟩ := h
    exact encodeUtf16_cons_length_le cs' 3 (htw 1) (ih ds hds)
  | case7 a ha b hab c hac => simp [ha, hab, hac] at h
  | case8 a ha b hab c hac d ds' h4 ih =>
    simp only [ha, hab, hac, h4, if_true, if_false, Bool.false_eq_true, Option.map_eq_some_iff] at h
    obtain ⟨ds, hds, rfl⟩ := h
    exact encodeUtf16_cons_length_le ds' 4 (htw 2) (ih ds hds)
  | case9 a ha b hab c hac d ds' h4 => simp [ha, hab, hac, h4] at h

end Nt61.Lib
