/-
Bytes — byte strings, and the fixed-width integers they spell.

`leBytes n v` / `beBytes n v` are the `n` low bytes of `v`, least / most significant first;
`leValue` / `beValue` read a byte string back.
-/
import Mathlib.Data.List.Basic
import Mathlib.Tactic.Ring

namespace Nt61.Lib

open List

abbrev Bytes := List UInt8

def ascii (s : String) : Bytes := s.toByteArray.data.toList

/-! ## Little-endian integers -/

/-- The `n` low bytes of `v`, least significant first. -/
def leBytes : Nat → Nat → Bytes
  | 0, _ => []
  | n + 1, v => UInt8.ofNat (v % 256) :: leBytes n (v / 256)

/-- The number a little-endian byte string spells. -/
def leValue : Bytes → Nat
  | [] => 0
  | b :: bs => b.toNat + 256 * leValue bs

variable (n v : Nat)

@[simp] lemma leBytes_length : (leBytes n v).length = n := by
  induction n generalizing v with
  | zero => rfl
  | succ n ih => simp [leBytes, ih]

lemma leValue_leBytes : leValue (leBytes n v) = v % 256 ^ n := by
  induction n generalizing v with
  | zero => simp [leBytes, leValue, Nat.mod_one]
  | succ n ih =>
    have hb : (UInt8.ofNat (v % 256)).toNat = v % 256 := by simp
    rw [leBytes, leValue, ih, hb, Nat.pow_succ, Nat.mul_comm (256 ^ n) 256, Nat.mod_mul]

variable (bs : Bytes)

lemma leBytes_leValue : leBytes bs.length (leValue bs) = bs := by
  induction bs with
  | nil => rfl
  | cons b bs ih =>
    have hlt : b.toNat < 256 := b.toNat_lt
    have hmd : (b.toNat + 256 * leValue bs) % 256 = b.toNat := by omega
    have hdv : (b.toNat + 256 * leValue bs) / 256 = leValue bs := by omega
    rw [leValue, length_cons, leBytes, hmd, hdv, ih, UInt8.ofNat_toNat]

lemma leValue_lt : leValue bs < 256 ^ bs.length := by
  induction bs with
  | nil => simp [leValue]
  | cons b bs ih =>
    have hlt : b.toNat < 256 := b.toNat_lt
    rw [leValue, length_cons]
    omega

/-! ## Big-endian integers -/

/-- The `n` low bytes of `v`, most significant first. -/
def beBytes (n v : Nat) : Bytes := (leBytes n v).reverse

/-- The number a big-endian byte string spells. -/
def beValue (bs : Bytes) : Nat := leValue bs.reverse

lemma beBytes_length : (beBytes n v).length = n := by
  unfold beBytes
  rw [length_reverse, leBytes_length]

lemma beBytes_succ : beBytes (n + 1) v = beBytes n (v / 256) ++ [UInt8.ofNat (v % 256)] := by
  unfold beBytes
  rw [leBytes, reverse_cons]

lemma beValue_beBytes : beValue (beBytes n v) = v % 256 ^ n := by
  unfold beValue beBytes
  rw [reverse_reverse, leValue_leBytes]

lemma beBytes_beValue : beBytes bs.length (beValue bs) = bs := by
  have h := leBytes_leValue bs.reverse
  rw [length_reverse] at h
  unfold beBytes beValue
  rw [h, reverse_reverse]

lemma beValue_lt : beValue bs < 256 ^ bs.length := by
  have h := leValue_lt bs.reverse
  rwa [length_reverse] at h

lemma leValue_append (as bs : Bytes) :
    leValue (as ++ bs) = leValue as + 256 ^ as.length * leValue bs := by
  induction as with
  | nil => simp [leValue]
  | cons a as ih =>
    rw [cons_append, leValue, leValue, ih, length_cons]
    ring

lemma beValue_append (as bs : Bytes) :
    beValue (as ++ bs) = 256 ^ bs.length * beValue as + beValue bs := by
  unfold beValue
  rw [reverse_append, leValue_append, length_reverse, Nat.add_comm]

lemma beValue_cons (b : UInt8) (bs : Bytes) :
    beValue (b :: bs) = 256 ^ bs.length * b.toNat + beValue bs := by
  have h := beValue_append [b] bs
  have hb : beValue [b] = b.toNat := by simp [beValue, leValue]
  rwa [hb] at h

lemma beValue_zero_cons : beValue (0 :: bs) = beValue bs := by
  rw [beValue_cons]
  simp

lemma beValue_inj {as bs : Bytes} (hl : as.length = bs.length)
    (h : beValue as = beValue bs) : as = bs := by
  have ha := beBytes_beValue as
  rwa [h, hl, beBytes_beValue, eq_comm] at ha

/-! ## Exclusive or -/

lemma zipWith_xor_undo {bytes mask : Bytes} (hl : bytes.length ≤ mask.length) :
    List.zipWith (· ^^^ ·) (List.zipWith (· ^^^ ·) bytes mask) mask = bytes := by
  induction bytes generalizing mask with
  | nil => rfl
  | cons b bytes ih =>
    cases mask with
    | nil => simp at hl
    | cons m mask =>
      have hr : bytes.length ≤ mask.length := by simpa using hl
      rw [zipWith_cons_cons, zipWith_cons_cons, ih hr, UInt8.xor_assoc,
        UInt8.xor_self, UInt8.xor_zero]

end Nt61.Lib
