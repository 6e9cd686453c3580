/-
OnesComplement — the one's-complement sum of 16-bit words, and the checksum of RFC 1071.

A sum with end-around carries is the sum modulo 65535, with 65535 for every multiple but 0
(`sum16_eq`).
-/
import Nt61.Lib.Bytes

namespace Nt61.Lib

open List

def word (a b : UInt8) : Nat := a.toNat * 256 + b.toNat

/-- The words of a message; an odd last byte is padded on the right. -/
def words : Bytes → List Nat
  | a :: b :: d => word a b :: words d
  | [a] => [word a 0]
  | [] => []

/-- Addition with the carry brought round to the low end. -/
def addAround (x y : Nat) : Nat := if x + y ≤ 0xFFFF then x + y else x + y - 0xFFFF

def sum16 (d : Bytes) : Nat := (words d).foldl addAround 0

def checksum (d : Bytes) : Nat := 0xFFFF - sum16 d

/-- What a receiver checks: the checksum is part of the message. -/
def Verifies (d : Bytes) : Prop := sum16 d = 0xFFFF

def wrap16 (s : Nat) : Nat := if s = 0 then 0 else (s - 1) % 0xFFFF + 1

lemma word_le (a b : UInt8) : word a b ≤ 0xFFFF := by
  have ha := a.toNat_lt
  have hb := b.toNat_lt
  unfold word
  omega

lemma words_le (d : Bytes) : ∀ w ∈ words d, w ≤ 0xFFFF := by
  fun_induction words d <;> simp_all [word_le]

lemma sum_words_le (d : Bytes) : (words d).sum ≤ 0xFFFF * ((d.length + 1) / 2) := by
  fun_induction words d with
  | case1 a b d ih =>
    have hw := word_le a b
    rw [sum_cons, length_cons, length_cons]
    omega
  | case2 a => simpa using word_le a 0
  | case3 => simp

lemma words_append {as bs : Bytes} (h : as.length % 2 = 0) :
    words (as ++ bs) = words as ++ words bs := by
  fun_induction words as with
  | case1 a b as ih => simp [words, ih (by simp only [length_cons] at h; omega)]
  | case2 a => cases h
  | case3 => rfl

lemma sum16_eq (d : Bytes) : sum16 d = wrap16 (words d).sum := by
  unfold sum16
  suffices h : ∀ ws : List Nat, (∀ w ∈ ws, w ≤ 0xFFFF) → ∀ s,
      ws.foldl addAround (wrap16 s) = wrap16 (s + ws.sum) by
    simpa [wrap16] using h _ (words_le d) 0
  intro ws
  induction ws with
  | nil => simp
  | cons w ws ih =>
    intro hle s
    have hw := hle w mem_cons_self
    have hs : addAround (wrap16 s) w = wrap16 (s + w) := by
      unfold addAround wrap16
      split <;> split <;> split <;> omega
    rw [foldl_cons, hs, ih (fun w hw => hle w (mem_cons_of_mem _ hw)), sum_cons, Nat.add_assoc]

lemma words_beBytes {c : Nat} (hc : c ≤ 0xFFFF) : words (beBytes 2 c) = [c] := by
  simp [beBytes, leBytes, words, word]
  omega

lemma verifies_insert {as bs : Bytes} (h : as.length % 2 = 0) (hp : 0 < (words as).sum) :
    Verifies (as ++ (beBytes 2 (checksum (as ++ 0 :: 0 :: bs)) ++ bs)) := by
  -- the checksum is what the other words lack to a multiple of 65535
  have h0 : sum16 (as ++ 0 :: 0 :: bs) = wrap16 ((words as).sum + (words bs).sum) := by
    simp [sum16_eq, words_append h, words, word]
  unfold Verifies
  rw [sum16_eq, words_append h, words_append (by rw [beBytes_length]), checksum,
    words_beBytes (Nat.sub_le ..), h0]
  simp only [sum_append, sum_cons, sum_nil]
  unfold wrap16
  split <;> split <;> omega

end Nt61.Lib
