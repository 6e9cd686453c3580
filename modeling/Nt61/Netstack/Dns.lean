/-
Dns — the reader of a DNS response, `netstack/dns.rs`.

A read outside the buffer stops the program; `None` is the error. Positions are moved by the lengths
in the packet and may be behind its end, but every read comes after a test.
-/
import Nt61.Lib.Fallible
import Nt61.Lib.Fields

namespace Nt61.Dns

open Lib Fallible

variable (buf : Bytes)

def skipLabels : Nat → Nat → Fallible Unit Nat
  | 0, _ => throw ()
  | rounds + 1, off => do
    let len ← orPanic buf[off]?
    if len = 0 then return off + 1
    else if len &&& 0xC0 = 0xC0 then return off + 2
    else if len &&& 0xC0 ≠ 0 ∨ buf.length - (off + 1) < len.toNat then throw ()
    else if buf.length ≤ off + (1 + len.toNat) then throw ()
    else skipLabels rounds (off + (1 + len.toNat))

def skipName (off : Nat) : Fallible Unit Nat :=
  if buf.length ≤ off then throw () else skipLabels buf 32 off

def readBe (off n : Nat) : Fallible Unit Nat :=
  orPanic (if off + n ≤ buf.length then some (beValue (slice buf off n)) else none)

def skipQuestions : Nat → Nat → Fallible Unit Nat
  | 0, off => return off
  | qdcount + 1, off => do
    let off ← skipName buf off
    if buf.length < off + 4 then throw () else skipQuestions qdcount (off + 4)

def findAnswer (qtype : Nat) : Nat → Nat → Fallible Unit Nat
  | 0, _ => throw ()
  | ancount + 1, off => do
    let off ← skipName buf off
    if buf.length < off + 10 then throw ()
    else
      let rtype ← readBe buf off 2
      let _rclass ← readBe buf (off + 2) 2
      let _ttl ← readBe buf (off + 4) 4
      let rdlen ← readBe buf (off + 8) 2
      if buf.length < off + 10 + rdlen then throw ()
      else if rtype = qtype ∧ rdlen = 4 ∧ qtype = 1 then readBe buf (off + 10) 4
      else findAnswer qtype ancount (off + 10 + rdlen)

def parseResponse (qtype : Nat) : Fallible Unit Nat :=
  if buf.length < 12 then throw ()
  else do
    let qdcount ← readBe buf 4 2
    let ancount ← readBe buf 6 2
    let off ← skipQuestions buf qdcount 12
    findAnswer buf qtype ancount off

/-- The call does not stop the program, and what it returns satisfies `P`. -/
def Ends {α : Type} (P : α → Prop) (x : Fallible Unit α) : Prop :=
  match x.run with
  | none => False
  | some (.error _) => True
  | some (.ok a) => P a

lemma Ends.bind {α β : Type} {P : α → Prop} {Q : β → Prop} {x : Fallible Unit α}
    {f : α → Fallible Unit β} (hx : Ends P x) (hf : ∀ a, P a → Ends Q (f a)) : Ends Q (x >>= f) := by
  match x with
  | none => exact hx
  | some (.error _) => trivial
  | some (.ok a) => exact hf a hx

def InRecord (addr : Nat) : Prop := ∃ off, off + 14 ≤ buf.length
  ∧ beValue (slice buf off 2) = 1 ∧ beValue (slice buf (off + 8) 2) = 4
  ∧ addr = beValue (slice buf (off + 10) 4)

variable {buf}

lemma readBe_ends {off n : Nat} (h : off + n ≤ buf.length) :
    Ends (· = beValue (slice buf off n)) (readBe buf off n) := by
  unfold readBe
  rw [if_pos h]
  rfl

lemma skipLabels_ends {rounds off : Nat} (h : off < buf.length) :
    Ends (fun _ => True) (skipLabels buf rounds off) := by
  induction rounds generalizing off with
  | zero => trivial
  | succ rounds ih =>
    unfold skipLabels
    rw [List.getElem?_eq_getElem h, orPanic_some, pure_bind]
    split_ifs
    iterate 4 trivial
    exact ih (by omega)

lemma skipName_ends (off : Nat) : Ends (fun _ => True) (skipName buf off) := by
  unfold skipName
  split
  · trivial
  · exact skipLabels_ends (by omega)

lemma skipQuestions_ends (qdcount off : Nat) :
    Ends (fun _ => True) (skipQuestions buf qdcount off) := by
  induction qdcount generalizing off with
  | zero => trivial
  | succ qdcount ih =>
    refine (skipName_ends off).bind fun off _ => ?_
    split
    · trivial
    · exact ih _

lemma findAnswer_ends (qtype ancount off : Nat) :
    Ends (InRecord buf) (findAnswer buf qtype ancount off) := by
  induction ancount generalizing off with
  | zero => trivial
  | succ ancount ih =>
    refine (skipName_ends off).bind fun off _ => ?_
    split
    · trivial
    refine (readBe_ends (by omega)).bind fun rtype hrt => ?_
    refine (readBe_ends (by omega)).bind fun _ _ => ?_
    refine (readBe_ends (by omega)).bind fun _ _ => ?_
    refine (readBe_ends (by omega)).bind fun rdlen hrd => ?_
    split
    · trivial
    split
    · next hfi hmt =>
      rw [not_lt] at hfi
      obtain ⟨rfl, rfl, rfl⟩ := hmt
      unfold readBe
      rw [if_pos hfi]
      exact ⟨off, hfi, hrt.symm, hrd.symm, rfl⟩
    · exact ih _

/-- No packet stops the program, and an address comes from a record inside the packet. -/
theorem parseResponse_ends (buf : Bytes) (qtype : Nat) :
    Ends (InRecord buf) (parseResponse buf qtype) := by
  unfold parseResponse
  split
  · trivial
  refine (readBe_ends (by omega)).bind fun qdcount _ => ?_
  refine (readBe_ends (by omega)).bind fun ancount _ => ?_
  exact (skipQuestions_ends qdcount 12).bind fun off _ => findAnswer_ends qtype ancount off

end Nt61.Dns
