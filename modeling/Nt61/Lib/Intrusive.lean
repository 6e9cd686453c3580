/-
Intrusive — a singly linked list threaded through the memory blocks that it lists.

A block holds its length in its first word and the address of the next block in its second; address
0 ends the list.
-/
import Nt61.Lib.Cover

namespace Nt61.Lib.Intrusive

open Function List

/-! ## Lists in memory -/

/-- Memory holds the list of blocks from `p` on. -/
def Listed (mem : Nat → Nat) : Nat → List Span → Prop
  | p, [] => p = 0
  | p, b :: blocks => p ≠ 0 ∧ p = b.start ∧ mem p = b.length ∧ Listed mem (mem (p + 8)) blocks

variable {mem mem' : Nat → Nat} {p : Nat} {blocks before after : List Span} {b : Span}

lemma Listed.congr (h : Listed mem p blocks)
    (hs : ∀ b ∈ blocks, mem' b.start = mem b.start ∧ mem' (b.start + 8) = mem (b.start + 8)) :
    Listed mem' p blocks := by
  induction blocks generalizing p with
  | nil => exact h
  | cons b blocks ih =>
    obtain ⟨hne, rfl, hl, hr⟩ := h
    obtain ⟨hfs, hsn⟩ := hs b mem_cons_self
    refine ⟨hne, rfl, hfs.trans hl, ?_⟩
    rw [hsn]
    exact ih hr fun c hc => hs c (mem_cons_of_mem _ hc)

/-- The words at the start of two blocks are not the same. -/
def WordsApart (b c : Span) : Prop := b.start + 16 ≤ c.start ∨ c.start + 16 ≤ b.start

def prevOf (prev : Nat) : List Span → Nat
  | [] => prev
  | b :: before => prevOf b.start before

lemma prevOf_mem (b : Span) (before : List Span) :
    ∃ c ∈ b :: before, prevOf b.start before = c.start := by
  induction before generalizing b with
  | nil => exact ⟨b, mem_cons_self, rfl⟩
  | cons c before ih =>
    obtain ⟨d, hd, heq⟩ := ih c
    exact ⟨d, mem_cons_of_mem _ hd, heq⟩

lemma Listed.ne_zero (h : Listed mem p blocks) (hb : b ∈ blocks) : b.start ≠ 0 := by
  induction blocks generalizing p with
  | nil => cases hb
  | cons c blocks ih =>
    obtain ⟨hne, rfl, -, hr⟩ := h
    rcases mem_cons.mp hb with rfl | hb
    · exact hne
    · exact ih hr hb

/-! ## The first block with an answer -/

variable {β : Type}

/-- The first answer of the test, with the addresses before and after. It never ends if the fuel is
used up, and stops the program if the test does. -/
def scan (mem : Nat → Nat) (test : Nat → Nat → Option (Option β)) :
    Nat → Nat → Nat → Option (Option (Nat × Nat × β))
  | 0, _, _ => none
  | fuel + 1, prev, cur =>
    if cur = 0 then some none
    else do
      match ← test cur (mem cur) with
      | some r => some (some (prev, mem (cur + 8), r))
      | none => scan mem test fuel cur (mem (cur + 8))

lemma scan_listed {test : Nat → Nat → Option (Option β)} {q : Span → Option β} {fuel : Nat}
    (prev : Nat) (h : Listed mem p blocks)
    (ht : ∀ b ∈ blocks, test b.start b.length = some (q b)) (hfu : blocks.length < fuel) :
    (scan mem test fuel prev p = some none ∧ ∀ b ∈ blocks, q b = none) ∨
    ∃ before b after r, blocks = before ++ b :: after ∧ q b = some r ∧
      scan mem test fuel prev p = some (some (prevOf prev before, mem (b.start + 8), r)) := by
  induction blocks generalizing p fuel prev with
  | nil =>
    obtain ⟨fuel, rfl⟩ : ∃ n, fuel = n + 1 := ⟨fuel - 1, by simp at hfu; omega⟩
    refine .inl ⟨?_, by simp⟩
    unfold scan
    rw [if_pos (show p = 0 from h)]
  | cons b blocks ih =>
    obtain ⟨fuel, rfl⟩ : ∃ n, fuel = n + 1 := ⟨fuel - 1, by simp at hfu; omega⟩
    obtain ⟨hne, rfl, hl, hr⟩ := h
    have hb := ht b mem_cons_self
    have hs : scan mem test (fuel + 1) prev b.start = (test b.start b.length).bind fun r =>
          match r with
          | some r => some (some (prev, mem (b.start + 8), r))
          | none => scan mem test fuel b.start (mem (b.start + 8)) := by
      rw [scan, if_neg hne, hl]
      rfl
    rw [hs, hb]
    cases hq : q b with
    | some r => exact .inr ⟨[], b, blocks, r, rfl, hq, rfl⟩
    | none =>
      rcases ih b.start hr (fun c hc => ht c (mem_cons_of_mem _ hc))
        (by simpa using hfu) with ⟨hn, ha⟩ | ⟨before, c, after, r, rfl, hc, hso⟩
      · exact .inl ⟨hn, forall_mem_cons.mpr ⟨hq, ha⟩⟩
      · exact .inr ⟨b :: before, c, after, r, rfl, hc, hso⟩

/-! ## All blocks -/

variable {α : Type}

/-- Go over all blocks: `f` is given the address before, the block's own and its length. -/
def foldBlocks (mem : Nat → Nat) (f : α → Nat → Nat → Nat → α) : Nat → Nat → Nat → α → Option α
  | 0, _, _, _ => none
  | fuel + 1, prev, cur, acc =>
    if cur = 0 then some acc
    else foldBlocks mem f fuel cur (mem (cur + 8)) (f acc prev cur (mem cur))

lemma foldBlocks_keeps {f : α → Nat → Nat → Nat → α} {I : α → Prop} {fuel : Nat} {acc : α}
    (prev : Nat) (h : Listed mem p blocks) (hfu : blocks.length < fuel) (hac : I acc)
    (hkp : ∀ before b after acc, blocks = before ++ b :: after → I acc →
      I (f acc (prevOf prev before) b.start b.length)) :
    ∃ acc', foldBlocks mem f fuel prev p acc = some acc' ∧ I acc' := by
  induction blocks generalizing p fuel prev acc with
  | nil =>
    obtain ⟨fuel, rfl⟩ : ∃ n, fuel = n + 1 := ⟨fuel - 1, by simp at hfu; omega⟩
    exact ⟨acc, if_pos h, hac⟩
  | cons b blocks ih =>
    obtain ⟨fuel, rfl⟩ : ∃ n, fuel = n + 1 := ⟨fuel - 1, by simp at hfu; omega⟩
    obtain ⟨hne, rfl, hl, hr⟩ := h
    have hfs := hkp [] b blocks acc rfl hac
    obtain ⟨acc', hfo, hI⟩ := ih b.start hr (by simpa using hfu) hfs
      fun before c after acc heq => hkp (b :: before) c after acc (by rw [heq]; rfl)
    refine ⟨acc', ?_, hI⟩
    rw [foldBlocks, if_neg hne, hl]
    exact hfo

/-! ## Out of the list and into it -/

/-- The list goes on at `next` after `prev`; without a block before, the head does. -/
def relink (mem : Nat → Nat) (head prev next : Nat) : Nat × (Nat → Nat) :=
  if prev = 0 then (next, mem) else (head, update mem (prev + 8) next)

lemma listed_relink_after {next : Nat} {c : Span}
    (h : Listed mem p (c :: before ++ b :: after)) (hnx : Listed mem next after)
    (hap : (c :: before ++ b :: after).Pairwise WordsApart) :
    Listed (update mem (prevOf c.start before + 8) next) p (c :: before ++ after) := by
  induction before generalizing p c with
  | nil =>
    obtain ⟨hne, rfl, hl, -⟩ := h
    have hot : ∀ d ∈ after, WordsApart c d := fun d hd =>
      (pairwise_cons.mp hap).1 d (mem_cons_of_mem _ hd)
    refine ⟨hne, rfl, ?_, ?_⟩
    · rw [update_of_ne (by show c.start ≠ c.start + 8; omega)]
      exact hl
    show Listed _ (update mem (c.start + 8) next (c.start + 8)) after
    rw [update_self]
    refine hnx.congr fun d hd => ?_
    have := hot d hd
    unfold WordsApart at this
    exact ⟨update_of_ne (by show d.start ≠ c.start + 8; omega) _ _,
      update_of_ne (by show d.start + 8 ≠ c.start + 8; omega) _ _⟩
  | cons d before ih =>
    obtain ⟨hne, rfl, hl, hr⟩ := h
    obtain ⟨hc, hpr⟩ := pairwise_cons.mp hap
    -- the word that is written belongs to a later block
    have hwd : c.start + 16 ≤ prevOf d.start before ∨ prevOf d.start before + 16 ≤ c.start := by
      obtain ⟨x, hx, heq⟩ := prevOf_mem d before
      rw [heq]
      exact hc x (mem_append_left _ hx)
    refine ⟨hne, rfl, ?_, ?_⟩
    · show update mem (prevOf d.start before + 8) next c.start = _
      rw [update_of_ne (by omega)]
      exact hl
    show Listed _ (update mem (prevOf d.start before + 8) next (c.start + 8)) _
    rw [update_of_ne (by omega)]
    exact ih hr hpr

lemma listed_relink (h : Listed mem p (before ++ b :: after))
    (hap : (before ++ b :: after).Pairwise WordsApart) :
    Listed (relink mem p (prevOf 0 before) (mem (b.start + 8))).2
      (relink mem p (prevOf 0 before) (mem (b.start + 8))).1 (before ++ after) := by
  have hnx : Listed mem (mem (b.start + 8)) after := by
    clear hap
    induction before generalizing p with
    | nil =>
      obtain ⟨-, rfl, -, hr⟩ := h
      exact hr
    | cons c before ih => exact ih h.2.2.2
  cases before with
  | nil => exact hnx
  | cons c before =>
    have hne : prevOf 0 (c :: before) ≠ 0 := by
      obtain ⟨_, hx, heq⟩ := prevOf_mem c before
      show prevOf c.start before ≠ 0
      rw [heq]
      exact h.ne_zero (mem_append_left _ hx)
    unfold relink
    rw [if_neg hne]
    exact listed_relink_after h hnx hap

lemma listed_cons (h : Listed mem p blocks) (hne : b.start ≠ 0)
    (hap : ∀ c ∈ blocks, WordsApart b c) :
    Listed (update (update mem b.start b.length) (b.start + 8) p) b.start (b :: blocks) := by
  refine ⟨hne, rfl, ?_, ?_⟩
  · rw [update_of_ne (by omega), update_self]
  rw [update_self]
  refine h.congr fun c hc => ?_
  have hws := hap c hc
  unfold WordsApart at hws
  constructor
  · rw [update_of_ne (by omega), update_of_ne (by omega)]
  · rw [update_of_ne (by omega), update_of_ne (by omega)]

end Nt61.Lib.Intrusive
