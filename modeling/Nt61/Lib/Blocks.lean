/-
Blocks — byte strings as sequences of blocks of one size, and loops that undo each other.
-/
import Nt61.Lib.Bytes
import Mathlib.Data.Vector.Defs

namespace Nt61.Lib

open List hiding Vector

/-! ## Blocks of bytes -/

def toBlock (w : Nat) (bytes : Bytes) : Vector UInt8 w := Vector.ofFn fun i => bytes.getD i 0

def takeBlocks (w : Nat) : Nat → Bytes → List (Vector UInt8 w)
  | 0, _ => []
  | n + 1, bytes => toBlock w (bytes.take w) :: takeBlocks w n (bytes.drop w)

def splitBlocks (w : Nat) (bytes : Bytes) : List (Vector UInt8 w) :=
  takeBlocks w (bytes.length / w) bytes

def joinBlocks {w : Nat} (blocks : List (Vector UInt8 w)) : Bytes := blocks.flatMap Vector.toList

lemma get_ofFn {α : Type} {n : Nat} (f : Fin n → α) (i : Fin n) : (Vector.ofFn f).get i = f i := by
  show (Vector.ofFn f)[i.val] = f i
  rw [Vector.getElem_ofFn]

variable {w : Nat} {bytes : Bytes}

lemma toList_toBlock (hl : bytes.length = w) : (toBlock w bytes).toList = bytes := by
  apply ext_getElem
  · rw [Vector.length_toList, hl]
  · intro i hi hi'
    simp [toBlock, getElem?_eq_getElem hi']

lemma toBlock_toList (block : Vector UInt8 w) : toBlock w block.toList = block := by
  apply Vector.toList_inj.mp
  exact toList_toBlock Vector.length_toList

lemma joinBlocks_length (blocks : List (Vector UInt8 w)) :
    (joinBlocks blocks).length = w * blocks.length := by
  unfold joinBlocks
  induction blocks with
  | nil => rfl
  | cons block blocks ih =>
    rw [flatMap_cons, length_append, ih, Vector.length_toList, length_cons,
      Nat.mul_succ, Nat.add_comm]

variable {w n : Nat}

lemma joinBlocks_takeBlocks (hl : bytes.length = w * n) :
    joinBlocks (takeBlocks w n bytes) = bytes := by
  unfold joinBlocks
  induction n generalizing bytes with
  | zero => exact (eq_nil_of_length_eq_zero hl).symm
  | succ n ih =>
    rw [Nat.mul_succ] at hl
    rw [takeBlocks, flatMap_cons, ih (by rw [length_drop]; omega),
      toList_toBlock (by rw [length_take]; omega), take_append_drop]

lemma takeBlocks_joinBlocks (blocks : List (Vector UInt8 w)) :
    takeBlocks w blocks.length (joinBlocks blocks) = blocks := by
  unfold joinBlocks
  induction blocks with
  | nil => rfl
  | cons block blocks ih =>
    rw [length_cons, takeBlocks, flatMap_cons, take_left' Vector.length_toList,
      drop_left' Vector.length_toList, ih, toBlock_toList]

lemma joinBlocks_splitBlocks (hmd : bytes.length % w = 0) :
    joinBlocks (splitBlocks w bytes) = bytes := by
  apply joinBlocks_takeBlocks
  have hsp := Nat.div_add_mod bytes.length w
  omega

lemma splitBlocks_joinBlocks (hw : 0 < w) (blocks : List (Vector UInt8 w)) :
    splitBlocks w (joinBlocks blocks) = blocks := by
  unfold splitBlocks
  rw [joinBlocks_length, Nat.mul_div_cancel_left _ hw, takeBlocks_joinBlocks]

/-! ## Chunks: the last one may be short -/

def takeChunks (w : Nat) : Nat → Bytes → List Bytes
  | 0, _ => []
  | n + 1, bytes => bytes.take w :: takeChunks w n (bytes.drop w)

/-- A byte string cut into pieces of `w` bytes. -/
def chunks (w : Nat) (bytes : Bytes) : List Bytes := takeChunks w ((bytes.length + w - 1) / w) bytes

lemma takeChunks_length (w n : Nat) (bytes : Bytes) : (takeChunks w n bytes).length = n := by
  induction n generalizing bytes with
  | zero => rfl
  | succ n ih => rw [takeChunks, length_cons, ih]

lemma length_le_of_mem_takeChunks {bytes chunk : Bytes}
    (h : chunk ∈ takeChunks w n bytes) : chunk.length ≤ w := by
  induction n generalizing bytes with
  | zero => cases h
  | succ n ih =>
    rw [takeChunks, mem_cons] at h
    rcases h with rfl | h
    · exact length_take_le w bytes
    · exact ih h

lemma flatten_takeChunks (hl : bytes.length ≤ w * n) : (takeChunks w n bytes).flatten = bytes := by
  induction n generalizing bytes with
  | zero => exact (eq_nil_of_length_eq_zero (by omega)).symm
  | succ n ih =>
    rw [Nat.mul_succ] at hl
    rw [takeChunks, flatten_cons, ih (by rw [length_drop]; omega), take_append_drop]

lemma takeChunks_flatten {pieces : List Bytes}
    (h : pieces.map length = (takeChunks w n bytes).map length) :
    takeChunks w n pieces.flatten = pieces := by
  induction n generalizing bytes pieces with
  | zero =>
    rw [map_eq_nil_iff.mp h]
    rfl
  | succ n ih =>
    obtain ⟨piece, rest, rfl, hpc, hr⟩ := map_eq_cons_iff.mp h
    rw [length_take] at hpc
    rw [takeChunks, flatten_cons]
    by_cases hfl : w ≤ bytes.length
    · rw [take_left' (by omega), drop_left' (by omega), ih hr]
    -- a short piece is the last one with anything in it
    have hn : rest.flatten = [] := by
      have hsm := congrArg sum hr
      rw [← length_flatten, ← length_flatten, drop_eq_nil_of_le (by omega),
        flatten_takeChunks (Nat.zero_le _)] at hsm
      exact eq_nil_of_length_eq_zero hsm
    have hih := ih hr
    rw [hn] at hih
    rw [hn, append_nil, take_of_length_le (by omega), drop_eq_nil_of_le (by omega), hih]

lemma takeChunks_inj {bytes' : Bytes} (hl : bytes.length = bytes'.length)
    (hn : bytes.length ≤ w * n)
    (h : (takeChunks w n bytes).map (toBlock w) = (takeChunks w n bytes').map (toBlock w)) :
    bytes = bytes' := by
  induction n generalizing bytes bytes' with
  | zero =>
    obtain rfl := eq_nil_of_length_eq_zero (Nat.le_zero.mp hn)
    exact (eq_nil_of_length_eq_zero hl.symm).symm
  | succ n ih =>
    rw [Nat.mul_succ] at hn
    rw [takeChunks, takeChunks, map_cons, map_cons, cons.injEq] at h
    have hdr := ih (by simp [hl]) (by rw [length_drop]; omega) h.2
    have hta : bytes.take w = bytes'.take w := by
      refine ext_getElem (by simp [hl]) fun i hi hi' => ?_
      have hby := congrArg (·.toList[i]?) h.1
      simp only [length_take, lt_min_iff] at hi hi'
      simpa [toBlock, hi, hi'] using hby
    rw [← take_append_drop w bytes, hta, hdr, take_append_drop]

section

variable {w : Nat} {bytes : Bytes}

lemma chunks_length : (chunks w bytes).length = (bytes.length + w - 1) / w :=
  takeChunks_length _ _ _

lemma length_le_of_mem_chunks {chunk : Bytes} (h : chunk ∈ chunks w bytes) : chunk.length ≤ w :=
  length_le_of_mem_takeChunks h

lemma flatten_chunks (hw : 0 < w) (bytes : Bytes) : (chunks w bytes).flatten = bytes := by
  apply flatten_takeChunks
  have hdv := Nat.div_add_mod (bytes.length + w - 1) w
  have hmd := Nat.mod_lt (bytes.length + w - 1) hw
  omega

lemma chunks_flatten {pieces : List Bytes} (hw : 0 < w)
    (h : pieces.map length = (chunks w bytes).map length) : chunks w pieces.flatten = pieces := by
  have hl : pieces.flatten.length = bytes.length := by
    rw [length_flatten, h, ← length_flatten, flatten_chunks hw]
  unfold chunks
  rw [hl]
  exact takeChunks_flatten h

end

/-! ## Exclusive or -/

lemma xor_xor_cancel (a b : Vector UInt8 w) :
    Vector.zipWith (· ^^^ ·) (Vector.zipWith (· ^^^ ·) a b) b = a := by
  apply Vector.ext
  intro i hi
  rw [Vector.getElem_zipWith, Vector.getElem_zipWith, UInt8.xor_assoc, UInt8.xor_self,
    UInt8.xor_zero]

/-! ## Loops that undo each other -/

/-- A loop run backwards, if each of its rounds takes back the same round of the first loop. Between
the two loops the states differ by `h`. -/
lemma foldl_reverse_undo {σ ι : Type} {f g : σ → ι → σ} {h : σ → σ}
    (hro : ∀ s i, g (h (f s i)) i = h s) (is : List ι) (s : σ) :
    is.reverse.foldl g (h (is.foldl f s)) = h s := by
  induction is generalizing s with
  | nil => rfl
  | cons i is ih =>
    rw [reverse_cons, foldl_append]
    show g (is.reverse.foldl g (h (is.foldl f (f s i)))) i = h s
    rw [ih, hro]

end Nt61.Lib
