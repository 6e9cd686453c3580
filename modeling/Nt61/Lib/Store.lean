/-
Store — byte-addressed memory: windows, block writes, and the little-endian integers in it.

The laws everything else rests on: what a write does and does not change (`blit_inside`,
`blit_outside`), and that reading a block, patching it and writing it back is the patch alone
(`blit_blit_window`).
-/
import Mathlib.Data.List.GetD
import Nt61.Lib.Bytes

namespace Nt61.Lib

open List

/-- The byte at every address. -/
abbrev Store := Nat → UInt8

namespace Store

def window (m : Store) (a : Nat) : Store := fun i => m (a + i)

def blit (m : Store) (a n : Nat) (src : Store) : Store :=
  fun p => if a ≤ p ∧ p < a + n then src (p - a) else m p

/-- A byte string as memory, followed by zeros. -/
def ofBytes (bs : Bytes) : Store := fun i => bs.getD i 0

/-- The `n` bytes from address `a` on. -/
def slice (m : Store) (a n : Nat) : Bytes := (range n).map fun i => m (a + i)

/-- The `n`-byte little-endian integer at address `a`. -/
def readLe (m : Store) (a n : Nat) : Nat := leValue (m.slice a n)

/-! ## Writes -/

variable (m : Store)

lemma blit_inside (a n : Nat) (src : Store) {i : Nat} (hi : i < n) :
    m.blit a n src (a + i) = src i := by
  unfold blit
  rw [if_pos ⟨Nat.le_add_right a i, Nat.add_lt_add_left hi a⟩, Nat.add_sub_cancel_left]

lemma blit_outside {a n p : Nat} (src : Store) (h : p < a ∨ a + n ≤ p) :
    m.blit a n src p = m p := by
  unfold blit
  rw [if_neg (by omega)]

/-- **Read, patch, write back** is the patch alone. -/
lemma blit_blit_window {a len off n : Nat} (src : Store) (h : off + n ≤ len) :
    m.blit a len ((m.window a).blit off n src) = m.blit (a + off) n src := by
  funext p
  unfold blit window
  by_cases hp : a ≤ p ∧ p < a + len
  · rw [if_pos hp]
    by_cases hq : off ≤ p - a ∧ p - a < off + n
    · rw [if_pos hq, if_pos (by omega), Nat.sub_sub]
    · rw [if_neg hq, if_neg (by omega), Nat.add_sub_cancel' hp.1]
  · rw [if_neg hp, if_neg (by omega)]

variable {a n : Nat}

lemma blit_congr {src src' : Store} (h : ∀ i, i < n → src i = src' i) :
    m.blit a n src = m.blit a n src' := by
  funext p
  unfold blit
  by_cases hp : a ≤ p ∧ p < a + n
  · rw [if_pos hp, if_pos hp]
    exact h _ (by omega)
  · rw [if_neg hp, if_neg hp]

lemma blit_zero (a : Nat) (src : Store) : m.blit a 0 src = m := by
  funext p
  exact blit_outside m src (by omega)

lemma blit_blit_adjacent (a n k : Nat) (src : Store) :
    (m.blit a n src).blit (a + n) k (src.window n) = m.blit a (n + k) src := by
  funext p
  unfold blit window
  by_cases h2 : a + n ≤ p ∧ p < a + n + k
  · rw [if_pos h2, if_pos (by omega), show n + (p - (a + n)) = p - a by omega]
  rw [if_neg h2]
  by_cases h1 : a ≤ p ∧ p < a + n
  · rw [if_pos h1, if_pos (by omega)]
  · rw [if_neg h1, if_neg (by omega)]

lemma window_window (a b : Nat) : (m.window a).window b = m.window (a + b) := by
  funext i
  unfold window
  rw [Nat.add_assoc]

lemma window_blit_same (a n : Nat) (src : Store) :
    (m.blit a n src).window a = (m.window a).blit 0 n src := by
  funext i
  unfold window blit
  by_cases hi : i < n
  · rw [if_pos (by omega), if_pos (by omega), Nat.add_sub_cancel_left, Nat.sub_zero]
  · rw [if_neg (by omega), if_neg (by omega)]

/-! ## Slices and integers -/

@[simp] lemma slice_length (a n : Nat) : (m.slice a n).length = n := by simp [slice]

lemma slice_congr {m m' : Store} (h : ∀ i, i < n → m (a + i) = m' (a + i)) :
    m.slice a n = m'.slice a n := by
  refine map_congr_left ?_
  intro i hi
  exact h i (mem_range.mp hi)

lemma slice_blit_ofBytes (a : Nat) (bs : Bytes) :
    (m.blit a bs.length (ofBytes bs)).slice a bs.length = bs := by
  refine ext_getElem (by simp) ?_
  intro i hi hi'
  simp only [slice, getElem_map, getElem_range]
  rw [blit_inside m a _ _ hi', ofBytes, getD_eq_getElem _ _ hi']

lemma readLe_congr {m m' : Store} (h : ∀ i, i < n → m (a + i) = m' (a + i)) :
    m.readLe a n = m'.readLe a n :=
  congrArg leValue (slice_congr h)

lemma readLe_blit_same (a n v : Nat) :
    (m.blit a n (ofBytes (leBytes n v))).readLe a n = v % 256 ^ n := by
  have hsl := slice_blit_ofBytes m a (leBytes n v)
  rw [leBytes_length] at hsl
  rw [readLe, hsl, leValue_leBytes]

lemma readLe_blit_disjoint {a n b k : Nat} (src : Store)
    (h : b + k ≤ a ∨ a + n ≤ b) : (m.blit a n src).readLe b k = m.readLe b k := by
  refine readLe_congr ?_
  intro i hi
  exact blit_outside m src (by omega)

/-! ## Records in memory -/

lemma window_ofBytes_append (front rest : Bytes) :
    (ofBytes (front ++ rest)).window front.length = ofBytes rest := by
  funext i
  unfold window ofBytes
  rw [getD_append_right _ _ _ _ (Nat.le_add_right _ _), Nat.add_sub_cancel_left]

lemma slice_ofBytes_append (front rest : Bytes) :
    (ofBytes (front ++ rest)).slice 0 front.length = front := by
  refine ext_getElem (by simp) ?_
  intro i hi hi'
  simp only [slice, getElem_map, getElem_range, ofBytes, Nat.zero_add]
  rw [getD_append _ _ _ _ hi', getD_eq_getElem _ _ hi']

lemma readLe_of_window {m : Store} {a n v : Nat} {rest : Bytes}
    (h : m.window a = ofBytes (leBytes n v ++ rest)) :
    m.readLe a n = v % 256 ^ n ∧ m.window (a + n) = ofBytes rest := by
  have hl := leBytes_length n v
  constructor
  · have hsl : m.slice a n = (m.window a).slice 0 n := by simp only [slice, window, Nat.zero_add]
    have hft := slice_ofBytes_append (leBytes n v) rest
    rw [hl] at hft
    rw [readLe, hsl, h, hft, leValue_leBytes]
  have hr := window_ofBytes_append (leBytes n v) rest
  rw [hl] at hr
  rw [← window_window, h, hr]

end Store

end Nt61.Lib
