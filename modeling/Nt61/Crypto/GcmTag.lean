/-
GcmTag — what `Gcm::encrypt` and `Gcm::decrypt` compute.

Blocks are residues modulo x^128 + x^7 + x^2 + x + 1 (`element`): the first bit of the first byte is
the coefficient of 1, `gf128_mul` is multiplication (`element_gf128Mul`), and `compute_ghash`
evaluates the polynomial with the data blocks as coefficients.
-/
import Nt61.Crypto.Gcm
import Nt61.Lib.Gf2
import Nt61.Lib.Bits

namespace Nt61.Crypto

open Lib
open List hiding Vector

/-! ## Counter blocks -/

lemma incrementFrom_eq (front back : Bytes) : incrementFrom front.length (front ++ back)
      = beBytes front.length (beValue front + 1) ++ back := by
  -- from the last byte of the front: only it changes, unless it wraps
  induction front using reverseRecOn generalizing back with
  | nil => rfl
  | append_singleton front byte ih =>
    have hgt : (front ++ [byte] ++ back).getD front.length 0 = byte := by simp
    have hst : ∀ new, (front ++ [byte] ++ back).set front.length new = front ++ (new :: back) := by
      intro new
      simp
    have hv : beValue (front ++ [byte]) = 256 * beValue front + byte.toNat := by
      rw [beValue_append]
      simp [beValue, leValue]
    have hby := byte.toNat_lt
    have hnx : byte + 1 = UInt8.ofNat (byte.toNat + 1) := by rfl
    rw [length_append, length_singleton, incrementFrom, hgt, hst, hv, beBytes_succ, hnx]
    by_cases hla : byte.toNat = 255
    · rw [hla, ih, show (256 * beValue front + 255 + 1) / 256 = beValue front + 1 by omega,
        show (256 * beValue front + 255 + 1) % 256 = 0 by omega, append_assoc]
      rfl
    have hne : UInt8.ofNat (byte.toNat + 1) ≠ 0 := by
      intro h0
      have h := congrArg UInt8.toNat h0
      rw [UInt8.toNat_ofNat', Nat.mod_eq_of_lt (by omega)] at h
      exact Nat.succ_ne_zero _ h
    rw [if_pos hne, show (256 * beValue front + byte.toNat + 1) / 256 = beValue front by omega,
      show (256 * beValue front + byte.toNat + 1) % 256 = byte.toNat + 1 by omega,
      beBytes_beValue, append_assoc]
    rfl

def counterValue (counter : Block) : Nat := beValue counter.toList

variable {counter : Block}

lemma counterValue_incrementCounter (h : counterValue counter + 1 < 2 ^ 128) :
    counterValue (incrementCounter counter) = counterValue counter + 1 := by
  have hlen : counter.toList.length = 16 := Vector.length_toList
  have hin := incrementFrom_eq counter.toList []
  rw [append_nil, append_nil, hlen] at hin
  unfold counterValue incrementCounter
  rw [hin, toList_toBlock (beBytes_length 16 _), beValue_beBytes]
  exact Nat.mod_eq_of_lt h

lemma counterBlocks_values (cs : List Bytes) (h : counterValue counter + cs.length ≤ 2 ^ 128) :
    (counterBlocks counter cs).map counterValue = range' (counterValue counter) cs.length := by
  induction cs generalizing counter with
  | nil => rfl
  | cons chunk rest ih =>
    rw [length_cons] at h
    rw [counterBlocks, map_cons, length_cons, range'_succ]
    cases rest with
    | nil => rfl
    | cons chunk' rest =>
      -- there is another block, so this increment does not wrap
      have hnx := @counterValue_incrementCounter counter (by rw [length_cons] at h; omega)
      rw [ih (by rw [hnx]; omega), hnx]

lemma counterBlocks_nodup {cs : List Bytes}
    (h : counterValue counter + cs.length ≤ 2 ^ 128) : (counterBlocks counter cs).Nodup := by
  apply List.Nodup.of_map counterValue
  rw [counterBlocks_values cs h]
  exact nodup_range'

variable (counter : Block)

lemma counterBlocks_length (cs : List Bytes) : (counterBlocks counter cs).length = cs.length := by
  induction cs generalizing counter with
  | nil => rfl
  | cons chunk rest ih => rw [counterBlocks, length_cons, ih, length_cons]

lemma counterBlocks_congr {cs cs' : List Bytes} (h : cs.length = cs'.length) :
    counterBlocks counter cs = counterBlocks counter cs' := by
  induction cs generalizing counter cs' with
  | nil => rw [eq_nil_of_length_eq_zero h.symm]
  | cons chunk rest ih =>
    obtain ⟨_, _, rfl⟩ := exists_cons_of_length_eq_add_one h.symm
    rw [counterBlocks, counterBlocks, ih _ (Nat.succ_injective h)]

/-! ## The counter loop -/

def ctrPiece (encryptBlock : Block → Block) (chunk : Bytes) (counter : Block) : Bytes :=
  zipWith (· ^^^ ·) chunk (encryptBlock counter).toList

section

variable {encryptBlock : Block → Block}

lemma ctrLoop_eq (cs : List Bytes) : ctrLoop encryptBlock counter cs
      = (zipWith (ctrPiece encryptBlock) cs (counterBlocks counter cs)).flatten := by
  induction cs generalizing counter with
  | nil => rfl
  | cons chunk rest ih =>
    rw [ctrLoop, ih]
    rfl

lemma ctrPiece_length {chunk : Bytes} (h : chunk.length ≤ 16) :
    (ctrPiece encryptBlock chunk counter).length = chunk.length := by
  unfold ctrPiece
  rw [length_zipWith, Vector.length_toList]
  omega

lemma ctrPiece_undo {chunk : Bytes} (h : chunk.length ≤ 16) :
    ctrPiece encryptBlock (ctrPiece encryptBlock chunk counter) counter = chunk := by
  apply zipWith_xor_undo
  rw [Vector.length_toList]
  exact h

section

variable {cs : List Bytes} {counters : List Block} (hlen : counters.length = cs.length)
  (h : ∀ chunk ∈ cs, chunk.length ≤ 16)
include hlen h

lemma ctrPieces_lengths :
    (zipWith (ctrPiece encryptBlock) cs counters).map length = cs.map length := by
  induction cs generalizing counters with
  | nil => rfl
  | cons chunk rest ih =>
    obtain ⟨counter, counters, rfl⟩ := exists_cons_of_length_eq_add_one hlen
    rw [zipWith_cons_cons, map_cons, map_cons,
      ih (Nat.succ_injective hlen) fun c hc => h c (mem_cons_of_mem chunk hc),
      ctrPiece_length counter (h chunk mem_cons_self)]

lemma ctrPieces_undo :
    zipWith (ctrPiece encryptBlock) (zipWith (ctrPiece encryptBlock) cs counters) counters
      = cs := by
  induction cs generalizing counters with
  | nil => rfl
  | cons chunk rest ih =>
    obtain ⟨counter, counters, rfl⟩ := exists_cons_of_length_eq_add_one hlen
    rw [zipWith_cons_cons, zipWith_cons_cons,
      ih (Nat.succ_injective hlen) fun c hc => h c (mem_cons_of_mem chunk hc),
      ctrPiece_undo counter (h chunk mem_cons_self)]

end

lemma ctrLoop_length (data : Bytes) :
    (ctrLoop encryptBlock counter (chunks 16 data)).length = data.length := by
  rw [ctrLoop_eq, length_flatten,
    ctrPieces_lengths (counterBlocks_length _ _) fun _ hc => length_le_of_mem_chunks hc,
    ← length_flatten, flatten_chunks (by decide)]

lemma ctrLoop_undo (data : Bytes) :
    ctrLoop encryptBlock counter (chunks 16 (ctrLoop encryptBlock counter (chunks 16 data)))
      = data := by
  have hsh : ∀ chunk ∈ chunks 16 data, chunk.length ≤ 16 := fun _ hc => length_le_of_mem_chunks hc
  have hcn : (counterBlocks counter (chunks 16 data)).length = (chunks 16 data).length :=
    counterBlocks_length _ _
  have hln := @ctrPieces_lengths encryptBlock _ _ hcn hsh
  rw [ctrLoop_eq counter (chunks 16 data), chunks_flatten (by decide) hln, ctrLoop_eq]
  have hs : (zipWith (ctrPiece encryptBlock) (chunks 16 data)
      (counterBlocks counter (chunks 16 data))).length = (chunks 16 data).length := by
    rw [length_zipWith, hcn, Nat.min_self]
  rw [counterBlocks_congr counter hs, ctrPieces_undo hcn hsh, flatten_chunks (by decide)]

end

/-! ## Blocks as residues -/

open Polynomial

/-- x^128 + x^7 + x^2 + x + 1. -/
noncomputable def gcmModulus : (ZMod 2)[X] := X ^ 128 + X ^ 7 + X ^ 2 + X + 1

def reductionBit (i : Nat) : Bool := i == 0 || i == 1 || i == 2 || i == 7

lemma gcmModulus_eq : gcmModulus = X ^ 128 + bitPoly 128 reductionBit := by
  have hlw : bitPoly 128 reductionBit = X ^ 7 + X ^ 2 + X + 1 := by
    ext k
    rw [coeff_bitPoly]
    simp only [coeff_add, coeff_X_pow, coeff_X, coeff_one]
    by_cases hk : k < 8
    · interval_cases k <;> simp [reductionBit, bit]
    have hbt : reductionBit k = false := by
      simp only [reductionBit, Bool.or_eq_false_iff, beq_eq_false_iff_ne]
      omega
    rw [hbt, if_neg (show ¬ k = 7 by omega), if_neg (show ¬ k = 2 by omega),
      if_neg (show ¬ 1 = k by omega), if_neg (show ¬ k = 0 by omega)]
    split_ifs <;> rfl
  unfold gcmModulus
  rw [hlw, ← add_assoc, ← add_assoc, ← add_assoc]

/-- Bit `i` of a block in the order of GCM: from the first byte, its most significant bit first. -/
def blockBit (block : Block) (i : Nat) : Bool :=
  (block.toList.getD (i / 8) 0).toNat.testBit (7 - i % 8)

noncomputable def element (block : Block) : AdjoinRoot gcmModulus :=
  AdjoinRoot.mk gcmModulus (bitPoly 128 (blockBit block))

lemma block_ext_bits {a b : Block} (h : ∀ i < 128, blockBit a i = blockBit b i) : a = b := by
  apply Vector.ext
  intro k hk
  apply UInt8.toNat_inj.mp
  apply Nat.eq_of_testBit_eq
  intro j
  by_cases hj : j < 8
  · have hbt := h (8 * k + (7 - j)) (by omega)
    unfold blockBit at hbt
    rw [show (8 * k + (7 - j)) / 8 = k by omega, show 7 - (8 * k + (7 - j)) % 8 = j by omega] at hbt
    simpa [hk] using hbt
  rw [Nat.testBit_lt_two_pow (lt_of_lt_of_le (UInt8.toNat_lt _)
      (Nat.pow_le_pow_right (by decide) (Nat.not_lt.mp hj))),
    Nat.testBit_lt_two_pow (lt_of_lt_of_le (UInt8.toNat_lt _)
      (Nat.pow_le_pow_right (by decide) (Nat.not_lt.mp hj)))]

lemma element_injective : Function.Injective element := by
  intro a b h
  exact block_ext_bits (bits_eq_of_mk_eq gcmModulus_eq h)

lemma element_zero : element (Vector.replicate 16 0) = 0 := by
  have hbi : ∀ i < 128, blockBit (Vector.replicate 16 0) i = false := by decide
  unfold element
  rw [bitPoly_congr hbi, bitPoly_false, map_zero]

lemma element_xorBlocks (a b : Block) : element (xorBlocks a b) = element a + element b := by
  have hbi : ∀ i < 128, blockBit (xorBlocks a b) i = (blockBit a i ^^ blockBit b i) := by
    intro i hi
    have hk : i / 8 < 16 := by omega
    unfold blockBit xorBlocks
    simp [hk]
  unfold element
  rw [bitPoly_congr hbi, bitPoly_xor, map_add]

/-! ### The halves -/

namespace Halves

/-- Bit `i` of the block that the halves spell. -/
def bitAt (z : Halves) (i : Nat) : Bool :=
  if i < 64 then z.high.toNat.testBit (63 - i) else z.low.toNat.testBit (127 - i)

noncomputable def value (z : Halves) : AdjoinRoot gcmModulus :=
  AdjoinRoot.mk gcmModulus (bitPoly 128 z.bitAt)

variable {i : Nat}

lemma testBit_beValue_eight {bytes : Bytes} (hlen : bytes.length = 8) (hi : i < 64) :
    (beValue bytes).testBit (63 - i) = (bytes.getD (i / 8) 0).toNat.testBit (7 - i % 8) := by
  unfold beValue
  rw [testBit_leValue, show (63 - i) % 8 = 7 - i % 8 by omega, getD_eq_getElem?_getD,
    getElem?_reverse (by omega), show bytes.length - 1 - (63 - i) / 8 = i / 8 by omega,
    ← getD_eq_getElem?_getD]

lemma toNat_ofNat_beValue {bytes : Bytes} (hlen : bytes.length = 8) :
    (UInt64.ofNat (beValue bytes)).toNat = beValue bytes := by
  have hlt := beValue_lt bytes
  rw [hlen] at hlt
  exact UInt64.toNat_ofNat_of_lt' hlt

lemma bitAt_ofBlock (block : Block) (hi : i < 128) :
    (ofBlock block).bitAt i = blockBit block i := by
  have hta : (block.toList.take 8).length = 8 := by simp
  have hdr : (block.toList.drop 8).length = 8 := by simp
  unfold bitAt blockBit ofBlock
  by_cases hhi : i < 64
  · rw [if_pos hhi, toNat_ofNat_beValue hta, testBit_beValue_eight hta hhi,
      getD_eq_getElem?_getD, getElem?_take_of_lt (by omega),
      ← getD_eq_getElem?_getD]
  rw [if_neg hhi, toNat_ofNat_beValue hdr,
    show 127 - i = 63 - (i - 64) by omega, testBit_beValue_eight hdr (by omega),
    getD_eq_getElem?_getD, getElem?_drop, ← getD_eq_getElem?_getD,
    show 8 + (i - 64) / 8 = i / 8 by omega, show (i - 64) % 8 = i % 8 by omega]

lemma ofBlock_toBlock (z : Halves) : ofBlock z.toBlock = z := by
  have hby : z.toBlock.toList = beBytes 8 z.high.toNat ++ beBytes 8 z.low.toNat :=
    toList_toBlock (by rw [length_append, beBytes_length, beBytes_length])
  unfold ofBlock
  rw [hby, take_left' (beBytes_length _ _), drop_left' (beBytes_length _ _),
    beValue_beBytes, beValue_beBytes]
  have hro : ∀ w : UInt64, UInt64.ofNat (w.toNat % 256 ^ 8) = w := by
    intro w
    rw [Nat.mod_eq_of_lt (show w.toNat < 256 ^ 8 from w.toNat_lt), UInt64.ofNat_toNat]
  rw [hro, hro]

lemma value_ofBlock (block : Block) : (ofBlock block).value = element block := by
  unfold value element
  rw [bitPoly_congr fun i hi => bitAt_ofBlock block hi]

lemma element_toBlock (z : Halves) : element z.toBlock = z.value := by
  rw [← value_ofBlock, ofBlock_toBlock]

lemma value_xor (z v : Halves) : (z.xor v).value = z.value + v.value := by
  have hbi : ∀ i < 128, (z.xor v).bitAt i = (z.bitAt i ^^ v.bitAt i) := by
    intro i _
    unfold bitAt xor
    split <;> rw [UInt64.toNat_xor, Nat.testBit_xor]
  unfold value
  rw [bitPoly_congr hbi, bitPoly_xor, map_add]

variable (w : UInt64)

lemma and_one_ne_zero : w &&& 1 ≠ 0 ↔ w.toNat.testBit 0 = true := by
  rw [Nat.testBit_zero, decide_eq_true_iff, ne_eq, ← UInt64.toNat_inj, UInt64.toNat_and,
    UInt64.toNat_one, Nat.and_one_is_mod, UInt64.toNat_zero]
  omega

lemma testBit_carry {k : Nat} (hk : k < 64) :
    ((w &&& 1) <<< 63).toNat.testBit k = (decide (k = 63) && w.toNat.testBit 0) := by
  have hsh : (63 : UInt64).toNat % 64 = 63 := rfl
  rw [UInt64.toNat_shiftLeft, hsh, Nat.testBit_mod_two_pow, decide_eq_true hk, Bool.true_and,
    Nat.testBit_shiftLeft]
  by_cases htp : k = 63
  · subst htp
    simp
  · rw [decide_eq_false (show ¬ 63 ≤ k by omega), decide_eq_false htp, Bool.false_and,
      Bool.false_and]

lemma testBit_mask : ∀ i < 64,
    (0xe100000000000000 : UInt64).toNat.testBit (63 - i) = reductionBit i := by
  decide

lemma testBit_shiftRight_one (k : Nat) : (w >>> 1).toNat.testBit k = w.toNat.testBit (k + 1) := by
  have hsh : (1 : UInt64).toNat % 64 = 1 := rfl
  rw [UInt64.toNat_shiftRight, hsh, Nat.testBit_shiftRight, Nat.add_comm]

lemma testBit_word_eq_false : w.toNat.testBit 64 = false := Nat.testBit_lt_two_pow w.toNat_lt

/-- The block one bit to the right, before the reduction. -/
def moved (v : Halves) : Halves := ⟨v.high >>> 1, (v.low >>> 1) ||| ((v.high &&& 1) <<< 63)⟩

variable (v : Halves)

lemma bitAt_moved (hi : i < 128) : v.moved.bitAt i = shiftUp v.bitAt i := by
  unfold bitAt moved
  by_cases hhi : i < 64
  · rw [if_pos hhi, testBit_shiftRight_one]
    cases i with
    | zero => exact testBit_word_eq_false v.high
    | succ i =>
      show _ = if i < 64 then _ else _
      rw [if_pos (by omega), show 63 - (i + 1) + 1 = 63 - i by omega]
  rw [if_neg hhi, UInt64.toNat_or, Nat.testBit_or, testBit_shiftRight_one,
    testBit_carry v.high (by omega)]
  obtain ⟨j, rfl⟩ : ∃ j, i = j + 1 := ⟨i - 1, by omega⟩
  show _ = if j < 64 then v.high.toNat.testBit (63 - j) else v.low.toNat.testBit (127 - j)
  by_cases hed : j = 63
  · -- the bit that crosses from the high half into the low one
    subst hed
    rw [testBit_word_eq_false]
    simp
  · rw [if_neg (show ¬ j < 64 by omega), decide_eq_false (show ¬ 127 - (j + 1) = 63 by omega),
      Bool.false_and, Bool.or_false, show 127 - (j + 1) + 1 = 127 - j by omega]

lemma bitAt_shift (hi : i < 128) : v.shift.bitAt i = shiftIn 128 reductionBit v.bitAt i := by
  have htp : shiftUp v.bitAt 128 = v.low.toNat.testBit 0 := rfl
  unfold shiftIn
  rw [← bitAt_moved v hi, htp]
  show (if v.low &&& 1 ≠ 0 then (⟨v.moved.high ^^^ 0xe100000000000000, v.moved.low⟩ : Halves)
    else v.moved).bitAt i = _
  by_cases hls : v.low &&& 1 ≠ 0
  · rw [if_pos hls, (and_one_ne_zero v.low).mp hls, Bool.true_and]
    unfold bitAt
    by_cases hhi : i < 64
    · rw [if_pos hhi, if_pos hhi, UInt64.toNat_xor, Nat.testBit_xor, testBit_mask i hhi]
    have hma : reductionBit i = false := by
      simp only [reductionBit, Bool.or_eq_false_iff, beq_eq_false_iff_ne]
      omega
    rw [if_neg hhi, if_neg hhi, hma, Bool.xor_false]
  have hbt : v.low.toNat.testBit 0 = false := by
    rw [← Bool.not_eq_true, ← and_one_ne_zero]
    exact hls
  rw [if_neg hls, hbt, Bool.false_and, Bool.xor_false]

lemma value_shift : v.shift.value = AdjoinRoot.mk gcmModulus X * v.value := by
  unfold value
  rw [← mk_shiftIn gcmModulus_eq, bitPoly_congr fun i hi => bitAt_shift v hi]

lemma value_zero : value ⟨0, 0⟩ = 0 := by
  have hbi : ∀ i < 128, bitAt ⟨0, 0⟩ i = false := by
    intro i _
    simp [bitAt]
  unfold value
  rw [bitPoly_congr hbi, bitPoly_false, map_zero]

end Halves

/-! ### The product -/

lemma shiftRight_and_one_ne_zero (byte : UInt8) {k : Nat} (hk : k < 8) :
    (byte >>> UInt8.ofNat k) &&& 1 ≠ 0 ↔ byte.toNat.testBit k = true := by
  have hsh : (UInt8.ofNat k).toNat % 8 = k := by
    rw [UInt8.toNat_ofNat']
    omega
  rw [ne_eq, ← UInt8.toNat_inj, UInt8.toNat_and, UInt8.toNat_shiftRight, hsh,
    Nat.testBit_eq_decide_div_mod_eq, Nat.shiftRight_eq_div_pow]
  simp

lemma mulBit_eq (byte : UInt8) (state : Halves × Halves) {k : Nat} (hk : k < 8) :
    mulBit byte state (UInt8.ofNat k)
      = shiftAdd Halves.xor Halves.shift state (byte.toNat.testBit k) := by
  unfold mulBit shiftAdd
  simp only [shiftRight_and_one_ne_zero byte hk]

lemma mulByte_eq (state : Halves × Halves) (byte : UInt8) : mulByte state byte
      = ((range 8).map fun i => byte.toNat.testBit (7 - i)).foldl
          (shiftAdd Halves.xor Halves.shift) state := by
  have hin : ([7, 6, 5, 4, 3, 2, 1, 0] : List UInt8)
      = (range 8).map fun i => UInt8.ofNat (7 - i) := by decide
  unfold mulByte
  rw [hin, foldl_map, foldl_map]
  apply foldl_ext
  intro state i _
  exact mulBit_eq byte state (by omega)

lemma foldl_mulByte (bytes : Bytes) (state : Halves × Halves) : bytes.foldl mulByte state
      = ((range (8 * bytes.length)).map
          fun i => (bytes.getD (i / 8) 0).toNat.testBit (7 - i % 8)).foldl
          (shiftAdd Halves.xor Halves.shift) state := by
  induction bytes generalizing state with
  | nil => rfl
  | cons byte bytes ih =>
    have hfs : ∀ i ∈ range 8, byte.toNat.testBit (7 - i)
        = ((byte :: bytes).getD (i / 8) 0).toNat.testBit (7 - i % 8) := by
      intro i hi
      have hlt : i < 8 := mem_range.mp hi
      rw [Nat.div_eq_of_lt hlt, Nat.mod_eq_of_lt hlt]
      rfl
    have hr : ∀ i ∈ range (8 * bytes.length), (bytes.getD (i / 8) 0).toNat.testBit (7 - i % 8)
          = ((byte :: bytes).getD ((8 + i) / 8) 0).toNat.testBit (7 - (8 + i) % 8) := by
      intro i _
      rw [Nat.add_div_left _ (by decide), Nat.add_mod_left]
      rfl
    rw [foldl_cons, ih, mulByte_eq, map_congr_left hfs, map_congr_left hr, length_cons,
      show 8 * (bytes.length + 1) = 8 + 8 * bytes.length by omega, range_add, map_append, map_map]
    rfl

lemma element_gf128Mul (x h : Block) : element (gf128Mul x h) = element x * element h := by
  have hfo := (foldl_shiftAdd Halves.value_xor Halves.value_shift (blockBit x) 128 ⟨0, 0⟩
    (Halves.ofBlock h)).1
  rw [Halves.value_zero, zero_add, Halves.value_ofBlock] at hfo
  unfold gf128Mul
  rw [Halves.element_toBlock, foldl_mulByte, Vector.length_toList]
  exact hfo

/-! ## GHASH -/

/-- The associated data and the ciphertext, each filled up with zeros to whole blocks, and the block
of their lengths in bits. -/
def ghashBlocks (aad ciphertext : Bytes) : List Block :=
  (chunks AES_BLOCK_SIZE aad).map (toBlock 16) ++ (chunks AES_BLOCK_SIZE ciphertext).map (toBlock 16)
    ++ [toBlock 16 (beBytes 8 (aad.length * 8) ++ beBytes 8 (ciphertext.length * 8))]

/-- The polynomial of GHASH: of `m` blocks the first is the coefficient of `X ^ m`, the last of `X`. -/
noncomputable def ghashPolynomial (aad ciphertext : Bytes) : (AdjoinRoot gcmModulus)[X] :=
  hornerPoly ((ghashBlocks aad ciphertext).map element)

/-- The polynomial tells the data apart: the last block has the lengths. -/
lemma ghashPolynomial_inj {aad aad' ciphertext ciphertext' : Bytes}
    (hsh : ∀ data ∈ [aad, aad', ciphertext, ciphertext'], data.length < 2 ^ 61)
    (h : ghashPolynomial aad ciphertext = ghashPolynomial aad' ciphertext') :
    aad = aad' ∧ ciphertext = ciphertext' := by
  simp only [forall_mem_cons] at hsh
  obtain ⟨had, had', hcp, hcp', -⟩ := hsh
  unfold ghashPolynomial ghashBlocks at h
  have hla := congrArg (coeff · 1) h
  simp only [coeff_hornerPoly, map_append, map_cons, map_nil, reverse_append, reverse_cons,
    reverse_nil, nil_append, cons_append, getElem?_cons_succ, getElem?_cons_zero,
    Option.getD_some] at hla
  have hby := congrArg Vector.toList (element_injective hla)
  rw [toList_toBlock (by simp [beBytes_length]), toList_toBlock (by simp [beBytes_length])] at hby
  have hln {m n : Nat} (hm : m < 2 ^ 61) (hn : n < 2 ^ 61)
      (h : beBytes 8 (m * 8) = beBytes 8 (n * 8)) : m = n := by
    have hv := congrArg beValue h
    rw [beValue_beBytes, beValue_beBytes] at hv
    omega
  obtain ⟨ha, hc⟩ := append_inj hby (by simp [beBytes_length])
  have ha := hln had had' ha
  have hc := hln hcp hcp' hc
  have hbs := map_injective_iff.mpr element_injective
    (hornerPoly_inj (by simp [chunks_length, ha, hc]) h)
  obtain ⟨hA, hC⟩ := append_inj (append_inj' hbs (by simp)).1 (by simp [chunks_length, ha])
  unfold chunks at hA hC
  rw [← ha] at hA
  rw [← hc] at hC
  have hft (m : Nat) : m ≤ AES_BLOCK_SIZE * ((m + AES_BLOCK_SIZE - 1) / AES_BLOCK_SIZE) := by
    unfold AES_BLOCK_SIZE
    omega
  exact ⟨takeChunks_inj ha (hft _) hA, takeChunks_inj hc (hft _) hC⟩

def ghashStep (h ghash block : Block) : Block := gf128Mul (xorBlocks ghash block) h

lemma element_foldl_ghashStep (h ghash : Block) (blocks : List Block) :
    element (blocks.foldl (ghashStep h) ghash)
      = (blocks.map element).foldl (fun y x => (y + x) * element h) (element ghash) := by
  induction blocks generalizing ghash with
  | nil => rfl
  | cons block blocks ih =>
    rw [foldl_cons, ih, map_cons, foldl_cons, ghashStep, element_gf128Mul, element_xorBlocks]

namespace Gcm

variable (gcm : Gcm)

lemma computeGhash_eq {aad ciphertext : Bytes} (had : aad.length < 2 ^ 61)
    (hcp : ciphertext.length < 2 ^ 61) : gcm.computeGhash aad ciphertext
      = some ((ghashBlocks aad ciphertext).foldl (ghashStep gcm.h) (Vector.replicate 16 0)) := by
  have hln : lengthBlock aad ciphertext
      = some (toBlock 16 (beBytes 8 (aad.length * 8) ++ beBytes 8 (ciphertext.length * 8))) := by
    unfold lengthBlock
    rw [Checked.mul_eq (by omega), Checked.mul_eq (by omega)]
    rfl
  unfold computeGhash ghashBlocks
  rw [hln, foldl_append, foldl_append, foldl_map, foldl_map]
  rfl

lemma tagFor_eq (ghash : Block) :
    gcm.tagFor ghash = xorBlocks (gcm.cipher.encryptBlock gcm.counter) ghash := by
  have h0 : ∀ block : Block, xorBlocks (Vector.replicate 16 0) block = block := by
    intro block
    apply Vector.ext
    intro i hi
    simp [xorBlocks]
  show xorBlocks (xorBlocks (Vector.replicate 16 0) _) ghash = _
  rw [h0]

lemma element_computeGhash {aad ciphertext : Bytes} (had : aad.length < 2 ^ 61)
    (hcp : ciphertext.length < 2 ^ 61) : ∃ ghash, gcm.computeGhash aad ciphertext = some ghash
      ∧ element ghash = (ghashPolynomial aad ciphertext).eval (element gcm.h) := by
  refine ⟨_, gcm.computeGhash_eq had hcp, ?_⟩
  rw [element_foldl_ghashStep, foldl_horner, element_zero, zero_mul, zero_add]
  rfl

/-! ## The mode -/

lemma counterValue_new (key : Block) (iv : Vector UInt8 12) :
    counterValue (new key iv).counter = 2 ^ 32 * beValue iv.toList + 1 := by
  have hlen : (iv.toList ++ [0, 0, 0, 1]).length = 16 := by
    rw [length_append, Vector.length_toList]
    rfl
  show beValue (toBlock 16 (iv.toList ++ [0, 0, 0, 1])).toList = _
  rw [toList_toBlock hlen, beValue_append]
  rfl

lemma encrypt_eq {gcm : Gcm} {plaintext aad : Bytes} {ghash : Block}
    (h : gcm.computeGhash aad (ctrLoop gcm.cipher.encryptBlock (incrementCounter gcm.counter)
      (chunks AES_BLOCK_SIZE plaintext)) = some ghash) : gcm.encrypt plaintext aad
      = some (ctrLoop gcm.cipher.encryptBlock (incrementCounter gcm.counter)
          (chunks AES_BLOCK_SIZE plaintext), gcm.tagFor ghash) := by
  unfold encrypt
  simp only [h]
  rfl

lemma decrypt_eq {gcm : Gcm} {ciphertext aad : Bytes} {ghash : Block}
    (h : gcm.computeGhash aad ciphertext = some ghash) (authTag : Block) :
    gcm.decrypt ciphertext aad authTag = some (if gcm.tagFor ghash ≠ authTag then none
          else some (ctrLoop gcm.cipher.encryptBlock (incrementCounter gcm.counter)
            (chunks AES_BLOCK_SIZE ciphertext))) := by
  unfold decrypt
  rw [h]
  show (if gcm.tagFor ghash ≠ authTag then some none else some (some _)) = _
  split <;> rfl

/-- The ciphertext is the plaintext under the encryptions of counter blocks that are all different,
and different from the one of the tag; the tag is the encryption of its counter block mixed with the
block whose residue is the value of the polynomial at the hash key. -/
theorem encrypt_correct (key : Vector UInt8 16) (iv : Vector UInt8 12) (plaintext aad : Bytes)
    (haad : aad.length < 2 ^ 61) (hplain : (plaintext.length + 15) / 16 < 2 ^ 32 - 2) :
    ∃ ciphertext tag, (new key iv).encrypt plaintext aad = some (ciphertext, tag)
      ∧ (new key iv).decrypt ciphertext aad tag = some (some plaintext)
      ∧ (∀ other, other ≠ tag → (new key iv).decrypt ciphertext aad other = some none)
      ∧ (let counters := counterBlocks (incrementCounter (new key iv).counter) (chunks 16 plaintext)
        ciphertext = (zipWith (fun chunk counter =>
              zipWith (· ^^^ ·) chunk ((Aes128.new key).encryptBlock counter).toList)
            (chunks 16 plaintext) counters).flatten
        ∧ ((new key iv).counter :: counters).Nodup)
      ∧ ∃ ghash, tag = xorBlocks
            ((Aes128.new key).encryptBlock (toBlock 16 (iv.toList ++ [0, 0, 0, 1]))) ghash
          ∧ ∀ block, block = ghash ↔ element block = (ghashPolynomial aad ciphertext).eval
                (element ((Aes128.new key).encryptBlock (Vector.replicate 16 0))) := by
  have hbs : (chunks 16 plaintext).length < 2 ^ 32 - 2 := by
    rw [chunks_length]
    exact hplain
  have hcp : (ctrLoop (Aes128.new key).encryptBlock (incrementCounter (new key iv).counter)
      (chunks 16 plaintext)).length < 2 ^ 61 := by
    rw [ctrLoop_length]
    omega
  obtain ⟨ghash, hgh, hev⟩ := (new key iv).element_computeGhash haad hcp
  refine ⟨_, (new key iv).tagFor ghash, ?_, ?_, ?_, ⟨ctrLoop_eq _ _, ?_⟩, ghash,
    (new key iv).tagFor_eq ghash, ?_⟩
  · exact encrypt_eq hgh
  · rw [decrypt_eq hgh, if_neg (by simp)]
    exact congrArg (fun data => some (some data)) (ctrLoop_undo _ plaintext)
  · intro other hot
    rw [decrypt_eq hgh, if_pos (Ne.symm hot)]
  · -- the counter block of the tag is one before the first of the data
    apply @counterBlocks_nodup (new key iv).counter ([] :: chunks 16 plaintext)
    have hiv := beValue_lt iv.toList
    rw [Vector.length_toList] at hiv
    rw [counterValue_new, length_cons]
    omega
  intro block
  constructor
  · rintro rfl
    exact hev
  · intro hbl
    exact element_injective (hbl.trans hev.symm)

theorem encrypt_correct_threeBytes :
    ([7] : Bytes).length < 2 ^ 61 ∧ (([1, 2, 3] : Bytes).length + 15) / 16 < 2 ^ 32 - 2
    ∧ ∃ ciphertext tag, (new (Vector.replicate 16 0) (Vector.replicate 12 0)).encrypt [1, 2, 3] [7]
        = some (ciphertext, tag)
      ∧ (new (Vector.replicate 16 0) (Vector.replicate 12 0)).decrypt ciphertext [7] tag
        = some (some [1, 2, 3]) := by
  refine ⟨by decide, by decide, ?_⟩
  obtain ⟨ciphertext, tag, hen, hdc, _⟩ :=
    encrypt_correct (Vector.replicate 16 0) (Vector.replicate 12 0) [1, 2, 3] [7] (by decide)
      (by decide)
  exact ⟨ciphertext, tag, hen, hdc⟩

/-- The tag of the data, in the field. -/
lemma accepts_iff (gcm : Gcm) {aad ciphertext : Bytes} (had : aad.length < 2 ^ 61)
    (hcp : ciphertext.length < 2 ^ 61) (tag : Block) :
    (∃ plaintext, gcm.decrypt ciphertext aad tag = some (some plaintext))
      ↔ element tag = element (gcm.cipher.encryptBlock gcm.counter)
        + (ghashPolynomial aad ciphertext).eval (element gcm.h) := by
  obtain ⟨ghash, hgh, hev⟩ := gcm.element_computeGhash had hcp
  rw [decrypt_eq hgh, ← hev, ← element_xorBlocks, ← tagFor_eq, element_injective.eq_iff]
  by_cases htg : gcm.tagFor ghash = tag
  · simp [htg]
  · simp [htg, Ne.symm htg]

/-- **Forgeries**: with the key and the counter of accepted data, other data are accepted if and
only if the hash key is a root of a polynomial that is not zero. -/
theorem forgery_iff_root (gcm : Gcm) {aad aad' ciphertext ciphertext' : Bytes} {tag : Block}
    (hshort : ∀ data ∈ [aad, aad', ciphertext, ciphertext'], data.length < 2 ^ 61)
    (haccepted : ∃ plaintext, gcm.decrypt ciphertext aad tag = some (some plaintext))
    (hother : ¬(aad = aad' ∧ ciphertext = ciphertext')) (tag' : Block) :
    let difference := ghashPolynomial aad' ciphertext' - ghashPolynomial aad ciphertext
      - C (element tag' - element tag)
    difference ≠ 0 ∧ ((∃ plaintext, gcm.decrypt ciphertext' aad' tag' = some (some plaintext))
      ↔ difference.IsRoot (element gcm.h)) := by
  refine ⟨fun h0 => hother (ghashPolynomial_inj hshort ?_), ?_⟩
  · have hcn := congrArg (coeff · 0) h0
    simp only [ghashPolynomial, coeff_sub, coeff_hornerPoly, getElem?_cons_zero, Option.getD_some,
      coeff_C_zero, coeff_zero, zero_sub, sub_self, neg_eq_zero] at hcn
    rw [hcn, C_0, sub_zero, sub_eq_zero] at h0
    exact h0.symm
  simp only [forall_mem_cons] at hshort
  obtain ⟨had, had', hcp, hcp', -⟩ := hshort
  rw [accepts_iff gcm had hcp] at haccepted
  rw [accepts_iff gcm had' hcp', haccepted, IsRoot.def]
  simp only [eval_sub, eval_C]
  rw [sub_eq_zero, eq_sub_iff_add_eq]
  constructor <;> intro h <;> linear_combination -h

theorem forgery_iff_root_empty : ∃ (gcm : Gcm) (tag : Block), ∀ tag',
    (∃ plaintext, gcm.decrypt [1] [] tag' = some (some plaintext))
      ↔ (ghashPolynomial [] [1] - ghashPolynomial [] [] - C (element tag' - element tag)).IsRoot
        (element gcm.h) := by
  let gcm := new (Vector.replicate 16 0) (Vector.replicate 12 0)
  have hnl : ([] : Bytes).length < 2 ^ 61 := by decide
  obtain ⟨ghash, hgh, -⟩ := gcm.element_computeGhash hnl hnl
  have hac := decrypt_eq hgh (gcm.tagFor ghash)
  rw [if_neg (by simp)] at hac
  exact ⟨gcm, _, fun tag' => (forgery_iff_root gcm (by simp) ⟨_, hac⟩ (by simp) tag').2⟩

end Gcm

end Nt61.Crypto
