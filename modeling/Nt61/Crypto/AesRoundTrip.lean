/-
AesRoundTrip — decryption undoes encryption, and encryption decryption.

Multiplication in the field is additive in its first argument, so the products of the two column
matrices are checked on single bytes only. The rounds then cancel for any round keys.
-/
import Nt61.Crypto.Aes

namespace Nt61.Crypto

open Lib
open List hiding Vector

/-! ## Bytes -/

lemma forall_byte {P : UInt8 → Prop} (h : ∀ i : Fin 256, P (UInt8.ofFin i)) (b : UInt8) : P b :=
  h b.toFin

variable {f : UInt8 → UInt8}

lemma table_undo {table : List UInt8}
    (h : table.map f = (range 256).map UInt8.ofNat) (b : UInt8) : f (table.getD b.toNat 0) = b := by
  have hb : b.toNat < 256 := b.toNat_lt
  have hen : (table.map f)[b.toNat]? = some b := by
    rw [h, getElem?_map, getElem?_range hb, Option.map_some, UInt8.ofNat_toNat]
  rw [getElem?_map, Option.map_eq_some_iff] at hen
  obtain ⟨_, hx, rfl⟩ := hen
  rw [getD_eq_getElem?_getD, hx]
  rfl

lemma tables_inverse : SBOX.map invSbox = (range 256).map UInt8.ofNat
    ∧ INV_SBOX.map sbox = (range 256).map UInt8.ofNat := by
  decide +kernel

lemma invSbox_sbox (b : UInt8) : invSbox (sbox b) = b := table_undo tables_inverse.1 b

lemma sbox_invSbox (b : UInt8) : sbox (invSbox b) = b := table_undo tables_inverse.2 b

/-! ## Additive functions -/

def Additive (f : UInt8 → UInt8) : Prop := ∀ a b, f (a ^^^ b) = f a ^^^ f b

def SINGLE_BITS : List UInt8 := [1, 2, 4, 8, 16, 32, 64, 128]

lemma byte_bits (x : UInt8) : x = SINGLE_BITS.foldl (fun sum bit => sum ^^^ (x &&& bit)) 0
    ∧ ∀ bit ∈ SINGLE_BITS, x &&& bit = 0 ∨ x &&& bit = bit := by
  revert x
  apply forall_byte
  decide +kernel

lemma Additive.zero (hf : Additive f) : f 0 = 0 := by
  have h : f (0 ^^^ 0) = f 0 ^^^ f 0 := hf 0 0
  rwa [UInt8.xor_self, UInt8.xor_self] at h

lemma Additive.foldl (hf : Additive f) (x : UInt8) (bits : List UInt8) (sum : UInt8) :
    f (bits.foldl (fun sum bit => sum ^^^ (x &&& bit)) sum)
      = bits.foldl (fun sum bit => sum ^^^ f (x &&& bit)) (f sum) := by
  induction bits generalizing sum with
  | nil => rfl
  | cons bit bits ih => rw [foldl_cons, ih, hf, foldl_cons]

lemma Additive.ext {f g : UInt8 → UInt8} (hf : Additive f) (hg : Additive g)
    (h : ∀ bit ∈ SINGLE_BITS, f bit = g bit) (x : UInt8) : f x = g x := by
  rw [(byte_bits x).1, hf.foldl, hg.foldl, hf.zero, hg.zero]
  apply foldl_ext
  intro sum bit hbt
  rcases (byte_bits x).2 bit hbt with h0 | hst
  · rw [h0, hf.zero, hg.zero]
  · rw [hst, h bit hbt]

/-! ## Multiplication in the field -/

lemma xor_and (a b c : UInt8) : (a ^^^ b) &&& c = (a &&& c) ^^^ (b &&& c) := by
  apply UInt8.toBitVec_inj.mp
  ext i hi
  simp only [UInt8.toBitVec_and, UInt8.toBitVec_xor, BitVec.getElem_and, BitVec.getElem_xor]
  cases a.toBitVec[i] <;> cases b.toBitVec[i] <;> cases c.toBitVec[i] <;> rfl

lemma and_high (a : UInt8) : a &&& 0x80 = 0 ∨ a &&& 0x80 = 0x80 := (byte_bits a).2 0x80 (by decide)

lemma xtime_xor (a b : UInt8) : xtime (a ^^^ b) = xtime a ^^^ xtime b := by
  unfold xtime
  rw [xor_and, UInt8.shiftLeft_xor]
  rcases and_high a with ha | ha <;> rcases and_high b with hb | hb <;> rw [ha, hb]
  · rfl
  · show (a <<< 1 ^^^ b <<< 1) ^^^ (0x1b : UInt8) = a <<< 1 ^^^ (b <<< 1 ^^^ (0x1b : UInt8))
    ac_rfl
  · show (a <<< 1 ^^^ b <<< 1) ^^^ (0x1b : UInt8) = (a <<< 1 ^^^ (0x1b : UInt8)) ^^^ b <<< 1
    ac_rfl
  -- the two reductions cancel
  show a <<< 1 ^^^ b <<< 1 = (a <<< 1 ^^^ (0x1b : UInt8)) ^^^ (b <<< 1 ^^^ (0x1b : UInt8))
  have hcn : (a <<< 1 ^^^ (0x1b : UInt8)) ^^^ (b <<< 1 ^^^ (0x1b : UInt8))
      = (a <<< 1 ^^^ b <<< 1) ^^^ ((0x1b : UInt8) ^^^ 0x1b) := by ac_rfl
  rw [hcn, UInt8.xor_self, UInt8.xor_zero]

lemma gmulLoop_xor (n : Nat) (p p' a a' b : UInt8) :
    gmulLoop n (p ^^^ p') (a ^^^ a') b = gmulLoop n p a b ^^^ gmulLoop n p' a' b := by
  induction n generalizing p p' a a' b with
  | zero => rfl
  | succ n ih =>
    rw [gmulLoop, gmulLoop, gmulLoop, xtime_xor, ← ih]
    by_cases hbt : b &&& 1 ≠ 0
    · rw [if_pos hbt, if_pos hbt, if_pos hbt]
      ac_rfl
    · rw [if_neg hbt, if_neg hbt, if_neg hbt]

lemma gmul_xor (a a' b : UInt8) : gmul (a ^^^ a') b = gmul a b ^^^ gmul a' b := by
  exact gmulLoop_xor 8 0 0 a a' b

lemma gmul_one (a : UInt8) : gmul a 1 = a := by
  revert a
  apply forall_byte
  decide +kernel

/-! ## Columns -/

instance neZero_four : NeZero 4 := ⟨by decide⟩

/-- A row of coefficients times a column. -/
def dot (c s : Fin 4 → UInt8) : UInt8 :=
  gmul (s 0) (c 0) ^^^ gmul (s 1) (c 1) ^^^ gmul (s 2) (c 2) ^^^ gmul (s 3) (c 3)

/-- What byte `j` of a column contributes to a row of the product of two matrices. -/
def part (c : Fin 4 → UInt8) (m : Fin 4 → Fin 4 → UInt8) (j : Fin 4) (x : UInt8) : UInt8 :=
  dot c fun k => gmul x (m k j)

lemma part_additive (c : Fin 4 → UInt8) (m : Fin 4 → Fin 4 → UInt8) (j : Fin 4) :
    Additive (part c m j) := by
  intro a b
  simp only [part, dot, gmul_xor]
  ac_rfl

lemma dot_dot (c : Fin 4 → UInt8) (m : Fin 4 → Fin 4 → UInt8) (s : Fin 4 → UInt8) :
    dot c (fun k => dot (m k) s)
      = part c m 0 (s 0) ^^^ part c m 1 (s 1) ^^^ part c m 2 (s 2) ^^^ part c m 3 (s 3) := by
  simp only [dot, part, gmul_xor]
  ac_rfl

lemma dot_undo {c m : Fin 4 → Fin 4 → UInt8}
    (h : ∀ r j : Fin 4, ∀ bit ∈ SINGLE_BITS, part (c r) m j bit = if j = r then bit else 0)
    (s : Fin 4 → UInt8) (r : Fin 4) : dot (c r) (fun k => dot (m k) s) = s r := by
  have hpt : ∀ j x, part (c r) m j x = if j = r then x else 0 := by
    intro j x
    apply (part_additive (c r) m j).ext _ (h r j)
    intro a b
    by_cases hj : j = r
    · simp [hj]
    · simp [hj]
  rw [dot_dot, hpt, hpt, hpt, hpt]
  match r with
  | 0 => simp
  | 1 => simp
  | 2 => simp
  | 3 => simp

/-- A matrix whose rows are one row, moved on by one place each time. -/
def circulant (row : List UInt8) (r k : Fin 4) : UInt8 := row.getD (k - r).val 0

def MIX : Fin 4 → Fin 4 → UInt8 := circulant [2, 3, 1, 1]

def INV_MIX : Fin 4 → Fin 4 → UInt8 := circulant [14, 11, 13, 9]

lemma mix_inverse : ∀ r j, ∀ bit ∈ SINGLE_BITS,
    (part (INV_MIX r) MIX j bit = if j = r then bit else 0)
      ∧ part (MIX r) INV_MIX j bit = if j = r then bit else 0 := by
  decide +kernel

lemma invMix_mix (s : Fin 4 → UInt8) (r : Fin 4) : dot (INV_MIX r) (fun k => dot (MIX k) s) = s r :=
  dot_undo (fun r j bit h => (mix_inverse r j bit h).1) s r

lemma mix_invMix (s : Fin 4 → UInt8) (r : Fin 4) : dot (MIX r) (fun k => dot (INV_MIX k) s) = s r :=
  dot_undo (fun r j bit h => (mix_inverse r j bit h).2) s r

lemma column_ofColumns (c : Fin 4 → Fin 4 → UInt8) (i : Fin 4) : column (ofColumns c) i = c i := by
  funext j
  unfold column ofColumns
  rw [Lib.get_ofFn]
  congr 1
  · congr 1
    show (i.val * 4 + j.val) / 4 = i.val
    omega
  apply Fin.ext
  show (i.val * 4 + j.val) % 4 = j.val
  omega

variable (state : Block)

lemma ofColumns_column : ofColumns (column state) = state := by
  apply Vector.ext
  intro k hk
  have hsp : k / 4 * 4 + k % 4 = k := Nat.div_add_mod' k 4
  unfold ofColumns
  rw [Vector.getElem_ofFn]
  show state[k / 4 * 4 + k % 4] = state[k]
  congr 1

lemma mixColumns_eq : mixColumns state = ofColumns fun i j => dot (MIX j) (column state i) := by
  unfold mixColumns
  congr 1
  funext i j
  generalize column state i = s
  match j with
  | 0 =>
    show _ = gmul (s 0) 2 ^^^ gmul (s 1) 3 ^^^ gmul (s 2) 1 ^^^ gmul (s 3) 1
    rw [gmul_one, gmul_one]
  | 1 =>
    show _ = gmul (s 0) 1 ^^^ gmul (s 1) 2 ^^^ gmul (s 2) 3 ^^^ gmul (s 3) 1
    rw [gmul_one, gmul_one]
  | 2 =>
    show _ = gmul (s 0) 1 ^^^ gmul (s 1) 1 ^^^ gmul (s 2) 2 ^^^ gmul (s 3) 3
    rw [gmul_one, gmul_one]
  | 3 =>
    show _ = gmul (s 0) 3 ^^^ gmul (s 1) 1 ^^^ gmul (s 2) 1 ^^^ gmul (s 3) 2
    rw [gmul_one, gmul_one]

lemma invMixColumns_eq :
    invMixColumns state = ofColumns fun i j => dot (INV_MIX j) (column state i) := by
  unfold invMixColumns
  congr 1
  funext i j
  match j with
  | 0 => rfl
  | 1 => rfl
  | 2 => rfl
  | 3 => rfl

lemma invMixColumns_mixColumns : invMixColumns (mixColumns state) = state := by
  rw [invMixColumns_eq, mixColumns_eq]
  simp only [column_ofColumns, invMix_mix]
  exact ofColumns_column state

lemma mixColumns_invMixColumns : mixColumns (invMixColumns state) = state := by
  rw [mixColumns_eq, invMixColumns_eq]
  simp only [column_ofColumns, mix_invMix]
  exact ofColumns_column state

/-! ## The other steps -/

lemma addRoundKey_addRoundKey (state key : Block) :
    addRoundKey (addRoundKey state key) key = state := xor_xor_cancel state key

lemma invSubBytes_subBytes : invSubBytes (subBytes state) = state := by
  apply Vector.ext
  intro k hk
  unfold invSubBytes subBytes
  rw [Vector.getElem_map, Vector.getElem_map, invSbox_sbox]

lemma subBytes_invSubBytes : subBytes (invSubBytes state) = state := by
  apply Vector.ext
  intro k hk
  unfold invSubBytes subBytes
  rw [Vector.getElem_map, Vector.getElem_map, sbox_invSbox]

lemma permute_permute {p q : List (Fin 16)}
    (h : ∀ k : Fin 16, p.getD (q.getD k.val 0).val 0 = k) (state : Block) :
    permute q (permute p state) = state := by
  apply Vector.ext
  intro k hk
  unfold permute
  rw [Vector.getElem_ofFn, Lib.get_ofFn, h ⟨k, hk⟩]
  rfl

lemma invShiftRows_shiftRows : invShiftRows (shiftRows state) = state :=
  permute_permute (by decide) state

lemma shiftRows_invShiftRows : shiftRows (invShiftRows state) = state :=
  permute_permute (by decide) state

/-! ## The cipher -/

variable (roundKeys : List Block)

/-- A round of `inv_cipher` takes back the mixing of its own round and the substitution of the next
one: between the rounds the states differ by that substitution. -/
lemma invCipherRound_undo (state : Block) (round : Nat) :
    invCipherRound roundKeys (shiftRows (subBytes (cipherRound roundKeys state round))) round
      = shiftRows (subBytes state) := by
  unfold invCipherRound cipherRound
  rw [invShiftRows_shiftRows, invSubBytes_subBytes, addRoundKey_addRoundKey,
    invMixColumns_mixColumns]

lemma cipherRound_undo (state : Block) (round : Nat) :
    cipherRound roundKeys (invSubBytes (invShiftRows (invCipherRound roundKeys state round))) round
      = invSubBytes (invShiftRows state) := by
  unfold invCipherRound cipherRound
  rw [subBytes_invSubBytes, shiftRows_invShiftRows, mixColumns_invMixColumns,
    addRoundKey_addRoundKey]

lemma invCipher_cipher (rounds : Nat) (state : Block) :
    invCipher roundKeys rounds (cipher roundKeys rounds state) = state := by
  unfold invCipher cipher
  dsimp only
  rw [addRoundKey_addRoundKey,
    foldl_reverse_undo (h := fun s => shiftRows (subBytes s)) (invCipherRound_undo roundKeys),
    invShiftRows_shiftRows, invSubBytes_subBytes, addRoundKey_addRoundKey]

lemma cipher_invCipher (rounds : Nat) (state : Block) :
    cipher roundKeys rounds (invCipher roundKeys rounds state) = state := by
  have hrs := foldl_reverse_undo (h := fun s => invSubBytes (invShiftRows s))
    (cipherRound_undo roundKeys) (range' 1 (rounds - 1)).reverse
    (addRoundKey state (roundKey roundKeys rounds))
  rw [reverse_reverse] at hrs
  unfold invCipher cipher
  dsimp only
  rw [addRoundKey_addRoundKey, hrs, subBytes_invSubBytes, shiftRows_invShiftRows,
    addRoundKey_addRoundKey]

/-! ## Modes -/

lemma processBlocks_undo (message : String) {f g : List Block → List Block}
    (h : ∀ blocks, g (f blocks) = blocks) {data : Bytes} (hdata : data.length % 16 = 0) :
    (processBlocks message f data).bind (processBlocks message g) = .ok data := by
  have hfs : processBlocks message f data = .ok (joinBlocks (f (splitBlocks 16 data))) :=
    if_neg (not_not.mpr hdata)
  have hl := joinBlocks_length (f (splitBlocks 16 data))
  rw [hfs]
  show processBlocks message g (joinBlocks (f (splitBlocks 16 data))) = .ok data
  unfold processBlocks
  rw [if_neg (by rw [hl]; simp [AES_BLOCK_SIZE]), splitBlocks_joinBlocks (by decide), h,
    joinBlocks_splitBlocks hdata]

lemma map_undo {f g : Block → Block} (h : ∀ block, g (f block) = block) (blocks : List Block) :
    (blocks.map f).map g = blocks := by
  rw [map_map, show g ∘ f = id from funext h, map_id]

lemma cbcDecrypt_cbcEncrypt {enc dec : Block → Block} (h : ∀ block, dec (enc block) = block)
    (prev : Block) (blocks : List Block) :
    cbcDecryptLoop dec prev (cbcEncryptLoop enc prev blocks) = blocks := by
  induction blocks generalizing prev with
  | nil => rfl
  | cons block blocks ih => rw [cbcEncryptLoop, cbcDecryptLoop, ih, h, xor_xor_cancel]

lemma cbcEncrypt_cbcDecrypt {enc dec : Block → Block} (h : ∀ block, enc (dec block) = block)
    (prev : Block) (blocks : List Block) :
    cbcEncryptLoop enc prev (cbcDecryptLoop dec prev blocks) = blocks := by
  induction blocks generalizing prev with
  | nil => rfl
  | cons block blocks ih => rw [cbcDecryptLoop, cbcEncryptLoop, xor_xor_cancel, h, ih]

section

variable {data : Bytes} (hdata : data.length % 16 = 0)

include hdata

lemma ecb_round_trip (key : Vector UInt8 16) : let mode := Ecb.newAes128 key
    (mode.encrypt data).bind mode.decrypt = .ok data
      ∧ (mode.decrypt data).bind mode.encrypt = .ok data :=
  ⟨processBlocks_undo _ (map_undo (invCipher_cipher _ 10)) hdata,
    processBlocks_undo _ (map_undo (cipher_invCipher _ 10)) hdata⟩

lemma cbc128_round_trip (key : Vector UInt8 16) (iv : Block) : let mode := Cbc.newAes128 key iv
    (mode.encryptAes128 data).bind mode.decryptAes128 = .ok data
      ∧ (mode.decryptAes128 data).bind mode.encryptAes128 = .ok data :=
  ⟨processBlocks_undo _ (cbcDecrypt_cbcEncrypt (invCipher_cipher _ 10) iv) hdata,
    processBlocks_undo _ (cbcEncrypt_cbcDecrypt (cipher_invCipher _ 10) iv) hdata⟩

lemma cbc256_round_trip (key : Vector UInt8 32) (iv : Block) : let mode := Cbc.newAes256 key iv
    (mode.encryptAes256 data).bind mode.decryptAes256 = .ok data
      ∧ (mode.decryptAes256 data).bind mode.encryptAes256 = .ok data :=
  ⟨processBlocks_undo _ (cbcDecrypt_cbcEncrypt (invCipher_cipher _ 14) iv) hdata,
    processBlocks_undo _ (cbcEncrypt_cbcDecrypt (cipher_invCipher _ 14) iv) hdata⟩

/-- Every mode, in both directions, on data of whole blocks. -/
theorem modes_round_trip (key : Vector UInt8 16) (longKey : Vector UInt8 32) (iv : Block) :
    let ecb := Ecb.newAes128 key
    let cbc := Cbc.newAes128 key iv
    let longCbc := Cbc.newAes256 longKey iv
    ((ecb.encrypt data).bind ecb.decrypt = .ok data
      ∧ (ecb.decrypt data).bind ecb.encrypt = .ok data)
    ∧ ((cbc.encryptAes128 data).bind cbc.decryptAes128 = .ok data
      ∧ (cbc.decryptAes128 data).bind cbc.encryptAes128 = .ok data)
    ∧ (longCbc.encryptAes256 data).bind longCbc.decryptAes256 = .ok data
      ∧ (longCbc.decryptAes256 data).bind longCbc.encryptAes256 = .ok data :=
  ⟨ecb_round_trip hdata key, cbc128_round_trip hdata key iv, cbc256_round_trip hdata longKey iv⟩

end

theorem modes_round_trip_zero :
    ((Cbc.newAes128 (Vector.replicate 16 0) (Vector.replicate 16 0)).encryptAes128
        (replicate 48 0x41)).bind
      (Cbc.newAes128 (Vector.replicate 16 0) (Vector.replicate 16 0)).decryptAes128
      = .ok (replicate 48 0x41) :=
  (modes_round_trip (by decide) (Vector.replicate 16 0) (Vector.replicate 32 0)
    (Vector.replicate 16 0)).2.1.1

end Nt61.Crypto
