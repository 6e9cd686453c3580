/-
Aes — AES and its block modes from `crypto/cipher.rs`.

The state is a block of 16 bytes, column by column. `cipher` and `inv_cipher` take the round keys
and the number of rounds as arguments; AES-128 and AES-256 differ in their key schedules only. ECB
and CBC have no padding and refuse data that is not a whole number of blocks.
-/
import Nt61.Lib.Blocks

namespace Nt61.Crypto

open Lib

abbrev Block := Vector UInt8 16

def AES_BLOCK_SIZE : Nat := 16

/-! ## Tables and the field -/

def SBOX : List UInt8 :=
  [ 0x63, 0x7c, 0x77, 0x7b, 0xf2, 0x6b, 0x6f, 0xc5, 0x30, 0x01, 0x67, 0x2b, 0xfe, 0xd7, 0xab, 0x76,
    0xca, 0x82, 0xc9, 0x7d, 0xfa, 0x59, 0x47, 0xf0, 0xad, 0xd4, 0xa2, 0xaf, 0x9c, 0xa4, 0x72, 0xc0,
    0xb7, 0xfd, 0x93, 0x26, 0x36, 0x3f, 0xf7, 0xcc, 0x34, 0xa5, 0xe5, 0xf1, 0x71, 0xd8, 0x31, 0x15,
    0x04, 0xc7, 0x23, 0xc3, 0x18, 0x96, 0x05, 0x9a, 0x07, 0x12, 0x80, 0xe2, 0xeb, 0x27, 0xb2, 0x75,
    0x09, 0x83, 0x2c, 0x1a, 0x1b, 0x6e, 0x5a, 0xa0, 0x52, 0x3b, 0xd6, 0xb3, 0x29, 0xe3, 0x2f, 0x84,
    0x53, 0xd1, 0x00, 0xed, 0x20, 0xfc, 0xb1, 0x5b, 0x6a, 0xcb, 0xbe, 0x39, 0x4a, 0x4c, 0x58, 0xcf,
    0xd0, 0xef, 0xaa, 0xfb, 0x43, 0x4d, 0x33, 0x85, 0x45, 0xf9, 0x02, 0x7f, 0x50, 0x3c, 0x9f, 0xa8,
    0x51, 0xa3, 0x40, 0x8f, 0x92, 0x9d, 0x38, 0xf5, 0xbc, 0xb6, 0xda, 0x21, 0x10, 0xff, 0xf3, 0xd2,
    0xcd, 0x0c, 0x13, 0xec, 0x5f, 0x97, 0x44, 0x17, 0xc4, 0xa7, 0x7e, 0x3d, 0x64, 0x5d, 0x19, 0x73,
    0x60, 0x81, 0x4f, 0xdc, 0x22, 0x2a, 0x90, 0x88, 0x46, 0xee, 0xb8, 0x14, 0xde, 0x5e, 0x0b, 0xdb,
    0xe0, 0x32, 0x3a, 0x0a, 0x49, 0x06, 0x24, 0x5c, 0xc2, 0xd3, 0xac, 0x62, 0x91, 0x95, 0xe4, 0x79,
    0xe7, 0xc8, 0x37, 0x6d, 0x8d, 0xd5, 0x4e, 0xa9, 0x6c, 0x56, 0xf4, 0xea, 0x65, 0x7a, 0xae, 0x08,
    0xba, 0x78, 0x25, 0x2e, 0x1c, 0xa6, 0xb4, 0xc6, 0xe8, 0xdd, 0x74, 0x1f, 0x4b, 0xbd, 0x8b, 0x8a,
    0x70, 0x3e, 0xb5, 0x66, 0x48, 0x03, 0xf6, 0x0e, 0x61, 0x35, 0x57, 0xb9, 0x86, 0xc1, 0x1d, 0x9e,
    0xe1, 0xf8, 0x98, 0x11, 0x69, 0xd9, 0x8e, 0x94, 0x9b, 0x1e, 0x87, 0xe9, 0xce, 0x55, 0x28, 0xdf,
    0x8c, 0xa1, 0x89, 0x0d, 0xbf, 0xe6, 0x42, 0x68, 0x41, 0x99, 0x2d, 0x0f, 0xb0, 0x54, 0xbb, 0x16 ]

def INV_SBOX : List UInt8 :=
  [ 0x52, 0x09, 0x6a, 0xd5, 0x30, 0x36, 0xa5, 0x38, 0xbf, 0x40, 0xa3, 0x9e, 0x81, 0xf3, 0xd7, 0xfb,
    0x7c, 0xe3, 0x39, 0x82, 0x9b, 0x2f, 0xff, 0x87, 0x34, 0x8e, 0x43, 0x44, 0xc4, 0xde, 0xe9, 0xcb,
    0x54, 0x7b, 0x94, 0x32, 0xa6, 0xc2, 0x23, 0x3d, 0xee, 0x4c, 0x95, 0x0b, 0x42, 0xfa, 0xc3, 0x4e,
    0x08, 0x2e, 0xa1, 0x66, 0x28, 0xd9, 0x24, 0xb2, 0x76, 0x5b, 0xa2, 0x49, 0x6d, 0x8b, 0xd1, 0x25,
    0x72, 0xf8, 0xf6, 0x64, 0x86, 0x68, 0x98, 0x16, 0xd4, 0xa4, 0x5c, 0xcc, 0x5d, 0x65, 0xb6, 0x92,
    0x6c, 0x70, 0x48, 0x50, 0xfd, 0xed, 0xb9, 0xda, 0x5e, 0x15, 0x46, 0x57, 0xa7, 0x8d, 0x9d, 0x84,
    0x90, 0xd8, 0xab, 0x00, 0x8c, 0xbc, 0xd3, 0x0a, 0xf7, 0xe4, 0x58, 0x05, 0xb8, 0xb3, 0x45, 0x06,
    0xd0, 0x2c, 0x1e, 0x8f, 0xca, 0x3f, 0x0f, 0x02, 0xc1, 0xaf, 0xbd, 0x03, 0x01, 0x13, 0x8a, 0x6b,
    0x3a, 0x91, 0x11, 0x41, 0x4f, 0x67, 0xdc, 0xea, 0x97, 0xf2, 0xcf, 0xce, 0xf0, 0xb4, 0xe6, 0x73,
    0x96, 0xac, 0x74, 0x22, 0xe7, 0xad, 0x35, 0x85, 0xe2, 0xf9, 0x37, 0xe8, 0x1c, 0x75, 0xdf, 0x6e,
    0x47, 0xf1, 0x1a, 0x71, 0x1d, 0x29, 0xc5, 0x89, 0x6f, 0xb7, 0x62, 0x0e, 0xaa, 0x18, 0xbe, 0x1b,
    0xfc, 0x56, 0x3e, 0x4b, 0xc6, 0xd2, 0x79, 0x20, 0x9a, 0xdb, 0xc0, 0xfe, 0x78, 0xcd, 0x5a, 0xf4,
    0x1f, 0xdd, 0xa8, 0x33, 0x88, 0x07, 0xc7, 0x31, 0xb1, 0x12, 0x10, 0x59, 0x27, 0x80, 0xec, 0x5f,
    0x60, 0x51, 0x7f, 0xa9, 0x19, 0xb5, 0x4a, 0x0d, 0x2d, 0xe5, 0x7a, 0x9f, 0x93, 0xc9, 0x9c, 0xef,
    0xa0, 0xe0, 0x3b, 0x4d, 0xae, 0x2a, 0xf5, 0xb0, 0xc8, 0xeb, 0xbb, 0x3c, 0x83, 0x53, 0x99, 0x61,
    0x17, 0x2b, 0x04, 0x7e, 0xba, 0x77, 0xd6, 0x26, 0xe1, 0x69, 0x14, 0x63, 0x55, 0x21, 0x0c, 0x7d ]

def sbox (byte : UInt8) : UInt8 := SBOX.getD byte.toNat 0

def invSbox (byte : UInt8) : UInt8 := INV_SBOX.getD byte.toNat 0

/-- Doubling modulo the AES polynomial. -/
def xtime (a : UInt8) : UInt8 := if a &&& 0x80 ≠ 0 then a <<< 1 ^^^ 0x1b else a <<< 1

def gmulLoop : Nat → UInt8 → UInt8 → UInt8 → UInt8
  | 0, p, _, _ => p
  | n + 1, p, a, b => gmulLoop n (if b &&& 1 ≠ 0 then p ^^^ a else p) (xtime a) (b >>> 1)

def gmul (a b : UInt8) : UInt8 := gmulLoop 8 0 a b

/-! ## The steps of a round -/

def addRoundKey (state key : Block) : Block := Vector.zipWith (· ^^^ ·) state key

variable (state : Block)

def subBytes : Block := state.map sbox

def invSubBytes : Block := state.map invSbox

/-- Byte `k` of the result is byte `source k` of the state. -/
def permute (source : List (Fin 16)) (state : Block) : Block :=
  Vector.ofFn fun k => state.get (source.getD k.val 0)

def SHIFT_ROWS : List (Fin 16) := [0, 5, 10, 15, 4, 9, 14, 3, 8, 13, 2, 7, 12, 1, 6, 11]

def INV_SHIFT_ROWS : List (Fin 16) := [0, 13, 10, 7, 4, 1, 14, 11, 8, 5, 2, 15, 12, 9, 6, 3]

def shiftRows : Block := permute SHIFT_ROWS state

def invShiftRows : Block := permute INV_SHIFT_ROWS state

def column (i j : Fin 4) : UInt8 := state.get ⟨i.val * 4 + j.val, by omega⟩

def ofColumns (c : Fin 4 → Fin 4 → UInt8) : Block :=
  Vector.ofFn fun k => c ⟨k.val / 4, by omega⟩ ⟨k.val % 4, by omega⟩

def mixColumns : Block :=
  ofColumns fun i j =>
    let s := column state i
    match j with
    | 0 => gmul (s 0) 2 ^^^ gmul (s 1) 3 ^^^ s 2 ^^^ s 3
    | 1 => s 0 ^^^ gmul (s 1) 2 ^^^ gmul (s 2) 3 ^^^ s 3
    | 2 => s 0 ^^^ s 1 ^^^ gmul (s 2) 2 ^^^ gmul (s 3) 3
    | 3 => gmul (s 0) 3 ^^^ s 1 ^^^ s 2 ^^^ gmul (s 3) 2

def invMixColumns : Block :=
  ofColumns fun i j =>
    let s := column state i
    match j with
    | 0 => gmul (s 0) 14 ^^^ gmul (s 1) 11 ^^^ gmul (s 2) 13 ^^^ gmul (s 3) 9
    | 1 => gmul (s 0) 9 ^^^ gmul (s 1) 14 ^^^ gmul (s 2) 11 ^^^ gmul (s 3) 13
    | 2 => gmul (s 0) 13 ^^^ gmul (s 1) 9 ^^^ gmul (s 2) 14 ^^^ gmul (s 3) 11
    | 3 => gmul (s 0) 11 ^^^ gmul (s 1) 13 ^^^ gmul (s 2) 9 ^^^ gmul (s 3) 14

/-! ## The cipher -/

variable (roundKeys : List Block)

def roundKey (round : Nat) : Block := roundKeys.getD round (Vector.replicate 16 0)

def cipherRound (state : Block) (round : Nat) : Block :=
  addRoundKey (mixColumns (shiftRows (subBytes state))) (roundKey roundKeys round)

def cipher (rounds : Nat) (state : Block) : Block :=
  let state := addRoundKey state (roundKey roundKeys 0)
  let state := (List.range' 1 (rounds - 1)).foldl (cipherRound roundKeys) state
  addRoundKey (shiftRows (subBytes state)) (roundKey roundKeys rounds)

def invCipherRound (state : Block) (round : Nat) : Block :=
  invMixColumns (addRoundKey (invSubBytes (invShiftRows state)) (roundKey roundKeys round))

def invCipher (rounds : Nat) (state : Block) : Block :=
  let state := addRoundKey state (roundKey roundKeys rounds)
  let state := (List.range' 1 (rounds - 1)).reverse.foldl (invCipherRound roundKeys) state
  addRoundKey (invSubBytes (invShiftRows state)) (roundKey roundKeys 0)

/-! ## Key schedules -/

def lastWord (key : Block) : Bytes := key.toList.drop 12

/-- Four bytes from `base` and `temp`, then each from `base` and the new byte four places before. -/
def nextKey (base : Block) (temp : Bytes) : Block :=
  let bytes := (List.range 16).foldl
    (fun new j =>
      new ++ [base.toList.getD j 0 ^^^ (if j < 4 then temp.getD j 0 else new.getD (j - 4) 0)]) []
  toBlock 16 bytes

namespace Aes128

def RCON : List UInt8 := [0x01, 0x02, 0x04, 0x08, 0x10, 0x20, 0x40, 0x80, 0x1b, 0x36]

/-- One round key from the one before: the last word is rotated, substituted and its first byte is
changed by the round constant. -/
def expandStep (i : Nat) : List Block :=
  let prev := roundKey roundKeys (i - 1)
  let temp := ((lastWord prev).rotateLeft 1).map sbox
  let temp := temp.modify 0 (· ^^^ RCON.getD (i - 1) 0)
  roundKeys ++ [nextKey prev temp]

def keyExpansion (key : Block) (rounds : Nat) : List Block :=
  (List.range' 1 rounds).foldl expandStep [key]

end Aes128

structure Aes128 where
  roundKeys : List Block

namespace Aes128

def new (key : Vector UInt8 16) : Aes128 := ⟨keyExpansion key 10⟩

def encryptBlock (aes : Aes128) (block : Block) : Block := cipher aes.roundKeys 10 block

def decryptBlock (aes : Aes128) (block : Block) : Block := invCipher aes.roundKeys 10 block

end Aes128

namespace Aes256

def RCON : List UInt8 := [0x01, 0x02, 0x04, 0x08, 0x10, 0x20, 0x40]

/-- One round key from the two before; only the even ones rotate and use a round constant. -/
def expandStep (i : Nat) : List Block :=
  let prev := roundKey roundKeys (i - 1)
  let prev2 := roundKey roundKeys (i - 2)
  let temp :=
    if i % 2 = 0 then
      (((lastWord prev).rotateLeft 1).map sbox).modify 0 (· ^^^ RCON.getD (i / 2 - 1) 0)
    else (lastWord prev).map sbox
  roundKeys ++ [nextKey prev2 temp]

def keyExpansion (key : Vector UInt8 32) : List Block :=
  (List.range' 2 13).foldl expandStep [toBlock 16 (key.toList.take 16), toBlock 16 (key.toList.drop 16)]

end Aes256

structure Aes256 where
  roundKeys : List Block

namespace Aes256

def new (key : Vector UInt8 32) : Aes256 := ⟨keyExpansion key⟩

def encryptBlock (aes : Aes256) (block : Block) : Block := cipher aes.roundKeys 14 block

def decryptBlock (aes : Aes256) (block : Block) : Block := invCipher aes.roundKeys 14 block

end Aes256

/-! ## Modes -/

/-- Run a loop over the blocks of the data; a tail that is not a whole block is refused. -/
def processBlocks (message : String) (loop : List Block → List Block) (data : Bytes) :
    Except String Bytes :=
  if data.length % AES_BLOCK_SIZE ≠ 0 then .error message
  else .ok (joinBlocks (loop (splitBlocks 16 data)))

def ECB_MISALIGNED : String := "ECB input must be a multiple of the 16-byte AES block size"
def CBC_MISALIGNED : String := "CBC input must be a multiple of the 16-byte AES block size"

structure Ecb (C : Type) where
  cipher : C

namespace Ecb

def newAes128 (key : Vector UInt8 16) : Ecb Aes128 := ⟨Aes128.new key⟩

def encrypt (mode : Ecb Aes128) (plaintext : Bytes) : Except String Bytes :=
  processBlocks ECB_MISALIGNED (List.map mode.cipher.encryptBlock) plaintext

def decrypt (mode : Ecb Aes128) (ciphertext : Bytes) : Except String Bytes :=
  processBlocks ECB_MISALIGNED (List.map mode.cipher.decryptBlock) ciphertext

end Ecb

def cbcEncryptLoop (encryptBlock : Block → Block) : Block → List Block → List Block
  | _, [] => []
  | prev, block :: blocks =>
    let block := encryptBlock (Vector.zipWith (· ^^^ ·) block prev)
    block :: cbcEncryptLoop encryptBlock block blocks

def cbcDecryptLoop (decryptBlock : Block → Block) : Block → List Block → List Block
  | _, [] => []
  | prev, block :: blocks =>
    Vector.zipWith (· ^^^ ·) (decryptBlock block) prev :: cbcDecryptLoop decryptBlock block blocks

structure Cbc (C : Type) where
  cipher : C
  iv : Block

namespace Cbc

def newAes128 (key : Vector UInt8 16) (iv : Block) : Cbc Aes128 := ⟨Aes128.new key, iv⟩

def encryptAes128 (mode : Cbc Aes128) (plaintext : Bytes) : Except String Bytes :=
  processBlocks CBC_MISALIGNED (cbcEncryptLoop mode.cipher.encryptBlock mode.iv) plaintext

def decryptAes128 (mode : Cbc Aes128) (ciphertext : Bytes) : Except String Bytes :=
  processBlocks CBC_MISALIGNED (cbcDecryptLoop mode.cipher.decryptBlock mode.iv) ciphertext

def newAes256 (key : Vector UInt8 32) (iv : Block) : Cbc Aes256 := ⟨Aes256.new key, iv⟩

def encryptAes256 (mode : Cbc Aes256) (plaintext : Bytes) : Except String Bytes :=
  processBlocks CBC_MISALIGNED (cbcEncryptLoop mode.cipher.encryptBlock mode.iv) plaintext

def decryptAes256 (mode : Cbc Aes256) (ciphertext : Bytes) : Except String Bytes :=
  processBlocks CBC_MISALIGNED (cbcDecryptLoop mode.cipher.decryptBlock mode.iv) ciphertext

end Cbc

end Nt61.Crypto
