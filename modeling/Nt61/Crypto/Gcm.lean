/-
Gcm — AES-GCM from `crypto/cipher.rs`.

Data is mixed with the encryptions of the counter blocks that follow that of the tag; `decrypt` runs
the same loop, but only after it has compared the tag. `none` is a stop of the program (the length
block multiplies by 8 in 64 bits).
-/
import Nt61.Crypto.Aes
import Nt61.Lib.Checked

namespace Nt61.Crypto

open Lib

/-! ## Counter blocks -/

/-- The rounds of `increment_counter`; it breaks at the first byte that does not become zero. -/
def incrementFrom : Nat → Bytes → Bytes
  | 0, counter => counter
  | i + 1, counter =>
    let byte := counter.getD i 0 + 1
    let counter := counter.set i byte
    if byte ≠ 0 then counter else incrementFrom i counter

def incrementCounter (counter : Block) : Block := toBlock 16 (incrementFrom 16 counter.toList)

def ctrLoop (encryptBlock : Block → Block) : Block → List Bytes → Bytes
  | _, [] => []
  | counter, chunk :: rest =>
    let keystream := encryptBlock counter
    -- the block holds the chunk and zeros after it; only its first `chunk.len()` bytes are used
    List.zipWith (· ^^^ ·) chunk keystream.toList
      ++ ctrLoop encryptBlock (incrementCounter counter) rest

/-- The blocks that `ctrLoop` encrypts, in order. -/
def counterBlocks : Block → List Bytes → List Block
  | _, [] => []
  | counter, _ :: rest => counter :: counterBlocks (incrementCounter counter) rest

/-! ## The multiplication of GHASH -/

def xorBlocks (left right : Block) : Block := Vector.zipWith (· ^^^ ·) left right

structure Halves where
  high : UInt64
  low : UInt64
deriving DecidableEq, Repr

namespace Halves

def ofBlock (block : Block) : Halves :=
  ⟨UInt64.ofNat (beValue (block.toList.take 8)), UInt64.ofNat (beValue (block.toList.drop 8))⟩

def toBlock (z : Halves) : Block := Lib.toBlock 16 (beBytes 8 z.high.toNat ++ beBytes 8 z.low.toNat)

def xor (z v : Halves) : Halves := ⟨z.high ^^^ v.high, z.low ^^^ v.low⟩

/-- One bit to the right; the bit that falls out is reduced. -/
def shift (v : Halves) : Halves :=
  let carry := v.high &&& 1
  let high := v.high >>> 1
  let low := (v.low >>> 1) ||| (carry <<< 63)
  if v.low &&& 1 ≠ 0 then ⟨high ^^^ 0xe100000000000000, low⟩ else ⟨high, low⟩

end Halves

def mulBit (byte : UInt8) (state : Halves × Halves) (bitIndex : UInt8) : Halves × Halves :=
  let (z, v) := state
  (if (byte >>> bitIndex) &&& 1 ≠ 0 then z.xor v else z, v.shift)

def mulByte (state : Halves × Halves) (byte : UInt8) : Halves × Halves :=
  [7, 6, 5, 4, 3, 2, 1, 0].foldl (mulBit byte) state

def gf128Mul (x h : Block) : Block := (x.toList.foldl mulByte (⟨0, 0⟩, Halves.ofBlock h)).1.toBlock

/-! ## The mode -/

structure Gcm where
  cipher : Aes128
  h : Block
  counter : Block

namespace Gcm

def new (key : Vector UInt8 16) (iv : Vector UInt8 12) : Gcm :=
  let cipher := Aes128.new key
  { cipher
    h := cipher.encryptBlock (Vector.replicate 16 0)
    counter := toBlock 16 (iv.toList ++ [0, 0, 0, 1]) }

def absorb (gcm : Gcm) (data : Bytes) (ghash : Block) : Block :=
  (chunks AES_BLOCK_SIZE data).foldl
    (fun ghash chunk => gf128Mul (xorBlocks ghash (toBlock 16 chunk)) gcm.h) ghash

def lengthBlock (aad ciphertext : Bytes) : Option Block := do
  let aadBits ← Checked.mul 64 aad.length 8
  let ciphertextBits ← Checked.mul 64 ciphertext.length 8
  some (toBlock 16 (beBytes 8 aadBits ++ beBytes 8 ciphertextBits))

def computeGhash (gcm : Gcm) (aad ciphertext : Bytes) : Option Block := do
  let ghash := gcm.absorb aad (Vector.replicate 16 0)
  let ghash := gcm.absorb ciphertext ghash
  let lengths ← lengthBlock aad ciphertext
  some (gf128Mul (xorBlocks ghash lengths) gcm.h)

def tagFor (gcm : Gcm) (ghash : Block) : Block :=
  let tagInput := gcm.cipher.encryptBlock gcm.counter
  xorBlocks (xorBlocks (Vector.replicate 16 0) tagInput) ghash

def encrypt (gcm : Gcm) (plaintext aad : Bytes) : Option (Bytes × Block) := do
  let counter := incrementCounter gcm.counter
  let ciphertext := ctrLoop gcm.cipher.encryptBlock counter (chunks AES_BLOCK_SIZE plaintext)
  let ghash ← gcm.computeGhash aad ciphertext
  some (ciphertext, gcm.tagFor ghash)

/-- The inner option is the one that the source returns. -/
def decrypt (gcm : Gcm) (ciphertext aad : Bytes) (authTag : Block) : Option (Option Bytes) := do
  let ghash ← gcm.computeGhash aad ciphertext
  if gcm.tagFor ghash ≠ authTag then return none
  let counter := incrementCounter gcm.counter
  return some (ctrLoop gcm.cipher.encryptBlock counter (chunks AES_BLOCK_SIZE ciphertext))

end Gcm

end Nt61.Crypto
