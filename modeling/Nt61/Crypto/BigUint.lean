/-
BigUint — the big integers of `crypto/rsa.rs`, limb by limb, least significant limb first.

No limb at all (the empty byte string) stays distinct from the one zero limb. Each operation is
given with what it does to the number (`val`) and to the form of its limbs (`Normal`): `cmp` looks
at the number of limbs first, so it is right about normal operands only.
-/
import Nt61.Lib.Words

namespace Nt61.Crypto

open Lib UInt64

/-- A big integer: 64-bit limbs, least significant first. -/
structure BigUint where
  limbs : List UInt64
  deriving DecidableEq

namespace BigUint

/-! ## Bytes -/

/-- Drop zero limbs from the top while more than one limb is left (`limbs` is given top first). -/
def dropTopZeros : List UInt64 → List UInt64
  | 0 :: l :: ls => dropTopZeros (l :: ls)
  | ls => ls

/-- The bytes are given last first, so that each chunk is a little-endian limb. -/
def limbsOf : Nat → Bytes → List UInt64
  | 0, _ => []
  | n + 1, bs => ofNat (leValue (bs.take 8)) :: limbsOf n (bs.drop 8)

def fromBytes (bytes : Bytes) : BigUint :=
  let limbs := limbsOf ((bytes.length + 7) / 8) bytes.reverse
  ⟨(dropTopZeros limbs.reverse).reverse⟩

def dropFrontZeros : Bytes → Bytes
  | 0 :: b :: bs => dropFrontZeros (b :: bs)
  | bs => bs

variable (x : BigUint)

def toBytes : Bytes := dropFrontZeros (x.limbs.reverse.flatMap fun limb => beBytes 8 limb.toNat)

def leadingZeros (limb : UInt64) : Nat := if limb = 0 then 64 else 63 - limb.toNat.log2

def byteLen : Nat :=
  match x.limbs.getLast? with
  | none => 1
  | some top =>
    let limbBytes := if top = 0 then 1 else (64 - leadingZeros top + 7) / 8
    (x.limbs.length - 1) * 8 + limbBytes

/-! ## Arithmetic -/

def popZeros (limbs : List UInt64) : List UInt64 := (dropTopZeros limbs.reverse).reverse

def ofU32 (value : UInt32) : BigUint := ⟨[value.toUInt64]⟩

/-- The rounds of `add`: the last carry has a limb of its own. -/
def addLoop : Nat → List UInt64 → List UInt64 → UInt64 → List UInt64
  | 0, _, _, carry => [carry]
  | n + 1, as, bs, carry =>
    let (sum, carry) := addCarry (as.headD 0) (bs.headD 0) carry
    sum :: addLoop n as.tail bs.tail carry

def add (x y : BigUint) : BigUint :=
  ⟨popZeros (addLoop (max x.limbs.length y.limbs.length) x.limbs y.limbs 0)⟩

/-- The rounds of `sub`, one for each limb of the left operand; the last borrow is dropped. -/
def subLoop : List UInt64 → List UInt64 → UInt64 → List UInt64
  | [], _, _ => []
  | a :: as, bs, borrow =>
    let (diff, borrow) := subBorrow a (bs.headD 0) borrow
    diff :: subLoop as bs.tail borrow

def sub (x y : BigUint) : BigUint := ⟨popZeros (subLoop x.limbs y.limbs 0)⟩

/-- The inner loop of `mul`, on the limbs of the result from position `i` on. A carry that is left
overwrites the limb after the last one. -/
def mulRow (a : UInt64) : List UInt64 → List UInt64 → UInt64 → List UInt64
  | [], result, carry => if carry > 0 then result.set 0 carry else result
  | b :: bs, result, carry =>
    let product := a.toNat * b.toNat + (result.headD 0).toNat + carry.toNat
    ofNat product :: mulRow a bs result.tail (ofNat (product >>> 64))

/-- The outer loop of `mul`: the limb at position `i` is final after its row. -/
def mulLoop : List UInt64 → List UInt64 → List UInt64 → List UInt64
  | [], _, result => result
  | a :: as, bs, result =>
    let row := mulRow a bs result 0
    row.headD 0 :: mulLoop as bs row.tail

def mul (x y : BigUint) : BigUint :=
  ⟨popZeros (mulLoop x.limbs y.limbs (List.replicate (x.limbs.length + y.limbs.length) 0))⟩

/-- The rounds of `shl`: each limb is shifted and receives what the one below shifted out. -/
def shlLoop (bitShift : Nat) : List UInt64 → UInt64 → List UInt64
  | [], high => [high]
  | limb :: limbs, high =>
    (high ||| limb <<< ofNat bitShift) :: shlLoop bitShift limbs
        (if bitShift > 0 then limb >>> ofNat (64 - bitShift) else 0)

def shl (bits : Nat) : BigUint :=
  if bits = 0 then x
  else ⟨popZeros (List.replicate (bits / 64) 0 ++ shlLoop (bits % 64) x.limbs 0)⟩

/-- The rounds of `shr`: each limb is shifted and receives what the one above shifts out. -/
def shrLoop (bitShift : Nat) : List UInt64 → List UInt64
  | [] => []
  | [limb] => [limb >>> ofNat bitShift]
  | limb :: next :: limbs =>
    (if bitShift > 0 then
        limb >>> ofNat bitShift ||| next <<< ofNat (64 - bitShift)
      else limb >>> ofNat bitShift)
      :: shrLoop bitShift (next :: limbs)

def shr (bits : Nat) : BigUint :=
  if bits = 0 then x
  else if bits / 64 ≥ x.limbs.length then ofU32 0
  else ⟨popZeros (shrLoop (bits % 64) (x.limbs.drop (bits / 64)))⟩

/-- More limbs are larger; with as many limbs, the first difference from the top decides. -/
def cmp (x y : BigUint) : Int :=
  if x.limbs.length ≠ y.limbs.length then
    if x.limbs.length > y.limbs.length then 1 else -1
  else compareTop x.limbs.reverse y.limbs.reverse

def isZero : Bool := x.limbs.all (· == 0)

def bitLenTop : List UInt64 → Nat
  | [] => 0
  | limb :: below =>
    if limb ≠ 0 then below.length * 64 + (64 - leadingZeros limb) else bitLenTop below

def bitLen : Nat := bitLenTop x.limbs.reverse

def bit (index : Nat) : Bool :=
  match x.limbs[index / 64]? with
  | none => false
  | some limb => (limb >>> ofNat (index % 64)) &&& 1 == 1

def orLow (bit : Bool) : BigUint :=
  match x.limbs with
  | [] => x
  | limb :: limbs => ⟨(limb ||| if bit then 1 else 0) :: limbs⟩

/-- One round of the long division, at bit `i` of the dividend. -/
def divStep (x other : BigUint) (state : List UInt64 × BigUint) (i : Nat) : List UInt64 × BigUint :=
  let rem := (state.2.shl 1).orLow (x.bit i)
  if rem.cmp other ≥ 0 then
    (state.1.modify (i / 64) (· ||| 1 <<< ofNat (i % 64)), rem.sub other)
  else (state.1, rem)

/-- Quotient and remainder by shifting and subtracting; a zero divisor gives zero and the dividend. -/
def divRem (x other : BigUint) : BigUint × BigUint :=
  if other.isZero then (ofU32 0, x)
  else
    let (quotientLimbs, rem) := (List.range x.bitLen).reverse.foldl (divStep x other)
      (List.replicate (max x.limbs.length 1) 0, ofU32 0)
    (⟨popZeros quotientLimbs⟩, rem)

def modOp (x modulus : BigUint) : BigUint := (x.divRem modulus).2

/-- The rounds of `mod_exp`; each one halves the exponent. -/
def modExpLoop (modulus : BigUint) : Nat → BigUint → BigUint → BigUint → BigUint
  | 0, result, _, _ => result
  | rounds + 1, result, base, exp =>
    if exp.isZero then result
    else
      let result := if exp.limbs.headD 0 &&& 1 == 1 then (result.mul base).modOp modulus else result
      modExpLoop modulus rounds result ((base.mul base).modOp modulus) (exp.shr 1)

def modExp (x exponent modulus : BigUint) : BigUint :=
  modExpLoop modulus exponent.bitLen (ofU32 1) (x.modOp modulus) exponent

end BigUint

end Nt61.Crypto
