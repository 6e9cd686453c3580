/-
X25519 — scalar multiplication on curve25519 (`x25519` of `sshd/kex.rs`) against the ladder of RFC
7748 section 5.

The specification is the ladder over `ZMod P`, written as the RFC has it; every step on limbs is a
step of it (`Rep`). Bytes and limbs are two ways to cut the same bits into digits.
-/
import Nt61.Lib.Run
import Nt61.Servers.Sshd.Field25519

namespace Nt61.Sshd.X25519

open Lib Checked
open List hiding Vector

/-! ## The code -/

def Fe.limbs (f : Fe) : List Nat := [f.l0, f.l1, f.l2, f.l3, f.l4]

variable (bytes : Vector UInt8 32)

def bitAt (k : Nat) : Bool := bitSet (bytes.toList.getD (k / 8) 0).toNat (k % 8)

/-- Limb `i` of a byte string: bits `51 i` to `51 i + 50`, without bit 255. -/
def limbFromBytes (i : Nat) : Nat :=
  setBits FE_LIMB_BITS fun bit =>
    decide (i * FE_LIMB_BITS + bit < 255) && bitAt bytes (i * FE_LIMB_BITS + bit)

def Fe.fromBytes : Fe :=
  ⟨limbFromBytes bytes 0, limbFromBytes bytes 1, limbFromBytes bytes 2, limbFromBytes bytes 3,
    limbFromBytes bytes 4⟩

def P_LIMBS : Fe := ⟨2 ^ 51 - 19, 2 ^ 51 - 1, 2 ^ 51 - 1, 2 ^ 51 - 1, 2 ^ 51 - 1⟩

def greater : List (Nat × Nat) → Bool
  | [] => false
  | (limb, p) :: rest => if limb > p then true else if limb < p then false else greater rest

/-- An `i64` that overflows stops. -/
def int64 (v : Int) : Option Int := if -2 ^ 63 ≤ v ∧ v < 2 ^ 63 then some v else none

def borrowStep (limb p : Nat) (borrow : Int) : Option (Nat × Int) := do
  let value ← int64 (limb - p)
  let value ← int64 (value - borrow)
  if value < 0 then do
    let value ← int64 (value + 2 ^ 51)
    return ((value % 2 ^ 64).toNat, 1)
  else return ((value % 2 ^ 64).toNat, 0)

def feSubtractPIfGe (f : Fe) : Option Fe :=
  let ge := greater [(f.l4, P_LIMBS.l4), (f.l3, P_LIMBS.l3), (f.l2, P_LIMBS.l2), (f.l1, P_LIMBS.l1),
    (f.l0, P_LIMBS.l0)] || decide (f = P_LIMBS)
  if ge then do
    let (l0, borrow) ← borrowStep f.l0 P_LIMBS.l0 0
    let (l1, borrow) ← borrowStep f.l1 P_LIMBS.l1 borrow
    let (l2, borrow) ← borrowStep f.l2 P_LIMBS.l2 borrow
    let (l3, borrow) ← borrowStep f.l3 P_LIMBS.l3 borrow
    let (l4, _) ← borrowStep f.l4 P_LIMBS.l4 borrow
    return ⟨l0, l1, l2, l3, l4⟩
  else some f

def orBit (k : Nat) : Vector UInt8 32 :=
  bytes.setIfInBounds (k / 8) (bytes.toList.getD (k / 8) 0 ||| 1 <<< UInt8.ofNat (k % 8))

/-- The limb and the bit of each round of the double loop. -/
def bitPositions : List (Nat × Nat) :=
  (range 5).flatMap fun i => (range FE_LIMB_BITS).map fun bit => (i, bit)

def Fe.toBytes (f : Fe) : Option (Vector UInt8 32) := do
  let f ← feFold f
  let f ← feSubtractPIfGe f
  return bitPositions.foldl (fun bytes (i, bit) =>
    if decide (i * FE_LIMB_BITS + bit < 255) && bitSet (f.limbs.getD i 0) bit
    then orBit bytes (i * FE_LIMB_BITS + bit) else bytes) (Vector.replicate 32 0)

def P_MINUS_2_BYTES : List UInt8 := 0xEB :: replicate 30 0xFF ++ [0x7F]

def exponentBits : List Bool :=
  P_MINUS_2_BYTES.reverse.flatMap fun byte =>
    (range 8).reverse.map fun bit => bitSet byte.toNat bit

open Fe Nat

def Fe.invert (base : Fe) : Option Fe :=
  exponentBits.foldlM (fun result bit => do
    let result ← result.square
    if bit then result.mul base else return result) one

structure Ladder (F : Type) where
  x2 : F
  z2 : F
  x3 : F
  z3 : F
  swap : Bool

def Ladder.cswap {F : Type} (s : Ladder F) (swap : Bool) : Ladder F :=
  if swap then { s with x2 := s.x3, z2 := s.z3, x3 := s.x2, z3 := s.z2 } else s

def ladderStep (x1 : Fe) (s : Ladder Fe) (bit : Bool) : Option (Ladder Fe) := do
  let s := s.cswap (s.swap ^^ bit)
  let a ← s.x2.add s.z2
  let aa ← a.square
  let b ← s.x2.sub s.z2
  let bb ← b.square
  let e ← aa.sub bb
  let c ← s.x3.add s.z3
  let d ← s.x3.sub s.z3
  let da ← d.mul a
  let cb ← c.mul b
  let x3 ← (← da.add cb).square
  let z3 ← x1.mul (← (← da.sub cb).square)
  let x2 ← aa.mul bb
  let z2 ← e.mul (← aa.add (← e.mul ⟨121665, 0, 0, 0, 0⟩))
  return ⟨x2, z2, x3, z3, bit⟩

def clamp (scalar : Vector UInt8 32) : Vector UInt8 32 :=
  let scalar := scalar.setIfInBounds 0 (scalar.toList.getD 0 0 &&& 248)
  scalar.setIfInBounds 31 (scalar.toList.getD 31 0 &&& 127 ||| 64)

def maskTop (u : Vector UInt8 32) : Vector UInt8 32 :=
  u.setIfInBounds 31 (u.toList.getD 31 0 &&& 127)

/-- `none`: an operation overflows. -/
def x25519 (scalarBytes uBytes : Vector UInt8 32) : Option (Vector UInt8 32) := do
  let scalar := clamp scalarBytes
  let x1 := fromBytes (maskTop uBytes)
  let s ← (range 255).reverse.foldlM (fun s t => ladderStep x1 s (bitAt scalar t))
    ⟨one, zero, x1, one, false⟩
  let s := s.cswap s.swap
  let x ← s.x2.mul (← s.z2.invert)
  x.toBytes

/-! ## The specification -/

def rfcStep {F : Type} [CommRing F] (x1 : F) (s : Ladder F) (bit : Bool) : Ladder F :=
  let s := s.cswap (s.swap ^^ bit)
  let a := s.x2 + s.z2
  let aa := a ^ 2
  let b := s.x2 - s.z2
  let bb := b ^ 2
  let e := aa - bb
  let c := s.x3 + s.z3
  let d := s.x3 - s.z3
  let da := d * a
  let cb := c * b
  { x3 := (da + cb) ^ 2
    z3 := x1 * (da - cb) ^ 2
    x2 := aa * bb
    z2 := e * (aa + 121665 * e)
    swap := bit }

variable {x : ZMod P}

lemma Rep.square {a : Fe} (ha : Rep a x) : ∃ c, a.square = some c ∧ Rep c (x ^ 2) := by
  rw [pow_two]
  exact ha.mul ha

/-- Representatives of the points, and the same pending swap. -/
structure RepLadder (s : Ladder Fe) (t : Ladder (ZMod P)) : Prop where
  x2 : Rep s.x2 t.x2
  z2 : Rep s.z2 t.z2
  x3 : Rep s.x3 t.x3
  z3 : Rep s.z3 t.z3
  swap : s.swap = t.swap

lemma RepLadder.cswap {s : Ladder Fe} {t : Ladder (ZMod P)} (h : RepLadder s t) (swap : Bool) :
    RepLadder (s.cswap swap) (t.cswap swap) := by
  cases swap with
  | false => exact h
  | true => exact ⟨h.x3, h.z3, h.x2, h.z2, h.swap⟩

lemma rep_a24 : Rep ⟨121665, 0, 0, 0, 0⟩ 121665 := by
  refine ⟨⟨by decide, by decide, by decide, by decide, by decide⟩, ?_⟩
  exact cast_ofNat

lemma RepLadder.step {x1 : Fe} {u : ZMod P} (hx1 : Rep x1 u) {s : Ladder Fe} {t : Ladder (ZMod P)}
    (h : RepLadder s t) (bit : Bool) :
    ∃ s', ladderStep x1 s bit = some s' ∧ RepLadder s' (rfcStep u t bit) := by
  unfold ladderStep rfcStep
  rw [h.swap]
  have hsw := h.cswap (t.swap ^^ bit)
  dsimp only
  obtain ⟨_, ha, hA⟩ := hsw.x2.add hsw.z2
  obtain ⟨_, haa, hAA⟩ := hA.square
  obtain ⟨_, hb, hB⟩ := hsw.x2.sub hsw.z2
  obtain ⟨_, hbb, hBB⟩ := hB.square
  obtain ⟨_, he, hE⟩ := hAA.sub hBB
  obtain ⟨_, hc, hC⟩ := hsw.x3.add hsw.z3
  obtain ⟨_, hd, hD⟩ := hsw.x3.sub hsw.z3
  obtain ⟨_, hda, hDA⟩ := hD.mul hA
  obtain ⟨_, hcb, hCB⟩ := hC.mul hB
  obtain ⟨_, hsm, hSum⟩ := hDA.add hCB
  obtain ⟨x3, hx3, hX3⟩ := hSum.square
  obtain ⟨_, hdf, hDiff⟩ := hDA.sub hCB
  obtain ⟨_, hdiff2, hDiff2⟩ := hDiff.square
  obtain ⟨z3, hz3, hZ3⟩ := hx1.mul hDiff2
  obtain ⟨x2, hx2, hX2⟩ := hAA.mul hBB
  obtain ⟨_, hea, hEa⟩ := hE.mul rep_a24
  obtain ⟨_, hae, hAaEa⟩ := hAA.add hEa
  obtain ⟨z2, hz2, hZ2⟩ := hE.mul hAaEa
  refine ⟨⟨x2, z2, x3, z3, bit⟩, ?_, hX2, ?_, hX3, hZ3, rfl⟩
  · rw [bind_of_some ha, bind_of_some haa, bind_of_some hb,
      bind_of_some hbb, bind_of_some he, bind_of_some hc,
      bind_of_some hd, bind_of_some hda, bind_of_some hcb,
      bind_of_some hsm, bind_of_some hx3, bind_of_some hdf,
      bind_of_some hdiff2, bind_of_some hz3, bind_of_some hx2,
      bind_of_some hea, bind_of_some hae, bind_of_some hz2]
    rfl
  · rw [mul_comm (121665 : ZMod P)]
    exact hZ2

/-! ## The inverse -/

lemma msbValue_exponentBits : msbValue exponentBits = P - 2 := by decide +kernel

lemma Rep.invert {a : Fe} (ha : Rep a x) : ∃ c, a.invert = some c ∧ Rep c (x ^ (P - 2)) := by
  have hro : ∀ {r : Fe} {y : ZMod P}, Rep r y → ∀ bit : Bool, ∃ r', (do
          let result ← r.square
          if bit then result.mul a else return result) = some r'
        ∧ Rep r' (if bit then y * y * x else y * y) := by
    intro r y hr bit
    obtain ⟨c, hc, hC⟩ := hr.mul hr
    have hsq : r.square = some c := hc
    rw [hsq]
    cases bit with
    | false => exact ⟨c, rfl, hC⟩
    | true => exact hC.mul ha
  obtain ⟨c, hc, hC⟩ := foldlM_simulates hro rep_one exponentBits
  refine ⟨c, hc, ?_⟩
  have hpw := foldl_square_mul x exponentBits 0
  rw [pow_zero] at hpw
  rw [hpw] at hC
  rw [← msbValue_exponentBits]
  exact hC

/-! ## Bytes -/

variable (bytes : Vector UInt8 32)

lemma Fe.val_eq_digitsValue (f : Fe) : f.val = digitsValue 51 f.limbs := by
  simp only [val, limbs, digitsValue]
  omega

variable {f : Fe}

lemma Fe.Reduced.limbs_lt (h : f.Reduced) : ∀ limb ∈ f.limbs, limb < 2 ^ 51 := by
  obtain ⟨h0, h1, h2, h3, h4⟩ := h
  simp only [limbs, forall_mem_cons]
  exact ⟨h0, h1, h2, h3, h4, by simp⟩

lemma Fe.Reduced.testBit (h : f.Reduced) (k : Nat) :
    f.val.testBit k = (f.limbs.getD (k / 51) 0).testBit (k % 51) := by
  rw [val_eq_digitsValue, testBit_digitsValue (by decide) _ h.limbs_lt]

lemma int64_natCast {d : Nat} (hd : d < 2 ^ 51) : int64 d = some d := by
  apply if_pos
  constructor
  · omega
  · omega

lemma borrowStep_eq {limb p : Nat} (hlb : limb < 2 ^ 51) (hle : p ≤ limb) :
    borrowStep limb p 0 = some (limb - p, 0) := by
  have hcs : (limb : Int) - p = ((limb - p : Nat) : Int) := by omega
  have hsm : limb - p < 2 ^ 51 := by omega
  unfold borrowStep
  rw [hcs]
  generalize limb - p = d at hsm
  have hd : ((d : Int) % 2 ^ 64).toNat = d := by
    rw [Int.emod_eq_of_lt (Int.natCast_nonneg d) (by omega), Int.toNat_natCast]
  rw [bind_of_some (int64_natCast hsm), Int.sub_zero, bind_of_some (int64_natCast hsm), hd]
  rfl

lemma greater_cons {limb : Nat} (hlb : limb < 2 ^ 51) (rest : List (Nat × Nat)) :
    greater ((limb, 2 ^ 51 - 1) :: rest) = (decide (limb = 2 ^ 51 - 1) && greater rest) := by
  rw [greater, if_neg (by omega)]
  by_cases heq : limb = 2 ^ 51 - 1
  · rw [if_neg (by omega), decide_eq_true heq, Bool.true_and]
  · rw [if_pos (by omega), decide_eq_false heq, Bool.false_and]

lemma greater_eq (h : f.Reduced) :
    (greater [(f.l4, P_LIMBS.l4), (f.l3, P_LIMBS.l3), (f.l2, P_LIMBS.l2), (f.l1, P_LIMBS.l1),
      (f.l0, P_LIMBS.l0)] || decide (f = P_LIMBS)) = decide (P ≤ f.val) := by
  obtain ⟨l0, l1, l2, l3, l4⟩ := f
  obtain ⟨h0, h1, h2, h3, h4⟩ := h
  dsimp only at h0 h1 h2 h3 h4
  unfold P_LIMBS
  rw [greater_cons h4, greater_cons h3, greater_cons h2, greater_cons h1]
  have hla : greater [(l0, 2 ^ 51 - 19)] = decide (2 ^ 51 - 19 < l0) := by
    unfold greater
    by_cases hgt : 2 ^ 51 - 19 < l0
    · rw [if_pos hgt, decide_eq_true hgt]
    · rw [if_neg hgt, decide_eq_false hgt, greater, ite_self]
  rw [hla, Bool.eq_iff_iff]
  simp only [Bool.or_eq_true, Bool.and_eq_true, decide_eq_true_eq, mk.injEq]
  unfold P val
  dsimp only
  omega

lemma feSubtractPIfGe_spec (h : f.Reduced) :
    ∃ f', feSubtractPIfGe f = some f' ∧ f'.Reduced ∧ f'.val = f.val % P := by
  unfold feSubtractPIfGe
  rw [greater_eq h]
  by_cases hge : P ≤ f.val
  · -- the upper limbs are those of p, so nothing is borrowed
    obtain ⟨h0, h1, h2, h3, h4⟩ := h
    have hlb : P_LIMBS.l0 ≤ f.l0 ∧ f.l1 = P_LIMBS.l1 ∧ f.l2 = P_LIMBS.l2 ∧ f.l3 = P_LIMBS.l3
        ∧ f.l4 = P_LIMBS.l4 := by
      unfold P val at hge
      unfold P_LIMBS
      dsimp only
      omega
    obtain ⟨hl0, hl1, hl2, hl3, hl4⟩ := hlb
    rw [decide_eq_true hge, bind_of_some (borrowStep_eq h0 hl0)]
    dsimp only
    rw [bind_of_some (borrowStep_eq h1 hl1.ge)]
    rw [bind_of_some (borrowStep_eq h2 hl2.ge)]
    rw [bind_of_some (borrowStep_eq h3 hl3.ge)]
    rw [bind_of_some (borrowStep_eq h4 hl4.ge)]
    refine ⟨_, rfl, ⟨?_, ?_, ?_, ?_, ?_⟩, ?_⟩
    · exact lt_of_le_of_lt (sub_le _ _) h0
    · exact lt_of_le_of_lt (sub_le _ _) h1
    · exact lt_of_le_of_lt (sub_le _ _) h2
    · exact lt_of_le_of_lt (sub_le _ _) h3
    · exact lt_of_le_of_lt (sub_le _ _) h4
    unfold val P P_LIMBS at *
    dsimp only at *
    omega
  · rw [decide_eq_false hge]
    exact ⟨f, rfl, h, (Nat.mod_eq_of_lt (Nat.lt_of_not_le hge)).symm⟩

lemma testBit_orBit {k : Nat} (hk : k < 256) (j : Nat) : (leValue (orBit bytes k).toList).testBit j
      = ((leValue bytes.toList).testBit j || decide (j = k)) := by
  have hsh : ∀ m < 8, ((1 : UInt8) <<< UInt8.ofNat m).toNat = 2 ^ m := by decide
  rw [testBit_leValue, testBit_leValue]
  unfold orBit
  rw [Vector.toList_setIfInBounds, getD_eq_getElem?_getD, getElem?_set]
  by_cases hby : k / 8 = j / 8
  · rw [if_pos hby, if_pos (by rw [Vector.length_toList]; omega), Option.getD_some,
      UInt8.toNat_or, testBit_or, hsh _ (mod_lt k (by decide)), testBit_two_pow, hby]
    congr 1
    rw [decide_eq_decide]
    omega
  · rw [if_neg hby, decide_eq_false (by intro hjk; exact hby (by rw [hjk])), Bool.or_false]
    rfl

lemma testBit_foldl_orBit {A : Type} (index : A → Nat) (test : A → Bool) (xs : List A)
    (hid : ∀ x ∈ xs, test x = true → index x < 256) (bytes : Vector UInt8 32) (j : Nat) :
    (leValue (xs.foldl (fun bytes x => if test x then orBit bytes (index x) else bytes)
        bytes).toList).testBit j
      = ((leValue bytes.toList).testBit j || xs.any fun x => test x && decide (j = index x)) := by
  induction xs generalizing bytes with
  | nil => simp
  | cons x xs ih =>
    rw [foldl_cons, ih fun x' hx' => hid x' (mem_cons_of_mem x hx'), any_cons]
    by_cases ht : test x = true
    · rw [if_pos ht, testBit_orBit _ (hid x mem_cons_self ht), ht, Bool.true_and,
        Bool.or_assoc]
    · rw [if_neg ht, Bool.eq_false_of_not_eq_true ht, Bool.false_and, Bool.false_or]

lemma mem_bitPositions {i bit : Nat} : (i, bit) ∈ bitPositions ↔ i < 5 ∧ bit < 51 := by
  unfold bitPositions
  simp [FE_LIMB_BITS]

lemma Rep.toBytes (h : Rep f x) :
    ∃ bytes, f.toBytes = some bytes ∧ leValue bytes.toList = x.val := by
  obtain ⟨f1, hfo, hrp⟩ := rep_of_fold
    (h.reduced.mono (Nat.pow_le_pow_right (by decide) (by decide) : 2 ^ 51 ≤ 2 ^ 120))
    (Nat.two_pow_pos 120) (by have := h.reduced.val_lt; omega) h.val
  obtain ⟨f2, hsb, hrd, hvl⟩ := feSubtractPIfGe_spec hrp.reduced
  refine ⟨_, by
    unfold Fe.toBytes
    rw [bind_of_some (show feFold f = some f1 from hfo), bind_of_some hsb]
    rfl, ?_⟩
  have hx : x.val = f2.val := by rw [hvl, ← hrp.val, ZMod.val_natCast]
  rw [hx]
  apply eq_of_testBit_eq
  intro j
  rw [testBit_foldl_orBit (fun p : Nat × Nat => p.1 * FE_LIMB_BITS + p.2)
    (fun p => decide (p.1 * FE_LIMB_BITS + p.2 < 255) && bitSet (f2.limbs.getD p.1 0) p.2)
    bitPositions (by
      intro p _ ht
      simp only [Bool.and_eq_true, decide_eq_true_eq] at ht
      omega)]
  have h0 : leValue (Vector.replicate 32 (0 : UInt8)).toList = 0 := by decide
  rw [h0, zero_testBit, Bool.false_or, hrd.testBit, Bool.eq_iff_iff, any_eq_true]
  simp only [Bool.and_eq_true, decide_eq_true_eq, bitSet_eq_testBit]
  constructor
  · rintro ⟨⟨i, bit⟩, hm, ⟨_, hbt⟩, hj⟩
    have hbd : bit < 51 := (mem_bitPositions.mp hm).2
    have hdv : j / 51 = i := by
      rw [hj]
      show (i * 51 + bit) / 51 = i
      omega
    have hmd : j % 51 = bit := by
      rw [hj]
      show (i * 51 + bit) % 51 = bit
      omega
    rw [hdv, hmd]
    exact hbt
  intro hbt
  have hlb : j / 51 < 5 := by
    by_contra ho
    have hl : f2.limbs.length ≤ j / 51 := Nat.le_of_not_lt ho
    rw [getD_eq_getElem?_getD, getElem?_eq_none hl] at hbt
    simp at hbt
  have hid : j / 51 * FE_LIMB_BITS + j % 51 = j := div_add_mod' j 51
  refine ⟨(j / 51, j % 51), mem_bitPositions.mpr ⟨hlb, mod_lt j (by decide)⟩, ⟨?_, hbt⟩, ?_⟩
  · dsimp only
    omega
  · exact hid.symm

/-! ## The result -/

end Nt61.Sshd.X25519
