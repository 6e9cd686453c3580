/-
Field25519 — `Fe` of `sshd/kex.rs`: arithmetic modulo p = 2^255 - 19 in five limbs of 51 bits.

Every operation that could leave its type is checked, and `none` is the overflow. `fe_fold_carry`
moves the carries up, and what leaves the top comes back in times 19, until nothing leaves. Each
operation on reduced elements succeeds, gives a reduced element and computes its namesake in `ZMod
P` (`Rep`).
-/
import Nt61.Lib.Checked
import Nt61.Lib.Bits
import Mathlib.Data.ZMod.Basic
import Mathlib.Tactic.LinearCombination

namespace Nt61.Sshd.X25519

open Lib List Checked Option Nat Checked

/-! ## Field elements -/

def FE_LIMB_BITS : Nat := 51
def FE_LIMB_MASK : Nat := 1 <<< FE_LIMB_BITS - 1
def FE_CARRY_FOLD : Nat := 19

structure Fe where
  l0 : Nat
  l1 : Nat
  l2 : Nat
  l3 : Nat
  l4 : Nat
  deriving DecidableEq

namespace Fe

def zero : Fe := ⟨0, 0, 0, 0, 0⟩
def one : Fe := ⟨1, 0, 0, 0, 0⟩

end Fe

open Fe

def limbStep (limb carry : Nat) : Option (Nat × Nat) := do
  let carry ← add 128 carry limb
  return (carry % 2 ^ 64 &&& FE_LIMB_MASK, carry >>> FE_LIMB_BITS)

def carryChain (f : Fe) (carry : Nat) : Option (Fe × Nat) := do
  let (l0, carry) ← limbStep f.l0 carry
  let (l1, carry) ← limbStep f.l1 carry
  let (l2, carry) ← limbStep f.l2 carry
  let (l3, carry) ← limbStep f.l3 carry
  let (l4, carry) ← limbStep f.l4 carry
  return (⟨l0, l1, l2, l3, l4⟩, carry)

/-- The loop of `fe_fold_carry`. `none`: it overflows, or takes more than `fuel` rounds. -/
def foldLoop : Nat → Fe → Nat → Option Fe
  | 0, _, _ => none
  | fuel + 1, f, carry => do
    let (f, carry) ← carryChain f carry
    if carry = 0 then return f
    else do
      let carry ← mul 128 carry FE_CARRY_FOLD
      foldLoop fuel f carry

/-- Three rounds are enough for every call. -/
def feFoldCarry (f : Fe) (carry : Nat) : Option Fe := foldLoop 3 f carry

def feFold (f : Fe) : Option Fe := feFoldCarry f 0

def FOUR_P_LIMBS : Fe := ⟨2 ^ 53 - 76, 2 ^ 53 - 4, 2 ^ 53 - 4, 2 ^ 53 - 4, 2 ^ 53 - 4⟩

namespace Fe

def add (a b : Fe) : Option Fe := do
  let l0 ← Checked.add 64 a.l0 b.l0
  let l1 ← Checked.add 64 a.l1 b.l1
  let l2 ← Checked.add 64 a.l2 b.l2
  let l3 ← Checked.add 64 a.l3 b.l3
  let l4 ← Checked.add 64 a.l4 b.l4
  feFold ⟨l0, l1, l2, l3, l4⟩

def subLimb (fourP a b : Nat) : Option Nat := do
  let difference ← Checked.sub fourP b
  Checked.add 64 difference a

def sub (a b : Fe) : Option Fe := do
  let l0 ← subLimb FOUR_P_LIMBS.l0 a.l0 b.l0
  let l1 ← subLimb FOUR_P_LIMBS.l1 a.l1 b.l1
  let l2 ← subLimb FOUR_P_LIMBS.l2 a.l2 b.l2
  let l3 ← subLimb FOUR_P_LIMBS.l3 a.l3 b.l3
  let l4 ← subLimb FOUR_P_LIMBS.l4 a.l4 b.l4
  feFold ⟨l0, l1, l2, l3, l4⟩

/-- A column of the product: `low` at its place, and 19 times `high`, which belongs 255 bits up. -/
def column (low high : List (Nat × Nat)) : Option Nat := do
  let low ← addProducts 128 0 low
  let high ← addProducts 128 0 high
  let high ← Checked.mul 128 19 high
  Checked.add 128 low high

/-- The column of `c3`, where the source multiplies 19 into one factor. -/
def column3 (low : List (Nat × Nat)) (x y : Nat) : Option Nat := do
  let low ← addProducts 128 0 low
  let x ← Checked.mul 128 19 x
  let high ← Checked.mul 128 x y
  Checked.add 128 low high

def mul (a b : Fe) : Option Fe := do
  let c0 ← column [(a.l0, b.l0)] [(a.l1, b.l4), (a.l2, b.l3), (a.l3, b.l2), (a.l4, b.l1)]
  let c1 ← column [(a.l0, b.l1), (a.l1, b.l0)] [(a.l2, b.l4), (a.l3, b.l3), (a.l4, b.l2)]
  let c2 ← column [(a.l0, b.l2), (a.l1, b.l1), (a.l2, b.l0)] [(a.l3, b.l4), (a.l4, b.l3)]
  let c3 ← column3 [(a.l0, b.l3), (a.l1, b.l2), (a.l2, b.l1), (a.l3, b.l0)] a.l4 b.l4
  let c4 ← addProducts 128 0
    [(a.l0, b.l4), (a.l1, b.l3), (a.l2, b.l2), (a.l3, b.l1), (a.l4, b.l0)]
  -- the columns are carried like limbs, from a carry of zero
  let (limbs, carry) ← carryChain ⟨c0, c1, c2, c3, c4⟩ 0
  let carry ← Checked.mul 128 carry FE_CARRY_FOLD
  feFoldCarry limbs carry

def square (a : Fe) : Option Fe := mul a a

end Fe

/-! ## The number behind the limbs -/

def P : Nat := 2 ^ 255 - 19

def Fe.val (f : Fe) : Nat := f.l0 + 2 ^ 51 * f.l1 + 2 ^ 102 * f.l2 + 2 ^ 153 * f.l3 + 2 ^ 204 * f.l4

structure Fe.Below (bound : Nat) (f : Fe) : Prop where
  l0 : f.l0 < bound
  l1 : f.l1 < bound
  l2 : f.l2 < bound
  l3 : f.l3 < bound
  l4 : f.l4 < bound

/-- Every limb has 51 bits. -/
abbrev Fe.Reduced (f : Fe) : Prop := Fe.Below (2 ^ 51) f

variable {f : Fe}

lemma Fe.Reduced.val_lt (h : f.Reduced) : f.val < 2 ^ 255 := by
  obtain ⟨_, _, _, _, _⟩ := h
  unfold val
  omega

/-! ## Carrying -/

lemma limbStep_eq {limb carry : Nat} (h : carry + limb < 2 ^ 128) :
    limbStep limb carry = some ((carry + limb) % 2 ^ 51, (carry + limb) / 2 ^ 51) := by
  unfold limbStep
  rw [add_eq h]
  show some ((carry + limb) % 2 ^ 64 &&& (2 ^ 51 - 1), (carry + limb) >>> 51) = _
  rw [and_two_pow_sub_one_eq_mod, shiftRight_eq_div_pow, mod_mod_of_dvd]
  exact pow_dvd_pow 2 (by decide)

variable {carry : Nat}

lemma carryChain_spec (hf : Fe.Below (2 ^ 120) f)
    (hca : carry < 2 ^ 120) : ∃ f' carry', carryChain f carry = some (f', carry') ∧ f'.Reduced
      ∧ f'.val + 2 ^ 255 * carry' = f.val + carry := by
  obtain ⟨_, _, _, _, _⟩ := hf
  unfold carryChain
  rw [limbStep_eq (by omega)]
  simp only [bind_eq_bind, bind_some]
  rw [limbStep_eq (by omega)]
  simp only [bind_some]
  rw [limbStep_eq (by omega)]
  simp only [bind_some]
  rw [limbStep_eq (by omega)]
  simp only [bind_some]
  rw [limbStep_eq (by omega)]
  refine ⟨_, _, rfl, ⟨?_, ?_, ?_, ?_, ?_⟩, ?_⟩
  · exact mod_lt _ (by decide)
  · exact mod_lt _ (by decide)
  · exact mod_lt _ (by decide)
  · exact mod_lt _ (by decide)
  · exact mod_lt _ (by decide)
  unfold val
  dsimp only
  omega

lemma Fe.Below.mono {m n : Nat} (h : Fe.Below m f) (hmn : m ≤ n) : Fe.Below n f :=
  ⟨h.l0.trans_le hmn, h.l1.trans_le hmn, h.l2.trans_le hmn, h.l3.trans_le hmn, h.l4.trans_le hmn⟩

lemma fold_modEq (v carry : Nat) : v + carry * 19 ≡ v + 2 ^ 255 * carry [MOD P] := by
  have hsp : v + 2 ^ 255 * carry = v + carry * 19 + P * carry := by
    unfold P
    omega
  rw [hsp]
  exact (add_mul_mod_self_left _ P carry).symm

lemma foldLoop_round (fuel : Nat) (hf : Fe.Below (2 ^ 120) f) (hca : carry < 2 ^ 120) :
    ∃ f' carry', f'.Reduced ∧ f'.val + 2 ^ 255 * carry' = f.val + carry
      ∧ (carry' = 0 → foldLoop (fuel + 1) f carry = some f') ∧ (carry' ≠ 0 → carry' * 19 < 2 ^ 128 →
          foldLoop (fuel + 1) f carry = foldLoop fuel f' (carry' * 19)) := by
  obtain ⟨f', carry', hch, hrd, hvl⟩ := carryChain_spec hf hca
  refine ⟨f', carry', hrd, hvl, ?_, ?_⟩
  · intro h0
    unfold foldLoop
    rw [hch]
    simp [h0]
  intro hnz hro
  rw [foldLoop, hch]
  simp only [bind_eq_bind, bind_some]
  rw [if_neg hnz, FE_CARRY_FOLD, mul_eq hro]
  rfl

/-- Three rounds: the first leaves a number just above 2^255 at most, the second one that is far
below it if anything leaves at all. -/
lemma feFoldCarry_spec (hf : Fe.Below (2 ^ 120) f)
    (hca : carry < 2 ^ 120) (hsm : f.val + carry < 2 ^ 265) :
    ∃ f', feFoldCarry f carry = some f' ∧ f'.Reduced ∧ f'.val ≡ f.val + carry [MOD P] := by
  have hwd : ∀ {g : Fe}, g.Reduced → Fe.Below (2 ^ 120) g :=
    fun hg => hg.mono (Nat.pow_le_pow_right (by decide) (by decide))
  unfold feFoldCarry
  obtain ⟨f1, c₁, hred1, hval1, hlast1, hnext1⟩ := foldLoop_round 2 hf hca
  have hlt1 := hred1.val_lt
  by_cases hc₁ : c₁ = 0
  · refine ⟨f1, hlast1 hc₁, hred1, ?_⟩
    rw [← hval1, hc₁, mul_zero, add_zero]
  have hmod1 : f1.val + c₁ * 19 ≡ f.val + carry [MOD P] := hval1 ▸ fold_modEq f1.val c₁
  rw [hnext1 hc₁ (by omega)]
  obtain ⟨f2, c₂, hred2, hval2, hlast2, hnext2⟩ :=
    foldLoop_round 1 (hwd hred1) (show c₁ * 19 < 2 ^ 120 by omega)
  by_cases hc₂ : c₂ = 0
  · refine ⟨f2, hlast2 hc₂, hred2, ?_⟩
    rw [hc₂, mul_zero, add_zero] at hval2
    rw [hval2]
    exact hmod1
  have hmod2 : f2.val + c₂ * 19 ≡ f.val + carry [MOD P] :=
    (hval2 ▸ fold_modEq f2.val c₂).trans hmod1
  rw [hnext2 hc₂ (by omega)]
  obtain ⟨f3, c₃, hred3, hval3, hlast3, _⟩ :=
    foldLoop_round 0 (hwd hred2) (show c₂ * 19 < 2 ^ 120 by omega)
  have hc₃ : c₃ = 0 := by omega
  refine ⟨f3, hlast3 hc₃, hred3, ?_⟩
  rw [hc₃, mul_zero, add_zero] at hval3
  rw [hval3]
  exact hmod2

/-! ## The operations in the field -/

structure Rep (f : Fe) (x : ZMod P) : Prop where
  reduced : f.Reduced
  val : (f.val : ZMod P) = x

lemma two_pow_255 : (2 : ZMod P) ^ 255 = 19 := by
  have hcs : ((2 ^ 255 : Nat) : ZMod P) = ((19 : Nat) : ZMod P) :=
    (ZMod.natCast_eq_natCast_iff _ _ _).mpr (by decide +kernel)
  exact_mod_cast hcs

lemma rep_one : Rep one 1 := by
  refine ⟨⟨by decide, by decide, by decide, by decide, by decide⟩, ?_⟩
  exact cast_one

lemma rep_of_fold {x : ZMod P} (hf : Fe.Below (2 ^ 120) f)
    (hca : carry < 2 ^ 120) (hsm : f.val + carry < 2 ^ 265)
    (hvl : ((f.val + carry : Nat) : ZMod P) = x) :
    ∃ f', feFoldCarry f carry = some f' ∧ Rep f' x := by
  obtain ⟨f', hfo, hrd, hmd⟩ := feFoldCarry_spec hf hca hsm
  exact ⟨f', hfo, hrd, ((ZMod.natCast_eq_natCast_iff _ _ _).mpr hmd).trans hvl⟩

variable {a b : Fe} {x y : ZMod P}

lemma Rep.add (ha : Rep a x) (hb : Rep b y) : ∃ c, add a b = some c ∧ Rep c (x + y) := by
  obtain ⟨_, _, _, _, _⟩ := ha.reduced
  obtain ⟨_, _, _, _, _⟩ := hb.reduced
  unfold Fe.add
  rw [add_eq (by omega), add_eq (by omega), add_eq (by omega), add_eq (by omega), add_eq (by omega)]
  apply rep_of_fold
  · constructor <;> dsimp only <;> omega
  · decide
  · unfold Fe.val
    dsimp only
    omega
  rw [← ha.val, ← hb.val, ← cast_add]
  congr 1
  unfold Fe.val
  dsimp only
  omega

lemma subLimb_eq {fourP a b : Nat} (hb : b ≤ fourP) (hro : fourP + a < 2 ^ 64) :
    subLimb fourP a b = some (fourP - b + a) := by
  unfold subLimb
  rw [sub_eq hb]
  exact add_eq (by omega)

lemma Rep.sub (ha : Rep a x) (hb : Rep b y) : ∃ c, sub a b = some c ∧ Rep c (x - y) := by
  obtain ⟨_, _, _, _, _⟩ := ha.reduced
  obtain ⟨_, _, _, _, _⟩ := hb.reduced
  unfold Fe.sub FOUR_P_LIMBS
  dsimp only
  rw [subLimb_eq (by omega) (by omega), subLimb_eq (by omega) (by omega),
    subLimb_eq (by omega) (by omega), subLimb_eq (by omega) (by omega),
    subLimb_eq (by omega) (by omega)]
  apply rep_of_fold
  · constructor <;> dsimp only <;> omega
  · decide
  · unfold Fe.val
    dsimp only
    omega
  -- four times p is zero in the field
  rw [← ha.val, ← hb.val, eq_sub_iff_add_eq, ← cast_add]
  have hsm : ∀ n m : Nat, n = m + P * 4 → (n : ZMod P) = (m : ZMod P) := by
    intro n m h
    rw [h, cast_add, cast_mul, ZMod.natCast_self, zero_mul, add_zero]
  apply hsm
  unfold Fe.val P
  dsimp only
  omega

def Small (ps : List (Nat × Nat)) : Prop := ∀ p ∈ ps, p.1 < 2 ^ 51 ∧ p.2 < 2 ^ 51

lemma Small.nil : Small [] := nofun

lemma Small.cons {u v : Nat} {ps : List (Nat × Nat)} (hu : u < 2 ^ 51) (hv : v < 2 ^ 51)
    (hps : Small ps) : Small ((u, v) :: ps) :=
  forall_mem_cons.mpr ⟨⟨hu, hv⟩, hps⟩

lemma addProducts_small {ps : List (Nat × Nat)} (hps : Small ps) (hl : ps.length ≤ 5) :
    addProducts 128 0 ps = some (ps.map fun p => p.1 * p.2).sum
      ∧ (ps.map fun p => p.1 * p.2).sum ≤ 5 * 2 ^ 102 := by
  have hpr : ∀ p ∈ ps, p.1 * p.2 ≤ 2 ^ 102 := by
    intro p hp
    obtain ⟨h1, h2⟩ := hps p hp
    calc p.1 * p.2 ≤ 2 ^ 51 * 2 ^ 51 := Nat.mul_le_mul h1.le h2.le
      _ = 2 ^ 102 := by decide
  have hsm := sum_le_card_nsmul (ps.map fun p => p.1 * p.2) (2 ^ 102) (by
    intro n hn
    obtain ⟨p, hp, rfl⟩ := mem_map.mp hn
    exact hpr p hp)
  rw [length_map] at hsm
  have hcn : ps.length * 2 ^ 102 ≤ 5 * 2 ^ 102 := mul_le_mul_right _ hl
  refine ⟨?_, hsm.trans hcn⟩
  rw [addProducts_eq ps hpr (by omega), zero_add]

lemma column_eq {low high : List (Nat × Nat)} (hlw : Small low) (hhi : Small high)
    (hll : low.length ≤ 5) (hhg : high.length ≤ 5) :
    ∃ c, column low high = some c ∧ c < 2 ^ 110
      ∧ c = (low.map fun p => p.1 * p.2).sum + 19 * (high.map fun p => p.1 * p.2).sum := by
  obtain ⟨hlw', _⟩ := addProducts_small hlw hll
  obtain ⟨hhi', _⟩ := addProducts_small hhi hhg
  refine ⟨_, ?_, ?_, rfl⟩
  · unfold column
    rw [hlw', hhi']
    simp only [bind_eq_bind, bind_some]
    rw [mul_eq (by omega)]
    exact add_eq (by omega)
  · omega

lemma column3_eq {low : List (Nat × Nat)} {u v : Nat} (hlw : Small low) (hhi : Small [(u, v)])
    (hll : low.length ≤ 5) : ∃ c, column3 low u v = some c ∧ c < 2 ^ 110
      ∧ c = (low.map fun p => p.1 * p.2).sum + 19 * u * v := by
  obtain ⟨hlw', _⟩ := addProducts_small hlw hll
  obtain ⟨_, hhg⟩ := addProducts_small hhi (by simp)
  obtain ⟨_, _⟩ := hhi (u, v) mem_cons_self
  simp only [map_cons, sum_cons] at hhg
  have hac : 19 * u * v = 19 * (u * v) := mul_assoc 19 u v
  refine ⟨_, ?_, ?_, rfl⟩
  · unfold column3
    rw [hlw']
    simp only [bind_eq_bind]
    rw [mul_eq (by omega)]
    simp only [bind_some]
    rw [mul_eq (by omega)]
    exact add_eq (by omega)
  · omega

lemma Rep.mul (ha : Rep a x) (hb : Rep b y) : ∃ c, mul a b = some c ∧ Rep c (x * y) := by
  obtain ⟨a0, a1, a2, a3, a4⟩ := ha.reduced
  obtain ⟨b0, b1, b2, b3, b4⟩ := hb.reduced
  -- the five columns
  obtain ⟨c0, hc0, _, heq0⟩ := column_eq (.cons a0 b0 .nil)
    (.cons a1 b4 (.cons a2 b3 (.cons a3 b2 (.cons a4 b1 .nil)))) (by simp) (by simp)
  obtain ⟨c1, hc1, _, heq1⟩ := column_eq (.cons a0 b1 (.cons a1 b0 .nil))
    (.cons a2 b4 (.cons a3 b3 (.cons a4 b2 .nil))) (by simp) (by simp)
  obtain ⟨c2, hc2, _, heq2⟩ := column_eq (.cons a0 b2 (.cons a1 b1 (.cons a2 b0 .nil)))
    (.cons a3 b4 (.cons a4 b3 .nil)) (by simp) (by simp)
  obtain ⟨c3, hc3, _, heq3⟩ := column3_eq
    (.cons a0 b3 (.cons a1 b2 (.cons a2 b1 (.cons a3 b0 .nil)))) (.cons a4 b4 .nil) (by simp)
  obtain ⟨hc4, hlt4⟩ := addProducts_small
    (.cons a0 b4 (.cons a1 b3 (.cons a2 b2 (.cons a3 b1 (.cons a4 b0 .nil))))) (by simp)
  simp only [map_cons, map_nil, sum_cons, sum_nil]
    at heq0 heq1 heq2 heq3 hlt4 hc4
  generalize heq4 : a.l0 * b.l4 + (a.l1 * b.l3 + (a.l2 * b.l2 + (a.l3 * b.l1 + a.l4 * b.l0))) = c4
    at hc4 hlt4
  have hbl : Fe.Below (2 ^ 120) ⟨c0, c1, c2, c3, c4⟩ := by constructor <;> dsimp only <;> omega
  obtain ⟨limbs, carry, hch, hrd, hvl⟩ := carryChain_spec hbl (Nat.two_pow_pos 120)
  have hlb := hrd.val_lt
  have hcl : Fe.val ⟨c0, c1, c2, c3, c4⟩ < 2 ^ 320 := by
    unfold Fe.val
    dsimp only
    omega
  unfold Fe.mul
  rw [hc0, hc1, hc2, hc3, hc4]
  simp only [bind_eq_bind, bind_some]
  rw [hch]
  simp only [bind_some]
  rw [FE_CARRY_FOLD, mul_eq (by omega)]
  apply rep_of_fold
  · exact hrd.mono (Nat.pow_le_pow_right (by decide) (by decide))
  · omega
  · omega
  have hfo : ((limbs.val + carry * 19 : Nat) : ZMod P)
      = ((Fe.val ⟨c0, c1, c2, c3, c4⟩ : Nat) : ZMod P) := by
    rw [← add_zero (Fe.val ⟨c0, c1, c2, c3, c4⟩), ← hvl]
    exact (ZMod.natCast_eq_natCast_iff _ _ _).mpr (fold_modEq _ _)
  rw [hfo, ← ha.val, ← hb.val]
  unfold Fe.val
  rw [heq0, heq1, heq2, heq3, ← heq4]
  push_cast
  -- what belongs 255 bits up has been folded down with 19
  linear_combination (-((a.l1 * b.l4 + a.l2 * b.l3 + a.l3 * b.l2 + a.l4 * b.l1)
    + 2 ^ 51 * (a.l2 * b.l4 + a.l3 * b.l3 + a.l4 * b.l2)
    + 2 ^ 102 * (a.l3 * b.l4 + a.l4 * b.l3) + 2 ^ 153 * (a.l4 * b.l4) : ZMod P)) * two_pow_255

end Nt61.Sshd.X25519
