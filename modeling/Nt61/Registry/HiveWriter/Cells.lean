/-
Cells — what the writer's methods leave in the body.

Every method only adds to the body (`Grown`). A cell lies in one HBIN, behind its header, so the
headers that are written at the end leave it alone. What a call has written is described through a
view of the body from the old end on (`bodyView`); fields that are filled in later lie before it.
-/
import Nt61.Registry.HiveLayout
import Nt61.Registry.HiveWriter.Model

namespace Nt61.Registry

open Lib Lib.Fallible Lib.Checked List Option Nat

namespace HiveWriter

/-! ## The body -/

/-- The body consists of less than 2^20 HBINs, the last of which is being filled. -/
def Ready (w : HiveWriter) : Prop :=
  ∃ n, n + 1 < 2 ^ 20 ∧ w.hbinHeaders = (range (n + 1)).map (· * HBIN_SIZE) ∧
    n * HBIN_SIZE + HBIN_HEADER_SIZE ≤ w.body.length ∧ w.body.length ≤ (n + 1) * HBIN_SIZE

/-- The bytes that stand in the body from `lo` on, outside the HBIN headers. -/
def bodyView (body : Bytes) (lo : Nat) : View where
  len := HBIN_BASE + body.length
  has off bs := ∀ i < bs.length, HBIN_BASE + lo ≤ off + i ∧ HBIN_HEADER_SIZE ≤ (off + i) % HBIN_SIZE ∧
    body[off + i - HBIN_BASE]? = bs[i]?

structure Grown (w w' : HiveWriter) : Prop where
  ready : Ready w'
  len : w.body.length ≤ w'.body.length
  keeps : ∀ p < w.body.length, w'.body[p]? = w.body[p]?

/-- A cell of `size` bytes at `off` in the file lies in one HBIN. -/
structure InHbin (off size : Nat) : Prop where
  base : HBIN_BASE ≤ off
  low : HBIN_HEADER_SIZE ≤ off % HBIN_SIZE
  high : off % HBIN_SIZE + size ≤ HBIN_SIZE

section

variable {w w₁ w₂ : HiveWriter} {body body' bs : Bytes} {lo lo' off size : Nat}

lemma Grown.refl (h : Ready w) : Grown w w := ⟨h, le_refl _, fun _ _ => rfl⟩

lemma Grown.trans (h1 : Grown w w₁) (h2 : Grown w₁ w₂) : Grown w w₂ :=
  ⟨h2.ready, le_trans h1.len h2.len, fun p hp =>
    (h2.keeps p (lt_of_lt_of_le hp h1.len)).trans (h1.keeps p hp)⟩

lemma bodyView_le (hlo : lo' ≤ lo) (hl : body.length ≤ body'.length)
    (hs : ∀ p, lo ≤ p → p < body.length → body'[p]? = body[p]?) :
    (bodyView body lo).Le (bodyView body' lo') where
  len := Nat.add_le_add_left hl _
  has {off bs} h i hi := by
    obtain ⟨_, hpg, heq⟩ := h i hi
    have hso : body[off + i - HBIN_BASE]? = some bs[i] := by rw [heq, List.getElem?_eq_getElem hi]
    obtain ⟨hlt, -⟩ := List.getElem?_eq_some_iff.mp hso
    exact ⟨by omega, hpg, (hs _ (by omega) hlt).trans heq⟩

lemma Grown.view_le (h : Grown w w₁) : (bodyView w.body lo).Le (bodyView w₁.body lo) :=
  bodyView_le (le_refl _) h.len fun p _ hp => h.keeps p hp

lemma view_le_of_le (hlo : lo' ≤ lo) : (bodyView body lo).Le (bodyView body lo') :=
  bodyView_le hlo (le_refl _) fun _ _ _ => rfl

lemma InHbin.has (h : InHbin off size) {field : Nat} (hlo : HBIN_BASE + lo ≤ off)
    (hfd : field + bs.length ≤ size) (hsp : Spells body (off - HBIN_BASE + field) bs) :
    (bodyView body lo).has (off + field) bs := by
  obtain ⟨_, _, _⟩ := h
  intro i hi
  refine ⟨by omega, ?_, ?_⟩
  · unfold HBIN_SIZE at *
    omega
  · rw [show off + field + i - HBIN_BASE = off - HBIN_BASE + field + i by omega]
    exact hsp i hi

lemma InHbin.has_start (h : InHbin off size) (hlo : HBIN_BASE + lo ≤ off) (hl : bs.length ≤ size)
    (hsp : Spells body (off - HBIN_BASE) bs) : (bodyView body lo).has off bs := by
  rw [← add_zero (off - HBIN_BASE)] at hsp
  have hhs := h.has hlo (by omega) hsp
  rwa [add_zero] at hhs

end

/-! ## Appending a cell -/

structure Appended (w : HiveWriter) (off size : Nat) (contents : Bytes) (w' : HiveWriter) : Prop where
  grown : Grown w w'
  inHbin : InHbin off size
  behind : HBIN_BASE + w.body.length ≤ off
  ends : off + size = HBIN_BASE + w'.body.length
  small : off + size ≤ 2 ^ 32
  segLen : Spells w'.body (off - HBIN_BASE) (leBytes 4 (2 ^ 32 - size))
  contents : Spells w'.body (off - HBIN_BASE + 4) contents

section

variable {w w' : HiveWriter} {off size : Nat} {contents : Bytes}

lemma length_resize {body : Bytes} {len : Nat} (h : body.length ≤ len) :
    (resize body len).length = len := by
  unfold resize
  rw [length_append, length_take, length_replicate]
  omega

lemma getElem?_resize {body : Bytes} {len p : Nat} (h : body.length ≤ len) (hp : p < body.length) :
    (resize body len)[p]? = body[p]? := by
  unfold resize
  rw [take_of_length_le h, getElem?_append_left hp]

lemma ensureRoom_spec (hw : Ready w) (h : w.ensureRoom size = pure w') :
    size ≤ HBIN_SIZE - HBIN_HEADER_SIZE ∧ w.body.length ≤ w'.body.length ∧
      (∀ p < w.body.length, w'.body[p]? = w.body[p]?) ∧
      ∃ n, n < 2 ^ 20 ∧ w'.hbinHeaders = (range (n + 1)).map (· * HBIN_SIZE) ∧
        n * HBIN_SIZE + HBIN_HEADER_SIZE ≤ w'.body.length ∧
        w'.body.length + size ≤ (n + 1) * HBIN_SIZE ∧
        (n + 1 = 2 ^ 20 → w'.body.length = n * HBIN_SIZE + HBIN_HEADER_SIZE) := by
  obtain ⟨n, _, hhd, hlw, hhi⟩ := hw
  have hla : w.hbinHeaders.getLast? = some (n * HBIN_SIZE) := by
    rw [hhd, range_succ, map_append, map_singleton, getLast?_concat]
  unfold ensureRoom at h
  by_cases hbg : size > HBIN_SIZE - HBIN_HEADER_SIZE
  · rw [if_pos hbg] at h
    cases h
  rw [if_neg hbg, hla] at h
  dsimp only at h
  by_cases hfl : w.body.length + size > n * HBIN_SIZE + HBIN_SIZE
  · -- the HBIN is closed, and the cell starts the next one
    rw [if_pos hfl] at h
    have hl : w.body.length ≤ n * HBIN_SIZE + HBIN_SIZE := by rwa [succ_mul] at hhi
    have hrs := length_resize hl
    obtain rfl := pure_inj.mp h
    refine ⟨by omega, ?_, fun p hp => ?_, n + 1, by omega, ?_, ?_, ?_, ?_⟩
    · rw [length_append]
      omega
    · rw [getElem?_append_left (by omega), getElem?_resize hl hp]
    · rw [hrs, hhd, range_succ (n := n + 1), map_append, map_singleton, succ_mul]
    · rw [length_append, hrs, length_replicate, succ_mul]
    · rw [length_append, length_replicate, succ_mul, succ_mul]
      omega
    · intro _
      rw [length_append, hrs, length_replicate, succ_mul]
  rw [if_neg hfl] at h
  obtain rfl := pure_inj.mp h
  refine ⟨by omega, le_refl _, fun _ _ => rfl, n, by omega, hhd, hlw, ?_, by omega⟩
  rw [succ_mul]
  omega

lemma append_spec (hw : Ready w) (hl : contents.length + 4 = size)
    (h : w.append size contents = pure (off, w')) :
    off = HBIN_HEADER_SIZE ∨ Appended w off size contents w' := by
  obtain ⟨w₁, hro, h⟩ := bind_eq_pure_iff.mp h
  obtain ⟨hcp, _, hkp, n, _, hhd, _, _, _⟩ := ensureRoom_spec hw hro
  have hsz : size ≤ 4064 := hcp
  have hng : negLe size = some (leBytes 4 (2 ^ 32 - size)) := by
    unfold negLe
    rw [mod_eq_of_lt (by omega), if_neg (by omega)]
  rw [hng] at h
  obtain ⟨hof, hw'⟩ := Prod.mk.inj (pure_inj.mp h)
  unfold HBIN_SIZE HBIN_HEADER_SIZE at *
  by_cases hov : n + 1 = 2 ^ 20
  · -- the first cell after 4 GiB: its offset is cut off
    left
    unfold HBIN_BASE at hof
    omega
  right
  have hof' : off = HBIN_BASE + w₁.body.length := by
    rw [← hof]
    unfold HBIN_BASE
    omega
  have hs0 : off - HBIN_BASE = w₁.body.length := by omega
  have hbo : w'.body = w₁.body ++ (leBytes 4 (2 ^ 32 - size) ++ contents) := by rw [← hw']
  have hbodyLen : w'.body.length = w₁.body.length + size := by
    rw [hbo, length_append, length_append, leBytes_length]
    omega
  have hsp : Spells w'.body w₁.body.length (leBytes 4 (2 ^ 32 - size) ++ contents) := by
    intro i _
    rw [hbo, getElem?_append_right (by omega), Nat.add_sub_cancel_left]
  refine ⟨⟨?_, by omega, fun p hp => ?_⟩, ⟨by omega, ?_, ?_⟩, by omega, by omega, ?_, ?_, ?_⟩
  · refine ⟨n, by omega, by rw [← hw']; exact hhd, ?_, ?_⟩
    · unfold HBIN_SIZE HBIN_HEADER_SIZE
      omega
    · unfold HBIN_SIZE
      omega
  · rw [hbo, getElem?_append_left (by omega), hkp p hp]
  · unfold HBIN_BASE HBIN_SIZE HBIN_HEADER_SIZE at *
    omega
  · unfold HBIN_BASE HBIN_SIZE at *
    omega
  · unfold HBIN_BASE at *
    omega
  · rw [hs0]
    exact (spells_append.mp hsp).1
  · rw [hs0]
    exact (spells_append.mp hsp).2

lemma le_alignTo (n : Nat) : n ≤ alignTo n 8 := by
  unfold alignTo
  omega

lemma alignTo_alignTo (n : Nat) : alignTo (alignTo n 8) 8 = alignTo n 8 := by
  unfold alignTo
  omega

lemma appendCell_spec {n : Nat} {id : Bytes} (hw : Ready w) (hn : 8 ≤ n) (hid : id.length = 2)
    (h : w.appendCell id (replicate (alignTo n 8 - 8) 0) = pure (off, w')) :
    off = HBIN_HEADER_SIZE ∨ ∃ contents, Appended w off (alignTo n 8) contents w' ∧
      Spells w'.body (off - HBIN_BASE + 4) id := by
  have hle := le_alignTo n
  have htt : 8 + (replicate (alignTo n 8 - 8) (0 : UInt8)).length = alignTo n 8 := by
    rw [length_replicate]
    omega
  unfold appendCell at h
  simp only [htt, alignTo_alignTo] at h
  have hl : (id ++ [0, 0] ++ replicate (alignTo n 8 - 8) (0 : UInt8)
      ++ replicate (alignTo n 8 - alignTo n 8) 0).length + 4 = alignTo n 8 := by
    rw [length_append, length_append, length_append, length_replicate, length_replicate]
    simp only [length_cons, length_nil]
    omega
  rcases append_spec hw hl h with hbd | hap
  · exact .inl hbd
  refine .inr ⟨_, hap, ?_⟩
  have hcn := hap.contents
  rw [append_assoc, append_assoc] at hcn
  exact (spells_append.mp hcn).1

lemma appendRawCell_spec (hw : Ready w) (hsz : 4 ≤ size)
    (h : w.appendRawCell size = pure (off, w')) :
    off = HBIN_HEADER_SIZE ∨ ∃ contents, Appended w off size contents w' := by
  rcases append_spec hw (by rw [length_replicate]; omega) h with hbd | hap
  · exact .inl hbd
  · exact .inr ⟨_, hap⟩

end

/-! ## Values -/

section

variable {w w₁ w' : HiveWriter} {off : Nat}

lemma Grown.fill {body : Bytes} (h : Grown w w₁) (hl : body.length = w₁.body.length)
    (hs : ∀ p < w.body.length, body[p]? = w₁.body[p]?) : Grown w { w₁ with body } where
  ready := by
    obtain ⟨n, hfw, hhd, _, _⟩ := h.ready
    refine ⟨n, hfw, hhd, ?_, ?_⟩
    · rwa [hl]
    · rwa [hl]
  len := by
    rw [hl]
    exact h.len
  keeps p hp := (hs p hp).trans (h.keeps p hp)

lemma sub_base_of_bad {field pos : Nat} (hfd : field < 64)
    (h : sub (HBIN_HEADER_SIZE + field) HBIN_BASE = some pos) : False := by
  have := sub_eq_some_iff.mp h
  unfold HBIN_HEADER_SIZE HBIN_BASE at this
  omega

lemma toHbinRel_eq_some_iff {abs rel : Nat} (h : abs ≠ 0) :
    toHbinRel abs = some rel ↔ rel + HBIN_BASE = abs := by
  unfold toHbinRel
  rw [if_neg h, sub_eq_some_iff]

lemma and_inline_flag {n : Nat} (h : n < 2 ^ 31) :
    n &&& VK_DATA_INLINE_FLAG = 0 ∧ n &&& (2 ^ 32 - 1 - VK_DATA_INLINE_FLAG) = n := by
  constructor
  · apply eq_of_testBit_eq
    intro i
    have hfl : VK_DATA_INLINE_FLAG = 2 ^ 31 := rfl
    rw [hfl, testBit_and, testBit_two_pow]
    by_cases hi : 31 = i
    · rw [← hi, testBit_lt_two_pow h]
      rfl
    · simp [hi]
  · have hma : 2 ^ 32 - 1 - VK_DATA_INLINE_FLAG = 2 ^ 31 - 1 := by decide
    rw [hma, and_two_pow_sub_one_eq_mod, mod_eq_of_lt h]

lemma dataAt_inline {view : View} {data : Bytes} (h : data.length ≤ VK_INLINE_MAX) :
    DataAt view (VK_DATA_INLINE_FLAG ||| data.length)
      (leValue (data ++ replicate (VK_INLINE_MAX - data.length) 0)) data := by
  have hle : data.length ≤ 4 := h
  have hbi : (VK_DATA_INLINE_FLAG ||| data.length) &&& VK_DATA_INLINE_FLAG ≠ 0 ∧
      min ((VK_DATA_INLINE_FLAG ||| data.length) &&& (2 ^ 32 - 1 - VK_DATA_INLINE_FLAG)) VK_INLINE_MAX
        = data.length := by
    generalize data.length = n at hle ⊢
    revert n
    decide
  have hl : (data ++ replicate (VK_INLINE_MAX - data.length) 0).length = 4 := by
    rw [length_append, length_replicate]
    unfold VK_INLINE_MAX
    omega
  have hba := leBytes_leValue (data ++ replicate (VK_INLINE_MAX - data.length) 0)
  rw [hl] at hba
  unfold DataAt
  rw [if_pos hbi.1, hbi.2, hba, take_left]

lemma writeData_spec {data : Bytes} {dataSize dataOffset : Nat} (hw : Ready w)
    (h : w.writeData data = pure ((dataSize, dataOffset), w')) :
    Grown w w' ∧ dataSize < 2 ^ 32 ∧ dataOffset < 2 ^ 32 ∧
      DataAt (bodyView w'.body w.body.length) dataSize dataOffset data := by
  unfold writeData at h
  by_cases hin : data.length ≤ VK_INLINE_MAX
  · rw [if_pos hin] at h
    obtain ⟨hfs, rfl⟩ := Prod.mk.inj (pure_inj.mp h)
    obtain ⟨rfl, rfl⟩ := Prod.mk.inj hfs
    refine ⟨.refl hw, ?_, ?_, dataAt_inline hin⟩
    · have hle : data.length ≤ 4 := hin
      exact Nat.or_lt_two_pow (by decide) (by omega)
    have hlt := leValue_lt (data ++ replicate (VK_INLINE_MAX - data.length) 0)
    rw [length_append, length_replicate, Nat.add_sub_cancel' hin] at hlt
    exact hlt
  rw [if_neg hin] at h
  obtain ⟨⟨dsOff, _⟩, hap, h1⟩ := bind_eq_pure_iff.mp h
  obtain ⟨_, had, h2⟩ := orPanic_bind_eq_pure_iff.mp h1
  obtain ⟨start, hs0, h3⟩ := orPanic_bind_eq_pure_iff.mp h2
  obtain ⟨body, hpt, h4⟩ := orPanic_bind_eq_pure_iff.mp h3
  obtain ⟨rel, hrl, h5⟩ := orPanic_bind_eq_pure_iff.mp h4
  obtain ⟨-, rfl⟩ := add_eq_some_iff.mp had
  have hrl := (toHbinRel_eq_some_iff (by omega)).mp hrl
  obtain ⟨hfs, rfl⟩ := Prod.mk.inj (pure_inj.mp h5)
  obtain ⟨rfl, rfl⟩ := Prod.mk.inj hfs
  have hal := le_alignTo (4 + data.length)
  rcases appendRawCell_spec hw (by omega) hap with rfl | ⟨_, hce⟩
  · exact (sub_base_of_bad (by decide) hs0).elim
  have hs0 := sub_eq_some_iff.mp hs0
  have hbh := hce.behind
  have hsm := hce.small
  have hsz := hce.inHbin.high
  unfold HBIN_SIZE at hsz
  have hl : data.length % 2 ^ 32 = data.length := mod_eq_of_lt (by omega)
  obtain ⟨hfl, hma⟩ := and_inline_flag (show data.length < 2 ^ 31 by omega)
  refine ⟨?_, by omega, by omega, ?_⟩
  · refine hce.grown.fill (length_patch hpt) fun p hp => ?_
    rw [getElem?_patch hpt, if_neg (by omega)]
  unfold DataAt
  rw [hl, hfl, hma]
  have hat : HBIN_BASE + rel = dsOff + 4 := by omega
  refine ⟨rfl, ?_, ?_⟩
  · have hes := hce.ends
    show HBIN_BASE + rel + data.length ≤ HBIN_BASE + body.length
    rw [length_patch hpt]
    omega
  rw [hat]
  refine hce.inHbin.has hbh (by omega) ?_
  rw [show dsOff - HBIN_BASE + 4 = start by omega]
  exact patch_spells hpt

structure Filled (w : HiveWriter) (off size : Nat) (w₁ w₂ : HiveWriter) (fields : List (Nat × Bytes))
    (body : Bytes) : Prop where
  grown : Grown w { w₂ with body }
  rest : (bodyView w₂.body w₁.body.length).Le (bodyView body w.body.length)
  segLen : (bodyView body w.body.length).has off (leBytes 4 (2 ^ 32 - size))
  id : (∀ f ∈ fields, 6 ≤ f.1) → ∀ id : Bytes, id.length = 2 →
    Spells w₁.body (off - HBIN_BASE + 4) id → (bodyView body w.body.length).has (off + 4) id
  fields : ∀ field ∈ fields, (bodyView body w.body.length).has (off + field.1) field.2
  len : body.length = w₂.body.length

lemma fill_spec {w₂ : HiveWriter} {size : Nat} {contents body : Bytes}
    {fields : List (Nat × Bytes)} (hce : Appended w off size contents w₁) (hgr : Grown w₁ w₂)
    (hsr : fields.Pairwise fun f g => f.1 + f.2.length ≤ g.1)
    (hin : ∀ f ∈ fields, 4 ≤ f.1 ∧ f.1 + f.2.length ≤ size) (hsz : 8 ≤ size)
    (hpt : patchFields w₂.body (off - HBIN_BASE) fields = some body) :
    Filled w off size w₁ w₂ fields body := by
  have hbh := hce.behind
  have hes := hce.ends
  have hl := length_patchFields hpt
  -- bytes before the fields, and those behind the cell, stay
  have hbf : ∀ n, (∀ f ∈ fields, n ≤ f.1) → ∀ p, p < off - HBIN_BASE + n →
      body[p]? = w₂.body[p]? := by
    intro n hn p hp
    refine patchFields_outside hpt fun f hf => ?_
    have := hn f hf
    omega
  have haf : ∀ p, w₁.body.length ≤ p → body[p]? = w₂.body[p]? := by
    intro p hp
    refine patchFields_outside hpt fun f hf => ?_
    have := hin f hf
    omega
  have hfo : ∀ f ∈ fields, 4 ≤ f.1 := fun f hf => (hin f hf).1
  refine ⟨?_, ?_, ?_, fun hsx id hid hsp => ?_, fun f hf => ?_, hl⟩
  · exact (hce.grown.trans hgr).fill hl fun p hp => hbf 4 hfo p (by omega)
  · exact bodyView_le hce.grown.len (le_of_eq hl.symm) fun p hp _ => haf p hp
  · have hln := leBytes_length 4 (2 ^ 32 - size)
    refine hce.inHbin.has_start hbh (by omega) (hce.segLen.congr fun p _ hp => ?_)
    exact (hbf 4 hfo p (by omega)).trans (hgr.keeps p (by omega))
  · refine hce.inHbin.has hbh (by omega) (hsp.congr fun p _ hp => ?_)
    exact (hbf 6 hsx p (by omega)).trans (hgr.keeps p (by omega))
  · exact hce.inHbin.has hbh (hin f hf).2 (patchFields_spells hpt hsr f hf)

lemma segLen_of_size {size : Nat} (hp : 0 < size) (hsz : size ≤ HBIN_SIZE) :
    2 ^ 31 ≤ 2 ^ 32 - size ∧ 2 ^ 32 - size < 2 ^ 32 := by
  unfold HBIN_SIZE at hsz
  omega

lemma decodeName_encodeName (s : Text) : decodeName (encodeName s).2 (encodeName s).1 = s := by
  unfold encodeName
  by_cases hac : s.all (fun c => decide (c.toNat < 0x80)) = true
  · rw [if_pos hac]
    refine fromUtf8Lossy_asciiBytes fun c hc => ?_
    exact of_decide_eq_true (all_eq_true.mp hac c hc)
  rw [if_neg hac]
  have hl := length_utf16Le (utf16 s)
  show decodeHiveName (utf16Le (utf16 s)) = s
  unfold decodeHiveName
  split
  · next hem =>
    -- only an empty name has no units
    rw [isEmpty_iff_length_eq_zero] at hem
    have hnl : utf16 s = [] := length_eq_zero_iff.mp (by omega)
    have hba := fromUtf16_utf16 s
    rw [hnl] at hba
    exact some.inj hba
  · rw [if_neg (by omega), unitsLe_utf16Le (utf16_lt s), fromUtf16_utf16]

lemma decodeName_flag {flag : Nat} (hfl : flag ≠ 0) (name : Text) :
    decodeName ((if (encodeName name).2 then flag else 0) &&& flag ≠ 0) (encodeName name).1 = name := by
  have hst : decide ((if (encodeName name).2 then flag else 0) &&& flag ≠ 0) = (encodeName name).2 := by
    cases (encodeName name).2 <;> simp [hfl]
  rw [hst]
  exact decodeName_encodeName name

lemma writeValue_spec {v : HiveValue} (hw : Ready w) (h : w.writeValue v = pure (off, w')) :
    Grown w w' ∧ HBIN_BASE + w.body.length ≤ off ∧ off < 2 ^ 32 ∧
      ValueAt (bodyView w'.body w.body.length) off v := by
  obtain ⟨⟨vkOff, _⟩, hap, h1⟩ := bind_eq_pure_iff.mp h
  obtain ⟨⟨⟨dataSize, dataOffset⟩, _⟩, hd, h2⟩ := bind_eq_pure_iff.mp h1
  obtain ⟨vkBody, hbo, h3⟩ := orPanic_bind_eq_pure_iff.mp h2
  obtain ⟨body, hpt, h4⟩ := orPanic_bind_eq_pure_iff.mp h3
  obtain ⟨rfl, rfl⟩ := Prod.mk.inj (pure_inj.mp h4)
  have hal := le_alignTo (VK_NAME + (encodeName v.name).1.length)
  have hsz : VK_NAME + (encodeName v.name).1.length ≥ 0x18 := le_add_right _ _
  rcases appendCell_spec hw (by omega) rfl hap with rfl | ⟨_, hce, hid⟩
  · exact (@sub_base_of_bad 0 _ (by decide) hbo).elim
  obtain ⟨hgr, hsizeLt, hoffLt, hdataAt⟩ := writeData_spec hce.grown.ready hd
  have hbo := sub_eq_some_iff.mp hbo
  have hvk : vkBody = vkOff - HBIN_BASE := by omega
  rw [hvk] at hpt
  have hf := fill_spec hce hgr ?_ ?_ (by omega) hpt
  · have hfs := hf.fields
    simp only [forall_mem_cons] at hfs
    obtain ⟨hnameLen, hsizeAt, hoffAt, htypeAt, hflagsAt, hnameAt, -⟩ := hfs
    have hes := hce.ends
    have hsm := hce.small
    have hhi := hce.inHbin.high
    have hna : (encodeName v.name).1.length < 2 ^ 16 := by
      unfold HBIN_SIZE at *
      omega
    have hty : v.valueType.toU32 < 2 ^ 32 := by
      have := v.valueType.toU32_le
      omega
    have hfl : (if (encodeName v.name).2 then VK_FLAG_ASCII_NAME else 0) < 2 ^ 32 := by
      cases (encodeName v.name).2 <;> decide
    have hsg := segLen_of_size (show 0 < alignTo (VK_NAME + (encodeName v.name).1.length) 8 by omega)
      (by omega)
    refine ⟨hf.grown, hce.behind, by omega,
      ⟨(encodeName v.name).1, dataSize, dataOffset, v.valueType.toU32,
        if (encodeName v.name).2 then VK_FLAG_ASCII_NAME else 0⟩, ⟨?_, ?_, ?_, ?_, ?_, ?_, ?_, ?_, ?_⟩,
      ?_, ValueType.fromU32_toU32 _, hdataAt.mono hf.rest⟩
    · show vkOff + VK_NAME + (encodeName v.name).1.length ≤ HBIN_BASE + body.length
      rw [hf.len]
      have := hgr.len
      omega
    · exact ⟨_, hsg.1, hsg.2, hf.segLen⟩
    · refine hf.id ?_ ID_VK rfl hid
      simp [VK_NAME_LEN, VK_DATA_SIZE, VK_DATA_OFFSET, VK_DATA_TYPE, VK_FLAGS, VK_NAME]
    · exact ⟨hna, hnameLen⟩
    · exact ⟨hsizeLt, hsizeAt⟩
    · exact ⟨hoffLt, hoffAt⟩
    · exact ⟨hty, htypeAt⟩
    · exact ⟨hfl, hflagsAt⟩
    · exact hnameAt
    · exact decodeName_flag (by decide) v.name
  · simp [VK_NAME_LEN, VK_DATA_SIZE, VK_DATA_OFFSET, VK_DATA_TYPE, VK_FLAGS, VK_NAME]
  simp only [forall_mem_cons, leBytes_length]
  unfold VK_NAME_LEN VK_DATA_SIZE VK_DATA_OFFSET VK_DATA_TYPE VK_FLAGS VK_NAME at *
  refine ⟨?_, ?_, ?_, ?_, ?_, ?_, nofun⟩ <;> omega

lemma writeValues_spec {vs : List HiveValue} {offs : List Nat} (hw : Ready w)
    (h : w.writeValues vs = pure (offs, w')) :
    Grown w w' ∧ (∀ off ∈ offs, HBIN_BASE ≤ off ∧ off < 2 ^ 32) ∧
      List.Forall₂ (ValueAt (bodyView w'.body w.body.length)) offs vs := by
  induction vs generalizing w offs with
  | nil =>
    obtain ⟨rfl, rfl⟩ := Prod.mk.inj (pure_inj.mp h)
    exact ⟨.refl hw, nofun, .nil⟩
  | cons v vs ih =>
    obtain ⟨⟨off, _⟩, hv, h1⟩ := bind_eq_pure_iff.mp h
    obtain ⟨⟨_, _⟩, hvs, h2⟩ := bind_eq_pure_iff.mp h1
    obtain ⟨rfl, rfl⟩ := Prod.mk.inj (pure_inj.mp h2)
    obtain ⟨hgr, _, hsm, hat⟩ := writeValue_spec hw hv
    obtain ⟨hgr', hof, ha⟩ := ih hgr.ready hvs
    refine ⟨hgr.trans hgr', ?_, ?_⟩
    · rw [forall_mem_cons]
      exact ⟨⟨by omega, hsm⟩, hof⟩
    -- the first value is still there, and the others stand behind it
    refine .cons (hat.mono hgr'.view_le) (ha.imp fun _ _ hv => ?_)
    exact hv.mono (view_le_of_le hgr.len)

end

/-! ## Lists -/

section

variable {w w' : HiveWriter} {off : Nat} {offs : List Nat}

/-- The fields of a list of values, from the `k`-th on. -/
def vallistFields (k : Nat) (offs : List Nat) : List (Nat × Bytes) :=
  (offs.zipIdx k).map fun entry => (4 + entry.2 * 4, leBytes 4 (entry.1 - HBIN_BASE))

variable {k : Nat} {body body' : Bytes}

lemma fillVallist_cases {o : Nat} (h : fillVallist off body (o, k) = some body') :
    ∃ rel, toHbinRel o = some rel ∧ ∃ pos, sub (off + 4 + k % 2 ^ 32 * 4) HBIN_BASE = some pos
      ∧ patch body pos (leBytes 4 rel) = some body' := by
  obtain ⟨_, hs0, h1⟩ := bind_eq_some_iff.mp h
  obtain ⟨_, hs, h2⟩ := bind_eq_some_iff.mp h1
  obtain ⟨_, hsm, h3⟩ := bind_eq_some_iff.mp h2
  obtain ⟨rel, hrl, h4⟩ := bind_eq_some_iff.mp h3
  obtain ⟨-, rfl⟩ := add_eq_some_iff.mp hs0
  obtain ⟨-, rfl⟩ := mul_eq_some_iff.mp hs
  obtain ⟨-, rfl⟩ := add_eq_some_iff.mp hsm
  exact ⟨rel, hrl, bind_eq_some_iff.mp h4⟩

lemma fillVallist_eq (hb : HBIN_BASE ≤ off)
    (hof : ∀ o ∈ offs, HBIN_BASE ≤ o) (hfw : k + offs.length < 2 ^ 20)
    (h : (offs.zipIdx k).foldlM (fillVallist off) body = some body') :
    patchFields body (off - HBIN_BASE) (vallistFields k offs) = some body' := by
  induction offs generalizing k body with
  | nil => exact h
  | cons o offs ih =>
    obtain ⟨_, hen, hr⟩ := bind_eq_some_iff.mp h
    rw [length_cons] at hfw
    have ho := hof o mem_cons_self
    obtain ⟨rel, hrl, pos, hp, hpt⟩ := fillVallist_cases hen
    have hrl := (toHbinRel_eq_some_iff (by unfold HBIN_BASE at ho; omega)).mp hrl
    have hp := sub_eq_some_iff.mp hp
    have hp' : pos = off - HBIN_BASE + (4 + k * 4) := by omega
    have hrl' : rel = o - HBIN_BASE := by omega
    rw [hp', hrl'] at hpt
    have hcs : vallistFields k (o :: offs)
        = (4 + k * 4, leBytes 4 (o - HBIN_BASE)) :: vallistFields (k + 1) offs := rfl
    rw [hcs, patchFields_cons, hpt]
    exact ih (fun o' ho' => hof o' (mem_cons_of_mem _ ho')) (by omega) hr

lemma fillVallist_bad {o : Nat} (h : fillVallist HBIN_HEADER_SIZE body (o, 0) = some body') :
    False := by
  obtain ⟨_, _, _, hp, _⟩ := fillVallist_cases h
  exact sub_base_of_bad (by decide) hp

lemma mem_vallistFields {f : Nat × Bytes} (h : f ∈ vallistFields k offs) :
    4 + k * 4 ≤ f.1 ∧ f.1 + f.2.length ≤ 4 + (k + offs.length) * 4 := by
  obtain ⟨⟨_, _⟩, hen, rfl⟩ := mem_map.mp h
  obtain ⟨_, _, -⟩ := mem_zipIdx hen
  rw [leBytes_length]
  omega

lemma pairwise_vallistFields (k : Nat) (offs : List Nat) :
    (vallistFields k offs).Pairwise fun f g => f.1 + f.2.length ≤ g.1 := by
  induction offs generalizing k with
  | nil => exact List.Pairwise.nil
  | cons o offs ih =>
    refine pairwise_cons.mpr ⟨fun g hg => ?_, ih (k + 1)⟩
    have := mem_vallistFields hg
    rw [leBytes_length]
    dsimp only
    omega

lemma writeVallist_spec (hw : Ready w) (hof : ∀ o ∈ offs, HBIN_BASE ≤ o ∧ o < 2 ^ 32)
    (h : w.writeVallist offs = pure (off, w')) :
    Grown w w' ∧ ((offs = [] ∧ off = 0) ∨ (offs ≠ [] ∧ HBIN_BASE + w.body.length ≤ off ∧
      off < 2 ^ 32 ∧ offs.length < 2 ^ 20 ∧ off + 4 + offs.length * 4 ≤ HBIN_BASE + w'.body.length ∧
      EntriesAt (bodyView w'.body w.body.length) (off + 4) 4 offs)) := by
  unfold writeVallist at h
  by_cases hnl : offs = []
  · subst hnl
    obtain ⟨rfl, rfl⟩ := Prod.mk.inj (pure_inj.mp h)
    exact ⟨.refl hw, .inl ⟨rfl, rfl⟩⟩
  rw [isEmpty_eq_false_iff.mpr hnl] at h
  obtain ⟨⟨_, _⟩, hap, h1⟩ := bind_eq_pure_iff.mp h
  obtain ⟨body, hfo, h2⟩ := orPanic_bind_eq_pure_iff.mp h1
  obtain ⟨rfl, rfl⟩ := Prod.mk.inj (pure_inj.mp h2)
  have hal := le_alignTo (4 + offs.length * 4)
  have hp : 0 < offs.length := length_pos_of_ne_nil hnl
  rcases appendRawCell_spec hw (by omega) hap with rfl | ⟨_, hce⟩
  · cases offs with
    | nil => exact absurd rfl hnl
    | cons o offs =>
      obtain ⟨_, hen, -⟩ := bind_eq_some_iff.mp hfo
      exact (fillVallist_bad hen).elim
  have hhi := hce.inHbin.high
  unfold HBIN_SIZE at hhi
  have hpt := fillVallist_eq hce.inHbin.base (fun o ho => (hof o ho).1) (by omega) hfo
  have hin : ∀ f ∈ vallistFields 0 offs,
      4 ≤ f.1 ∧ f.1 + f.2.length ≤ alignTo (4 + offs.length * 4) 8 := by
    intro f hf
    have := mem_vallistFields hf
    omega
  have hfl := fill_spec hce (.refl hce.grown.ready) (pairwise_vallistFields 0 offs) hin
    (by omega) hpt
  have hes := hce.ends
  have hsm := hce.small
  refine ⟨hfl.grown, .inr ⟨hnl, hce.behind, by omega, by omega, ?_, fun i hi => ?_⟩⟩
  · rw [hfl.len]
    omega
  obtain ⟨_, _⟩ := hof offs[i] (getElem_mem hi)
  refine ⟨offs[i] - HBIN_BASE, by omega, by omega, ?_⟩
  have hfd := hfl.fields (4 + i * 4, leBytes 4 (offs[i] - HBIN_BASE)) ?_
  · rwa [← add_assoc] at hfd
  · refine mem_map.mpr ⟨(offs[i], i), ?_, rfl⟩
    exact mk_mem_zipIdx_iff_getElem?.mpr (getElem?_eq_getElem hi)

/-- The fields of a list of subkeys, from the `k`-th on. -/
def lhFields (k : Nat) (children : List (Nat × Text)) : List (Nat × Bytes) :=
  (children.zipIdx k).flatMap fun entry =>
    [(8 + entry.2 * 8, leBytes 4 (entry.1.1 - HBIN_BASE)),
      (8 + entry.2 * 8 + 4, leBytes 4 (entryHash entry.1.2))]

lemma lhFields_cons (k : Nat) (child : Nat × Text) (children : List (Nat × Text)) :
    lhFields k (child :: children)
      = (8 + k * 8, leBytes 4 (child.1 - HBIN_BASE)) :: (8 + k * 8 + 4, leBytes 4 (entryHash child.2))
        :: lhFields (k + 1) children := rfl

variable {children : List (Nat × Text)}

lemma fillLh_eq (hb : HBIN_BASE ≤ off) (hof : ∀ child ∈ children, HBIN_BASE ≤ child.1)
    (h : (children.zipIdx k).foldlM (fillLh (off + 8)) body = some body') :
    patchFields body (off - HBIN_BASE) (lhFields k children) = some body' := by
  induction children generalizing k body with
  | nil => exact h
  | cons child children ih =>
    obtain ⟨_, hen, hr⟩ := bind_eq_some_iff.mp h
    have ho := hof child mem_cons_self
    obtain ⟨rel, hrl, h1⟩ := bind_eq_some_iff.mp hen
    obtain ⟨pos, hp, h2⟩ := bind_eq_some_iff.mp h1
    obtain ⟨_, hpt, hha⟩ := bind_eq_some_iff.mp h2
    have hrl := (toHbinRel_eq_some_iff (by unfold HBIN_BASE at ho; omega)).mp hrl
    have hp := sub_eq_some_iff.mp hp
    unfold LH_ENTRY_SIZE at hp
    have hp' : pos = off - HBIN_BASE + (8 + k * 8) := by omega
    have hrl' : rel = child.1 - HBIN_BASE := by omega
    rw [hp', hrl'] at hpt
    rw [hp', add_assoc] at hha
    rw [lhFields_cons, patchFields_cons, hpt, bind_some, patchFields_cons, hha]
    exact ih (fun c hc => hof c (mem_cons_of_mem _ hc)) hr

lemma mem_lhFields {f : Nat × Bytes} (h : f ∈ lhFields k children) :
    8 + k * 8 ≤ f.1 ∧ f.1 + f.2.length ≤ 8 + (k + children.length) * 8 := by
  obtain ⟨⟨_, _⟩, hen, hf⟩ := mem_flatMap.mp h
  obtain ⟨_, _, -⟩ := mem_zipIdx hen
  simp only [mem_cons, not_mem_nil, or_false] at hf
  rcases hf with rfl | rfl <;>
  · rw [leBytes_length]
    omega

lemma pairwise_lhFields (k : Nat) (children : List (Nat × Text)) :
    (lhFields k children).Pairwise fun f g => f.1 + f.2.length ≤ g.1 := by
  induction children generalizing k with
  | nil => exact List.Pairwise.nil
  | cons child children ih =>
    rw [lhFields_cons, pairwise_cons, forall_mem_cons, pairwise_cons]
    simp only [leBytes_length]
    refine ⟨⟨le_refl _, fun g hg => ?_⟩, fun g hg => ?_, ih (k + 1)⟩
    · have := mem_lhFields hg
      omega
    · have := mem_lhFields hg
      omega

lemma writeLh_spec (hw : Ready w) (hof : ∀ child ∈ children, HBIN_BASE ≤ child.1 ∧ child.1 < 2 ^ 32)
    (h : w.writeLh children = pure (off, w')) :
    Grown w w' ∧ ((children = [] ∧ off = 0) ∨ (children ≠ [] ∧ HBIN_BASE + w.body.length ≤ off ∧
      off < 2 ^ 32 ∧ LhAt (bodyView w'.body w.body.length) off (children.map Prod.fst))) := by
  unfold writeLh at h
  by_cases hnl : children = []
  · subst hnl
    obtain ⟨rfl, rfl⟩ := Prod.mk.inj (pure_inj.mp h)
    exact ⟨.refl hw, .inl ⟨rfl, rfl⟩⟩
  rw [isEmpty_eq_false_iff.mpr hnl] at h
  obtain ⟨⟨lhOff, w₁⟩, hap, h1⟩ := bind_eq_pure_iff.mp h
  obtain ⟨_, hnrPos, h2⟩ := orPanic_bind_eq_pure_iff.mp h1
  obtain ⟨pos, hp, h3⟩ := orPanic_bind_eq_pure_iff.mp h2
  obtain ⟨_, hnr, h4⟩ := orPanic_bind_eq_pure_iff.mp h3
  obtain ⟨_, hs0, h5⟩ := orPanic_bind_eq_pure_iff.mp h4
  obtain ⟨body, hfo, h6⟩ := orPanic_bind_eq_pure_iff.mp h5
  obtain ⟨rfl, rfl⟩ := Prod.mk.inj (pure_inj.mp h6)
  obtain ⟨-, rfl⟩ := add_eq_some_iff.mp hnrPos
  obtain ⟨-, rfl⟩ := add_eq_some_iff.mp hs0
  have hsz : 8 + children.length * LH_ENTRY_SIZE = 8 + children.length * 8 := rfl
  rw [hsz] at hap
  have hal := le_alignTo (8 + children.length * 8)
  rcases appendCell_spec hw (by omega) rfl hap with rfl | ⟨_, hce, hid⟩
  · exact (sub_base_of_bad (by decide) hp).elim
  have hhi := hce.inHbin.high
  unfold HBIN_SIZE at hhi
  have hb := hce.inHbin.base
  have hp := sub_eq_some_iff.mp hp
  have hp' : pos = lhOff - HBIN_BASE + 6 := by omega
  rw [hp'] at hnr
  have hes := fillLh_eq hb (fun c hc => (hof c hc).1) hfo
  have hpt : patchFields w₁.body (lhOff - HBIN_BASE)
      ((6, leBytes 2 children.length) :: lhFields 0 children) = some body := by
    rw [patchFields_cons, hnr]
    exact hes
  have hsr : ((6, leBytes 2 children.length) :: lhFields 0 children).Pairwise
      fun f g => f.1 + f.2.length ≤ g.1 := by
    refine pairwise_cons.mpr ⟨fun g hg => ?_, pairwise_lhFields 0 children⟩
    have := mem_lhFields hg
    rw [leBytes_length]
    omega
  have hin : ∀ f ∈ (6, leBytes 2 children.length) :: lhFields 0 children,
      6 ≤ f.1 ∧ f.1 + f.2.length ≤ alignTo (8 + children.length * 8) 8 := by
    rw [forall_mem_cons]
    refine ⟨?_, fun f hf => ?_⟩
    · rw [leBytes_length]
      omega
    · have := mem_lhFields hf
      omega
  have hfl := fill_spec hce (.refl hce.grown.ready) hsr
    (fun f hf => ⟨by have := hin f hf; omega, (hin f hf).2⟩) (by omega) hpt
  have hen := hce.ends
  have hsm := hce.small
  refine ⟨hfl.grown, .inr ⟨hnl, hce.behind, by omega, ?_, ?_, ?_, fun i hi => ?_⟩⟩
  · show lhOff + 8 + (children.map Prod.fst).length * 8 ≤ HBIN_BASE + body.length
    rw [hfl.len, length_map]
    omega
  · exact hfl.id (fun f hf => (hin f hf).1) ID_LH rfl hid
  · rw [length_map]
    exact ⟨by omega, hfl.fields _ mem_cons_self⟩
  rw [length_map] at hi
  obtain ⟨_, _⟩ := hof children[i] (getElem_mem hi)
  rw [getElem_map]
  refine ⟨children[i].1 - HBIN_BASE, by omega, by omega, ?_⟩
  have hfd := hfl.fields (8 + i * 8, leBytes 4 (children[i].1 - HBIN_BASE)) ?_
  · rwa [← add_assoc] at hfd
  refine mem_cons_of_mem _ (mem_flatMap.mpr ⟨(children[i], i), ?_, ?_⟩)
  · exact mk_mem_zipIdx_iff_getElem?.mpr (getElem?_eq_getElem hi)
  · exact mem_cons_self

end

end HiveWriter

end Nt61.Registry
