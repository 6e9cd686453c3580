/-
HiveLayout — files in which the parser finds a given tree.

`KeyAt view off tree`: the key at `off` is the root of `tree`. The bytes are seen through a `View`,
so that the same can be said about a file that is still being written: a view that shows more keeps
it (`KeyAt.mono`). Of a whole file, the parser finds that tree (`KeyAt.walks`).
-/
import Nt61.Registry.Hive

namespace Nt61.Registry

open Lib Lib.Fallible Nat List

/-! ## Trees -/

inductive KeyTree where
  | mk (name : Text) (values : List Value) (subkeys : List KeyTree)

mutual

/-- A walk from `node` with `values` and `subkeys` finds the tree. -/
def Hive.Walks (hive : Hive) (node : KeyNode) : KeyTree → Prop
  | ⟨name, values, subkeys⟩ =>
    node.name = name ∧ hive.values node = .ok values ∧
      ∃ nodes, hive.subkeys node = pure nodes ∧ hive.WalksAll nodes subkeys

def Hive.WalksAll (hive : Hive) : List KeyNode → List KeyTree → Prop
  | [], [] => True
  | node :: nodes, tree :: trees => hive.Walks node tree ∧ hive.WalksAll nodes trees
  | _, _ => False

end

/-! ## Cells -/

/-- What is known of a file: a bound of its length, and bytes that stand in it. -/
structure View where
  len : Nat
  has : Nat → Bytes → Prop

def fileView (data : Bytes) : View := ⟨data.length, Spells data⟩

structure View.Le (view view' : View) : Prop where
  len : view.len ≤ view'.len
  has : ∀ {off bs}, view.has off bs → view'.has off bs

/-- The fields of an `nk` cell that are read. -/
structure NkCell where
  flags : Nat
  nrSubkeys : Nat
  subkeyLf : Nat
  nrValues : Nat
  vallist : Nat
  name : Bytes

structure NkAt (view : View) (off : Nat) (cell : NkCell) : Prop where
  bound : off + NK_NAME + cell.name.length ≤ view.len
  segLen : ∃ s, 2 ^ 31 ≤ s ∧ s < 2 ^ 32 ∧ view.has off (leBytes 4 s)
  id : view.has (off + 4) ID_NK
  flags : cell.flags < 2 ^ 16 ∧ view.has (off + NK_FLAGS) (leBytes 2 cell.flags)
  nrSubkeys : cell.nrSubkeys < 2 ^ 32 ∧ view.has (off + NK_NR_SUBKEYS) (leBytes 4 cell.nrSubkeys)
  subkeyLf : cell.subkeyLf < 2 ^ 32 ∧ view.has (off + NK_SUBKEY_LF) (leBytes 4 cell.subkeyLf)
  nrValues : cell.nrValues < 2 ^ 32 ∧ view.has (off + NK_NR_VALUES) (leBytes 4 cell.nrValues)
  vallist : cell.vallist < 2 ^ 32 ∧ view.has (off + NK_VALLIST) (leBytes 4 cell.vallist)
  nameLen : cell.name.length < 2 ^ 16 ∧ view.has (off + NK_NAME_LEN) (leBytes 2 cell.name.length)
  name : view.has (off + NK_NAME) cell.name

structure VkCell where
  name : Bytes
  dataSize : Nat
  dataOffset : Nat
  dataType : Nat
  flags : Nat

structure VkAt (view : View) (off : Nat) (cell : VkCell) : Prop where
  bound : off + VK_NAME + cell.name.length ≤ view.len
  segLen : ∃ s, 2 ^ 31 ≤ s ∧ s < 2 ^ 32 ∧ view.has off (leBytes 4 s)
  id : view.has (off + 4) ID_VK
  nameLen : cell.name.length < 2 ^ 16 ∧ view.has (off + VK_NAME_LEN) (leBytes 2 cell.name.length)
  dataSize : cell.dataSize < 2 ^ 32 ∧ view.has (off + VK_DATA_SIZE) (leBytes 4 cell.dataSize)
  dataOffset : cell.dataOffset < 2 ^ 32 ∧ view.has (off + VK_DATA_OFFSET) (leBytes 4 cell.dataOffset)
  dataType : cell.dataType < 2 ^ 32 ∧ view.has (off + VK_DATA_TYPE) (leBytes 4 cell.dataType)
  flags : cell.flags < 2 ^ 32 ∧ view.has (off + VK_FLAGS) (leBytes 4 cell.flags)
  name : view.has (off + VK_NAME) cell.name

variable (view : View)

/-- The data that a `vk` cell with these fields stands for. -/
def DataAt (dataSize dataOffset : Nat) (data : Bytes) : Prop :=
  if dataSize &&& VK_DATA_INLINE_FLAG ≠ 0 then
    data = (leBytes 4 dataOffset).take
      (min (dataSize &&& (2 ^ 32 - 1 - VK_DATA_INLINE_FLAG)) VK_INLINE_MAX)
  else
    data.length = dataSize &&& (2 ^ 32 - 1 - VK_DATA_INLINE_FLAG) ∧
      HBIN_BASE + dataOffset + data.length ≤ view.len ∧ view.has (HBIN_BASE + dataOffset) data

section

variable {view view' : View} {hive : Hive} {off : Nat}

lemma View.Le.trans {view'' : View} (h : view.Le view') (h' : view'.Le view'') : view.Le view'' :=
  ⟨le_trans h.len h'.len, fun hhs => h'.has (h.has hhs)⟩

lemma NkAt.mono {cell : NkCell} (h : NkAt view off cell) (hle : view.Le view') :
    NkAt view' off cell where
  bound := le_trans h.bound hle.len
  segLen := by
    obtain ⟨s, hlw, hhi, hs⟩ := h.segLen
    exact ⟨s, hlw, hhi, hle.has hs⟩
  id := hle.has h.id
  flags := h.flags.imp_right hle.has
  nrSubkeys := h.nrSubkeys.imp_right hle.has
  subkeyLf := h.subkeyLf.imp_right hle.has
  nrValues := h.nrValues.imp_right hle.has
  vallist := h.vallist.imp_right hle.has
  nameLen := h.nameLen.imp_right hle.has
  name := hle.has h.name

lemma VkAt.mono {cell : VkCell} (h : VkAt view off cell) (hle : view.Le view') :
    VkAt view' off cell where
  bound := le_trans h.bound hle.len
  segLen := by
    obtain ⟨s, hlw, hhi, hs⟩ := h.segLen
    exact ⟨s, hlw, hhi, hle.has hs⟩
  id := hle.has h.id
  nameLen := h.nameLen.imp_right hle.has
  dataSize := h.dataSize.imp_right hle.has
  dataOffset := h.dataOffset.imp_right hle.has
  dataType := h.dataType.imp_right hle.has
  flags := h.flags.imp_right hle.has
  name := hle.has h.name

variable {data : Bytes}

lemma DataAt.mono {size dataOff : Nat} (h : DataAt view size dataOff data)
    (hle : view.Le view') : DataAt view' size dataOff data := by
  unfold DataAt at *
  split
  · next hin => rwa [if_pos hin] at h
  next hin =>
  rw [if_neg hin] at h
  obtain ⟨hlen, hbd, hhs⟩ := h
  exact ⟨hlen, le_trans hbd hle.len, hle.has hhs⟩

lemma readU32_eq {v : Nat} (h : v < 2 ^ 32 ∧ Spells data off (leBytes 4 v)) :
    readU32 data off = some v := h.2.readLe (by decide) h.1

lemma readU16_eq {v : Nat} (h : v < 2 ^ 16 ∧ Spells data off (leBytes 2 v)) :
    readU16 data off = some v := h.2.readLe (by decide) h.1

lemma readI32_neg (h : ∃ s, 2 ^ 31 ≤ s ∧ s < 2 ^ 32 ∧ Spells data off (leBytes 4 s)) :
    ∃ segLen, readI32 data off = some segLen ∧ segLen < 0 := by
  obtain ⟨s, _, hhi, hs⟩ := h
  refine ⟨(s : Int) - 2 ^ 32, ?_, by omega⟩
  unfold readI32
  rw [hs.readLe (by decide) hhi, Option.map_some, if_neg (by omega)]

lemma NkAt.readNk {cell : NkCell} (h : NkAt (fileView hive.data) off cell) : hive.readNk off
      = .ok ⟨off % 2 ^ 32, decodeName (cell.flags &&& NK_FLAG_ASCII_NAME ≠ 0) cell.name, cell.flags⟩ := by
  have hbd : off + NK_NAME + cell.name.length ≤ hive.data.length := h.bound
  obtain ⟨segLen, hsg, hng⟩ := readI32_neg h.segLen
  have hid : slice hive.data (off + 4) 2 = ID_NK := Spells.slice_eq h.id
  have hna : slice hive.data (off + NK_NAME) cell.name.length = cell.name := Spells.slice_eq h.name
  simp only [Hive.readNk, ensure_pos (show off + NK_NAME ≤ hive.data.length by omega), hsg, okOr_some,
    ensure_pos hng, ensure_pos hid, readU16_eq h.flags, readU16_eq h.nameLen, ensure_pos hbd, hna,
    ok_bind]

lemma DataAt.readData {size dataOff : Nat}
    (h : DataAt (fileView hive.data) size dataOff data) : hive.readData size dataOff = .ok data := by
  unfold DataAt at h
  unfold Hive.readData
  split at h
  · next hin => rw [if_pos hin, h]
  next hin =>
  rw [if_neg hin]
  obtain ⟨hlen, hbd, hhs⟩ := h
  have hd : slice hive.data (HBIN_BASE + dataOff) data.length = data := Spells.slice_eq hhs
  have hle : HBIN_BASE + dataOff + data.length ≤ hive.data.length := hbd
  simp only [← hlen, ensure_pos hle, ok_bind, hd]

lemma VkAt.readVk {cell : VkCell} (h : VkAt (fileView hive.data) off cell)
    (hd : DataAt (fileView hive.data) cell.dataSize cell.dataOffset data) :
    hive.readVk off = .ok ⟨decodeName (cell.flags &&& VK_FLAG_ASCII_NAME ≠ 0) cell.name,
      .fromU32 cell.dataType, data⟩ := by
  have hbd : off + VK_NAME + cell.name.length ≤ hive.data.length := h.bound
  obtain ⟨segLen, hsg, hng⟩ := readI32_neg h.segLen
  have hid : slice hive.data (off + 4) 2 = ID_VK := Spells.slice_eq h.id
  have hna : slice hive.data (off + VK_NAME) cell.name.length = cell.name := Spells.slice_eq h.name
  simp only [Hive.readVk, ensure_pos (show off + VK_NAME ≤ hive.data.length by omega), hsg, okOr_some,
    ensure_pos hng, ensure_pos hid, readU16_eq h.nameLen, readU32_eq h.dataSize,
    readU32_eq h.dataOffset, readU32_eq h.dataType, readU32_eq h.flags, ensure_pos hbd, hna,
    hd.readData, ok_bind]

end

/-! ## Lists of cells -/

/-- The offsets `offs` stand from `start` on, `stride` bytes apart. -/
def EntriesAt (view : View) (start stride : Nat) (offs : List Nat) : Prop :=
  ∀ i (h : i < offs.length), ∃ rel, rel < 2 ^ 32 ∧ offs[i] = HBIN_BASE + rel ∧
    view.has (start + i * stride) (leBytes 4 rel)

/-- An `lh` cell with these subkeys. -/
structure LhAt (view : View) (off : Nat) (offs : List Nat) : Prop where
  bound : off + 8 + offs.length * 8 ≤ view.len
  id : view.has (off + 4) ID_LH
  nr : offs.length < 2 ^ 16 ∧ view.has (off + 6) (leBytes 2 offs.length)
  entries : EntriesAt view (off + 8) 8 offs

def SubkeysAt (view : View) (cell : NkCell) (offs : List Nat) : Prop :=
  (cell.nrSubkeys = 0 ∧ offs = []) ∨
    (cell.nrSubkeys ≠ 0 ∧ cell.subkeyLf ≠ NO_OFFSET ∧ cell.subkeyLf ≠ 0 ∧
      LhAt view (HBIN_BASE + cell.subkeyLf) offs)

def ValuesAt (view : View) (cell : NkCell) (offs : List Nat) : Prop :=
  (cell.nrValues = 0 ∧ offs = []) ∨
    (cell.nrValues = offs.length ∧ offs ≠ [] ∧ cell.vallist ≠ NO_OFFSET ∧ cell.vallist ≠ 0 ∧
      HBIN_BASE + cell.vallist + 4 + offs.length * 4 ≤ view.len ∧
      EntriesAt view (HBIN_BASE + cell.vallist + 4) 4 offs)

section

variable {view view' : View} {hive : Hive} {off start stride : Nat} {cell : NkCell} {offs : List Nat}

lemma EntriesAt.mono (h : EntriesAt view start stride offs) (hle : view.Le view') :
    EntriesAt view' start stride offs := by
  intro i hi
  obtain ⟨rel, hrl, heq, hhs⟩ := h i hi
  exact ⟨rel, hrl, heq, hle.has hhs⟩

lemma LhAt.mono (h : LhAt view off offs) (hle : view.Le view') : LhAt view' off offs where
  bound := le_trans h.bound hle.len
  id := hle.has h.id
  nr := ⟨h.nr.1, hle.has h.nr.2⟩
  entries := h.entries.mono hle

lemma SubkeysAt.mono (h : SubkeysAt view cell offs) (hle : view.Le view') :
    SubkeysAt view' cell offs := by
  rcases h with hn | ⟨hnr, hno, h0, hlh⟩
  · exact .inl hn
  · exact .inr ⟨hnr, hno, h0, hlh.mono hle⟩

lemma ValuesAt.mono (h : ValuesAt view cell offs) (hle : view.Le view') :
    ValuesAt view' cell offs := by
  rcases h with hn | ⟨hnr, hne, hno, h0, hbd, hes⟩
  · exact .inl hn
  · exact .inr ⟨hnr, hne, hno, h0, le_trans hbd hle.len, hes.mono hle⟩

lemma EntriesAt.cons {rest : List Nat} (h : EntriesAt view start stride (off :: rest)) :
    (∃ rel, rel < 2 ^ 32 ∧ off = HBIN_BASE + rel ∧ view.has start (leBytes 4 rel)) ∧
      EntriesAt view (start + stride) stride rest := by
  constructor
  · have hfs := h 0 (succ_pos _)
    rwa [zero_mul] at hfs
  intro i hi
  have hnx := h (i + 1) (succ_lt_succ hi)
  rwa [succ_mul, add_comm (i * stride), ← add_assoc] at hnx

lemma readEntries_eq (h : EntriesAt (fileView hive.data) (off + 8 + start * stride) stride offs) :
    hive.readEntries off stride offs.length start = .ok offs := by
  induction offs generalizing start with
  | nil => rfl
  | cons o offs ih =>
    obtain ⟨⟨_, hrl, rfl, hhs⟩, hr⟩ := h.cons
    have hin := hhs.length_le (by simp)
    rw [leBytes_length] at hin
    rw [add_assoc, ← succ_mul] at hr
    rw [length_cons, Hive.readEntries]
    simp only [show ¬ off + 8 + start * stride + 4 > hive.data.length by omega, if_false,
      readU32_eq ⟨hrl, hhs⟩, okOr_some, ok_bind, ih hr]

lemma LhAt.readIndex (h : LhAt (fileView hive.data) off offs) : hive.readIndex off = pure offs := by
  have hid : slice hive.data (off + 4) 2 = ID_LH := Spells.slice_eq h.id
  have hes : EntriesAt (fileView hive.data) (off + 8 + 0 * 8) 8 offs := by exact h.entries
  have hrd : hive.readLfLh off = .ok offs := by
    unfold Hive.readLfLh
    rw [readU16_eq h.nr]
    exact readEntries_eq hes
  unfold Hive.readIndex
  simp only [hid, or_true, if_true, hrd, orError_ok]

lemma SubkeysAt.subkeys {node : KeyNode} (h : SubkeysAt (fileView hive.data) cell offs)
    (hce : NkAt (fileView hive.data) node.offset cell) :
    hive.subkeys node = pure (offs.filterMap fun nkOff => (hive.readNk nkOff).toOption) := by
  have hnr : offsetField hive.data node.offset NK_NR_SUBKEYS = .ok cell.nrSubkeys := by
    unfold offsetField
    rw [readU32_eq hce.nrSubkeys, okOr_some]
  unfold Hive.subkeys
  simp only [hnr, orError_ok, pure_bind]
  rcases h with ⟨h0, rfl⟩ | ⟨hnr, hno, h0, hlh⟩
  · rw [if_pos h0]
    rfl
  have hbd : HBIN_BASE + cell.subkeyLf + 6 ≤ hive.data.length := by
    have : HBIN_BASE + cell.subkeyLf + 8 + offs.length * 8 ≤ hive.data.length := hlh.bound
    omega
  simp only [if_neg hnr, readU32_eq hce.subkeyLf, okOr_some, orError_ok, pure_bind, hno, h0,
    or_self, if_false, ensure_pos hbd, hlh.readIndex]

lemma readValues_eq (h : EntriesAt (fileView hive.data) (off + start * 4) 4 offs) :
    hive.readValues off offs.length start
      = .ok (offs.filterMap fun vkOff => (hive.readVk vkOff).toOption) := by
  induction offs generalizing start with
  | nil => rfl
  | cons o offs ih =>
    obtain ⟨⟨rel, hrl, rfl, hhs⟩, hr⟩ := h.cons
    rw [add_assoc, ← succ_mul] at hr
    rw [length_cons, Hive.readValues, readU32_eq ⟨hrl, hhs⟩, okOr_some, ok_bind, ih hr,
      filterMap_cons]
    cases (hive.readVk (HBIN_BASE + rel)).toOption <;> rfl

lemma ValuesAt.values {node : KeyNode} (h : ValuesAt (fileView hive.data) cell offs)
    (hce : NkAt (fileView hive.data) node.offset cell) :
    hive.values node = .ok (offs.filterMap fun vkOff => (hive.readVk vkOff).toOption) := by
  unfold Hive.values
  simp only [readU32_eq hce.nrValues, readU32_eq hce.vallist, okOr_some, ok_bind]
  rcases h with ⟨h0, rfl⟩ | ⟨hnr, hne, hno, h0, hbd, hes⟩
  · rw [if_pos (.inl h0)]
    rfl
  have hp : offs.length ≠ 0 := fun hlen => hne (length_eq_zero_iff.mp hlen)
  have hle : HBIN_BASE + cell.vallist + 4 + offs.length * 4 ≤ hive.data.length := hbd
  have hes' : EntriesAt (fileView hive.data) (HBIN_BASE + cell.vallist + 4 + 0 * 4) 4 offs := by
    exact hes
  rw [if_neg (by rw [hnr]; exact fun hor => hor.elim hp fun hor => hor.elim hno h0)]
  simp only [hnr, ensure_pos hle]
  exact readValues_eq hes'

end

/-! ## Trees in a file -/

/-- The value at `off`. -/
def ValueAt (view : View) (off : Nat) (value : Value) : Prop :=
  ∃ cell, VkAt view off cell ∧
    decodeName (cell.flags &&& VK_FLAG_ASCII_NAME ≠ 0) cell.name = value.name ∧
    .fromU32 cell.dataType = value.valueType ∧ DataAt view cell.dataSize cell.dataOffset value.data

mutual

/-- The key at `off` is the root of the tree. -/
def KeyAt (view : View) (off : Nat) : KeyTree → Prop
  | ⟨name, values, subkeys⟩ =>
    ∃ cell valueOffs subkeyOffs, NkAt view off cell ∧
      decodeName (cell.flags &&& NK_FLAG_ASCII_NAME ≠ 0) cell.name = name ∧
      ValuesAt view cell valueOffs ∧ List.Forall₂ (ValueAt view) valueOffs values ∧
      SubkeysAt view cell subkeyOffs ∧ KeysAt view subkeyOffs subkeys

def KeysAt (view : View) : List Nat → List KeyTree → Prop
  | [], [] => True
  | off :: offs, tree :: trees => off < 2 ^ 32 ∧ KeyAt view off tree ∧ KeysAt view offs trees
  | _, _ => False

end

section

variable {view view' : View} {hive : Hive}

lemma ValueAt.mono {off : Nat} {value : Value} (h : ValueAt view off value) (hle : view.Le view') :
    ValueAt view' off value := by
  obtain ⟨cell, hce, hna, hty, hd⟩ := h
  exact ⟨cell, hce.mono hle, hna, hty, hd.mono hle⟩

lemma ValueAt.readVk {off : Nat} {value : Value} (h : ValueAt (fileView hive.data) off value) :
    hive.readVk off = .ok value := by
  obtain ⟨_, hce, hna, hty, hd⟩ := h
  rw [hce.readVk hd, hna, hty]

lemma filterMap_readVk {offs : List Nat} {values : List Value}
    (h : List.Forall₂ (ValueAt (fileView hive.data)) offs values) :
    offs.filterMap (fun vkOff => (hive.readVk vkOff).toOption) = values := by
  induction h with
  | nil => rfl
  | cons hv _ ih => rw [filterMap_cons, hv.readVk, ih]; rfl

mutual

lemma KeyAt.mono (hle : view.Le view') {off : Nat} :
    ∀ {tree : KeyTree}, KeyAt view off tree → KeyAt view' off tree
  | ⟨_, _, _⟩, h => by
    obtain ⟨cell, valueOffs, subkeyOffs, hce, hna, hvalueList, hvs, hsubkeyList, hsb⟩ := h
    exact ⟨cell, valueOffs, subkeyOffs, hce.mono hle, hna, hvalueList.mono hle,
      hvs.imp fun _ _ hv => hv.mono hle, hsubkeyList.mono hle, KeysAt.mono hle hsb⟩

lemma KeysAt.mono (hle : view.Le view') :
    ∀ {offs : List Nat} {trees : List KeyTree}, KeysAt view offs trees → KeysAt view' offs trees
  | [], [], _ => trivial
  | _ :: _, _ :: _, ⟨hsm, htr, hts⟩ => ⟨hsm, KeyAt.mono hle htr, KeysAt.mono hle hts⟩

end

mutual

lemma KeyAt.walks {off : Nat} (hsm : off < 2 ^ 32) :
    ∀ {tree : KeyTree}, KeyAt (fileView hive.data) off tree →
      ∃ node, hive.readNk off = .ok node ∧ hive.Walks node tree
  | ⟨_, _, _⟩, h => by
    obtain ⟨_, _, _, hce, hna, hvalueList, hvs, hsubkeyList, hsb⟩ := h
    have hrd := hce.readNk
    rw [mod_eq_of_lt hsm] at hrd
    obtain ⟨nodes, hns, hwk⟩ := KeysAt.walks hsb
    refine ⟨_, hrd, hna, ?_, nodes, ?_, hwk⟩
    · rw [hvalueList.values hce, filterMap_readVk hvs]
    · rw [hsubkeyList.subkeys hce, hns]

lemma KeysAt.walks :
    ∀ {offs : List Nat} {trees : List KeyTree}, KeysAt (fileView hive.data) offs trees →
      ∃ nodes, offs.filterMap (fun nkOff => (hive.readNk nkOff).toOption) = nodes ∧
        hive.WalksAll nodes trees
  | [], [], _ => ⟨[], rfl, trivial⟩
  | _ :: _, _ :: _, ⟨hsm, htr, hts⟩ => by
    obtain ⟨node, hno, hwk⟩ := KeyAt.walks hsm htr
    obtain ⟨nodes, hns, hwalksAll⟩ := KeysAt.walks hts
    refine ⟨node :: nodes, ?_, hwk, hwalksAll⟩
    rw [filterMap_cons, hno, hns]
    rfl

end

end

/-! ## Headers -/

section

variable {data : Bytes}

lemma readLe_isSome {off n : Nat} (h : off + n ≤ data.length) : ∃ v, readLe data off n = some v :=
  ⟨_, if_pos h⟩

section

variable (hlen : data.length ≤ 2 ^ 32)
include hlen

lemma countInHbin_ok {hbinEnd cellOff count : Nat} (hce : count ≤ cellOff) (he : count ≤ hbinEnd) :
    ∃ n, countInHbin data hbinEnd cellOff count = pure n ∧ n ≤ hbinEnd := by
  induction hlf : data.length - cellOff using Nat.strong_induction_on generalizing cellOff count with
  | _ left ih =>
    rw [countInHbin]
    by_cases hin : cellOff + 4 ≤ hbinEnd ∧ cellOff + 4 ≤ data.length
    · obtain ⟨_, hv⟩ := readLe_isSome hin.2
      obtain ⟨segLen, hsg⟩ : ∃ segLen, readI32 data cellOff = some segLen := by
        unfold readI32
        rw [hv]
        exact ⟨_, rfl⟩
      simp only [dif_pos hin, hsg]
      by_cases h0 : segLen = 0
      · rw [dif_pos h0]
        exact ⟨count, rfl, he⟩
      rw [dif_neg h0]
      by_cases hng : segLen < 0
      · -- a cell in use
        have had : Checked.add 32 count 1 = some (count + 1) := Checked.add_eq (by omega)
        rw [if_pos hng, had]
        exact ih (data.length - (cellOff + segLen.natAbs)) (by omega) (by omega) (by omega) rfl
      · rw [if_neg hng]
        exact ih (data.length - (cellOff + segLen.natAbs)) (by omega) (by omega) he rfl
    · rw [dif_neg hin]
      exact ⟨count, rfl, he⟩

lemma countHbins_ok {hbinOff count : Nat} (hcn : count ≤ hbinOff) :
    ∃ n, countHbins data hbinOff count = pure n := by
  induction hlf : data.length - hbinOff using Nat.strong_induction_on generalizing hbinOff count with
  | _ left ih =>
    rw [countHbins]
    by_cases hin : hbinOff + HBIN_HEADER_SIZE ≤ data.length
    · rw [dif_pos hin]
      unfold HBIN_HEADER_SIZE at hin ⊢
      split
      · exact ⟨count, rfl⟩
      obtain ⟨size, hsz⟩ := readLe_isSome (show hbinOff + 8 + 4 ≤ data.length by omega)
      simp only [readU32, hsz]
      split
      · exact ⟨count, rfl⟩
      next hlg =>
      obtain ⟨n, hn, hle⟩ := countInHbin_ok hlen (show count ≤ hbinOff + 32 by omega)
        (show count ≤ hbinOff + size by omega)
      rw [hn]
      exact ih (data.length - (hbinOff + size)) (by omega) hle rfl
    · rw [dif_neg hin]
      exact ⟨count, rfl⟩

lemma countCells_ok (hsz : HBIN_BASE + HBIN_HEADER_SIZE ≤ data.length)
    (hmg : Spells data HBIN_BASE HBIN_MAGIC) : ∃ n, countCells data = pure n := by
  have hsl : slice data HBIN_BASE 4 = HBIN_MAGIC := hmg.slice_eq
  unfold countCells
  simp only [ensure_pos hsz, ensure_pos hsl, orError_ok, pure_bind]
  exact countHbins_ok hlen (zero_le _)

end

lemma computeHeaderChecksum_lt (data : Bytes) : computeHeaderChecksum data < 2 ^ 32 := by
  unfold computeHeaderChecksum
  generalize range (CHECKSUM_OFFSET / 4) = words
  have hsm : (0 : Nat) < 2 ^ 32 := by decide
  generalize (0 : Nat) = sum at hsm ⊢
  induction words generalizing sum with
  | nil => exact hsm
  | cons i words ih =>
    rw [foldl_cons]
    apply ih
    cases hv : readU32 data (4 * i) with
    | none => exact hsm
    | some v => exact xor_lt_two_pow hsm (readLe_lt hv)

lemma computeHeaderChecksum_congr {data' : Bytes}
    (hlen : CHECKSUM_OFFSET ≤ data.length) (hl' : CHECKSUM_OFFSET ≤ data'.length)
    (h : ∀ i < CHECKSUM_OFFSET, data'[i]? = data[i]?) :
    computeHeaderChecksum data' = computeHeaderChecksum data := by
  refine foldl_ext _ _ _ fun sum i hi => ?_
  have hi : 4 * i + 4 ≤ CHECKSUM_OFFSET := by
    rw [mem_range] at hi
    omega
  have hsl : slice data' (4 * i) 4 = slice data (4 * i) 4 := by
    apply ext_getElem?
    intro j
    rw [getElem?_slice, getElem?_slice]
    split
    · exact h _ (by omega)
    · rfl
  have hrd : readU32 data' (4 * i) = readU32 data (4 * i) := by
    unfold readU32 readLe
    rw [if_pos (by omega), if_pos (by omega), hsl]
  rw [hrd]

structure HeaderAt (data : Bytes) (rootRel : Nat) : Prop where
  magic : Spells data 0 REGF_MAGIC
  major : Spells data MAJOR_VERSION_FIELD (leBytes 4 REGF_MAJOR_VERSION)
  checksum : Spells data CHECKSUM_OFFSET (leBytes 4 (computeHeaderChecksum data))
  root : rootRel < 2 ^ 32 ∧ Spells data ROOT_OFFSET_FIELD (leBytes 4 rootRel)
  hbin : Spells data HBIN_BASE HBIN_MAGIC

lemma parse_ok {rootRel : Nat} (h : HeaderAt data rootRel) (hlen : data.length ≤ 2 ^ 32)
    (hsz : HBIN_BASE + HBIN_HEADER_SIZE ≤ data.length) (hrt : HBIN_BASE + rootRel < data.length) :
    ∃ n, Hive.parse data = pure ⟨data, HBIN_BASE + rootRel, n⟩ := by
  have hmg : slice data 0 4 = REGF_MAGIC := h.magic.slice_eq
  have hhd : checkHeader data = .ok (HBIN_BASE + rootRel) := by
    have hpg : REGF_HEADER_SIZE ≤ data.length := by
      unfold REGF_HEADER_SIZE HBIN_BASE at *
      omega
    have hmj : readU32 data MAJOR_VERSION_FIELD = some REGF_MAJOR_VERSION :=
      readU32_eq ⟨by decide, h.major⟩
    have hst : readU32 data CHECKSUM_OFFSET = some (computeHeaderChecksum data) :=
      readU32_eq ⟨computeHeaderChecksum_lt data, h.checksum⟩
    simp only [checkHeader, ensure_pos hpg, ensure_pos hmg, hmj, okOr_some, hst,
      readU32_eq h.root, ensure_pos hrt, ensure_pos, ok_bind]
  obtain ⟨n, hn⟩ := countCells_ok hlen hsz h.hbin
  refine ⟨n, ?_⟩
  unfold Hive.parse
  simp only [hhd, hn, orError_ok, pure_bind]

end

end Nt61.Registry
