/-
RoundTrip — the parser reads back what the writer wrote.

A key's `nk` cell is written first and filled in last. Between the two the writer only adds to the
body, so the lists, the values and the subkeys are all where the `nk` cell says.
-/
import Nt61.Registry.HiveWriter.Cells

namespace Nt61.Registry

open Lib Lib.Fallible Lib.Checked List Option

/-! ## Keys -/

mutual

/-- What a walk over the written key should find; the flags are not written. -/
def HiveKey.tree : HiveKey → KeyTree
  | ⟨name, _, subkeys, values⟩ => ⟨name, values, HiveKey.trees subkeys⟩

def HiveKey.trees : List HiveKey → List KeyTree
  | [] => []
  | key :: keys => key.tree :: HiveKey.trees keys

end

namespace HiveWriter

section

lemma Grown.view_between {w1 w2 w3 w4 : HiveWriter} (hbf : Grown w1 w2) (haf : Grown w3 w4) :
    (bodyView w3.body w2.body.length).Le (bodyView w4.body w1.body.length) :=
  bodyView_le hbf.len haf.len fun p _ hp => haf.keeps p hp

def nkFields (name : Text) (parentRel nrSubkeys subkRel nrValues vallistRel : Nat) :
    List (Nat × Bytes) :=
  [(NK_FLAGS, leBytes 2 (if (encodeName name).2 then NK_FLAG_ASCII_NAME else 0)),
    (NK_PARENT, leBytes 4 parentRel), (NK_NR_SUBKEYS, leBytes 4 nrSubkeys),
    (NK_SUBKEY_LF, leBytes 4 subkRel), (NK_NR_VALUES, leBytes 4 nrValues),
    (NK_VALLIST, leBytes 4 vallistRel), (NK_NAME_LEN, leBytes 2 (encodeName name).1.length),
    (NK_NAME, (encodeName name).1)]

variable {w w' : HiveWriter} {off : Nat} {name : Text}
  {parentRel nrSubkeys subkRel nrValues vallistRel : Nat}

lemma patchNkCell_eq {parentOff subkOff vallistOff : Nat}
    (h : w.patchNkCell off name parentOff nrSubkeys subkOff nrValues vallistOff = some w') :
    ∃ parentRel subkRel vallistRel body, HBIN_BASE ≤ off ∧ listRel subkOff = some subkRel ∧
      listRel vallistOff = some vallistRel ∧ w' = { w with body } ∧
      patchFields w.body (off - HBIN_BASE)
        (nkFields name parentRel nrSubkeys subkRel nrValues vallistRel) = some body := by
  obtain ⟨nkBody, hbo, h1⟩ := bind_eq_some_iff.mp h
  obtain ⟨parentRel, -, h2⟩ := bind_eq_some_iff.mp h1
  obtain ⟨subkRel, hsb, h3⟩ := bind_eq_some_iff.mp h2
  obtain ⟨vallistRel, hvl, h4⟩ := bind_eq_some_iff.mp h3
  obtain ⟨body, hpt, h5⟩ := bind_eq_some_iff.mp h4
  have hbo := sub_eq_some_iff.mp hbo
  have hs0 : nkBody = off - HBIN_BASE := by omega
  rw [hs0] at hpt
  exact ⟨parentRel, subkRel, vallistRel, body, by omega, hsb, hvl, (some.inj h5).symm, hpt⟩

lemma pairwise_nkFields : (nkFields name parentRel nrSubkeys subkRel nrValues vallistRel).Pairwise
      fun f g => f.1 + f.2.length ≤ g.1 := by
  simp [nkFields, NK_FLAGS, NK_PARENT, NK_NR_SUBKEYS, NK_SUBKEY_LF, NK_NR_VALUES, NK_VALLIST,
    NK_NAME_LEN, NK_NAME]

lemma mem_nkFields {f : Nat × Bytes}
    (h : f ∈ nkFields name parentRel nrSubkeys subkRel nrValues vallistRel) :
    6 ≤ f.1 ∧ f.1 + f.2.length ≤ NK_NAME + (encodeName name).1.length := by
  revert f
  simp only [nkFields, forall_mem_cons, leBytes_length]
  unfold NK_FLAGS NK_PARENT NK_NR_SUBKEYS NK_SUBKEY_LF NK_NR_VALUES NK_VALLIST NK_NAME_LEN NK_NAME
  refine ⟨?_, ?_, ?_, ?_, ?_, ?_, ?_, ?_, nofun⟩ <;> omega

lemma listRel_spec {listOff rel : Nat} (hw : Ready w) (h : listRel listOff = some rel)
    (hof : listOff = 0 ∨ (HBIN_BASE + w.body.length ≤ listOff ∧ listOff < 2 ^ 32)) :
    rel < 2 ^ 32 ∧ (listOff ≠ 0 → HBIN_BASE + rel = listOff ∧ rel ≠ NO_OFFSET ∧ rel ≠ 0) := by
  unfold listRel at h
  by_cases h0 : listOff = 0
  · rw [if_neg (not_not_intro h0)] at h
    cases h
    exact ⟨by decide, fun hne => absurd h0 hne⟩
  rw [if_pos h0] at h
  have hrl := (toHbinRel_eq_some_iff h0).mp h
  obtain ⟨_, -, -, hbo, -⟩ := hw
  unfold HBIN_HEADER_SIZE at hbo
  unfold HBIN_BASE NO_OFFSET at *
  exact ⟨by omega, fun _ => ⟨by omega, by omega, by omega⟩⟩

lemma nkAt_of_filled {w1 w2 : HiveWriter} {contents body : Bytes}
    (hce : Appended w off (alignTo (NK_NAME + (encodeName name).1.length) 8) contents w1)
    (hid : Spells w1.body (off - HBIN_BASE + 4) ID_NK) (hgr : Grown w1 w2)
    (hfi : Filled w off (alignTo (NK_NAME + (encodeName name).1.length) 8) w1 w2
      (nkFields name parentRel nrSubkeys subkRel nrValues vallistRel) body)
    (hnrSubkeys : nrSubkeys < 2 ^ 32) (hsubkRel : subkRel < 2 ^ 32) (hnrValues : nrValues < 2 ^ 32)
    (hvallistRel : vallistRel < 2 ^ 32) : NkAt (bodyView body w.body.length) off
      ⟨if (encodeName name).2 then NK_FLAG_ASCII_NAME else 0, nrSubkeys, subkRel, nrValues, vallistRel,
        (encodeName name).1⟩ := by
  have hal := le_alignTo (NK_NAME + (encodeName name).1.length)
  have hp : 0 < NK_NAME := by decide
  have hes := hce.ends
  have hhi := hce.inHbin.high
  have hsg := segLen_of_size
    (show 0 < alignTo (NK_NAME + (encodeName name).1.length) 8 by omega) (by omega)
  have hna : (encodeName name).1.length < 2 ^ 16 := by
    unfold HBIN_SIZE at hhi
    omega
  have hfl : (if (encodeName name).2 then NK_FLAG_ASCII_NAME else 0) < 2 ^ 16 := by
    cases (encodeName name).2 <;> decide
  have hfs := hfi.fields
  simp only [nkFields, forall_mem_cons] at hfs
  obtain ⟨hflagsAt, -, hnrSubkeysAt, hsubkAt, hnrValuesAt, hvallistAt, hnameLenAt, hnameAt, -⟩ := hfs
  refine ⟨?_, ⟨_, hsg.1, hsg.2, hfi.segLen⟩, ?_, ⟨hfl, hflagsAt⟩, ⟨hnrSubkeys, hnrSubkeysAt⟩,
    ⟨hsubkRel, hsubkAt⟩, ⟨hnrValues, hnrValuesAt⟩, ⟨hvallistRel, hvallistAt⟩, ⟨hna, hnameLenAt⟩, hnameAt⟩
  · show off + NK_NAME + (encodeName name).1.length ≤ HBIN_BASE + body.length
    rw [hfi.len]
    have := hgr.len
    omega
  · exact hfi.id (fun f hf => (mem_nkFields hf).1) ID_NK rfl hid

end

mutual

lemma writeKey_spec : ∀ {key : HiveKey} {w w' : HiveWriter} {parentOff off : Nat}, Ready w →
    w.writeKey parentOff key = pure (off, w') →
    Grown w w' ∧ HBIN_BASE + w.body.length ≤ off ∧ off < 2 ^ 32 ∧
      KeyAt (bodyView w'.body w.body.length) off key.tree
  | ⟨name, flags, subkeys, values⟩, w, w', parentOff, off, hw, h => by
    rw [writeKey] at h
    obtain ⟨⟨_, w1⟩, hap, h1⟩ := bind_eq_pure_iff.mp h
    obtain ⟨⟨vkOffsets, w2⟩, hvs, h2⟩ := bind_eq_pure_iff.mp h1
    obtain ⟨⟨_, w3⟩, hvl, h3⟩ := bind_eq_pure_iff.mp h2
    obtain ⟨⟨childOffsets, w4⟩, hks, h4⟩ := bind_eq_pure_iff.mp h3
    obtain ⟨⟨_, w5⟩, hlh, h5⟩ := bind_eq_pure_iff.mp h4
    obtain ⟨_, hnk, h6⟩ := orPanic_bind_eq_pure_iff.mp h5
    obtain ⟨rfl, rfl⟩ := Prod.mk.inj (pure_inj.mp h6)
    obtain ⟨_, _, _, body, hb, hsubkRel, hvallistRel, rfl, hpt⟩ := patchNkCell_eq hnk
    have hal := le_alignTo (NK_NAME + (encodeName name).1.length)
    have hsz : 0x50 ≤ NK_NAME + (encodeName name).1.length := Nat.le_add_right _ _
    rcases appendCell_spec hw (by omega) rfl hap with rfl | ⟨_, hce, hid⟩
    · -- an offset that was cut off is in the header page
      exact absurd hb (by decide)
    obtain ⟨hgrown2, hvkOffs, hvkAt⟩ := writeValues_spec hce.grown.ready hvs
    obtain ⟨hgrown3, hvallistAt⟩ := writeVallist_spec hgrown2.ready hvkOffs hvl
    obtain ⟨hgrown4, hch, hl, hkeysAt⟩ := writeKeys_spec hgrown3.ready hks
    have hfs : (childOffsets.zip (subkeys.map HiveKey.name)).map Prod.fst = childOffsets := by
      rw [map_fst_zip (by rw [length_map, hl])]
    obtain ⟨hgrown5, hlhAt⟩ := writeLh_spec hgrown4.ready
      (fun child hcd => hch child.1 (hfs ▸ mem_map_of_mem hcd)) hlh
    rw [hfs] at hlhAt
    have hgr : Grown w1 w5 := ((hgrown2.trans hgrown3).trans hgrown4).trans hgrown5
    have hfl := fill_spec hce hgr pairwise_nkFields
      (fun f hf => by have := mem_nkFields hf; omega) (by omega) hpt
    -- what the five calls wrote is all still there
    have hview2 : (bodyView w2.body w1.body.length).Le (bodyView body w.body.length) :=
      (((hgrown3.trans hgrown4).trans hgrown5).view_le).trans hfl.rest
    have hview3 : (bodyView w3.body w2.body.length).Le (bodyView body w.body.length) :=
      (hgrown2.view_between (hgrown4.trans hgrown5)).trans hfl.rest
    have hview4 : (bodyView w4.body w3.body.length).Le (bodyView body w.body.length) :=
      ((hgrown2.trans hgrown3).view_between hgrown5).trans hfl.rest
    have hview5 : (bodyView w5.body w4.body.length).Le (bodyView body w.body.length) :=
      (((hgrown2.trans hgrown3).trans hgrown4).view_between (.refl hgrown5.ready)).trans hfl.rest
    have hsb := listRel_spec hgrown4.ready hsubkRel
      (hlhAt.imp And.right fun hso => ⟨hso.2.1, hso.2.2.1⟩)
    have hva := listRel_spec hgrown2.ready hvallistRel
      (hvallistAt.imp And.right fun hso => ⟨hso.2.1, hso.2.2.1⟩)
    have hnrSubkeys : subkeys.length < 2 ^ 32 := by
      rcases hlhAt with ⟨hnl, -⟩ | ⟨-, -, -, hlh⟩
      · have := congrArg List.length hnl
        rw [length_zip, length_map, length_nil] at this
        omega
      · have := hlh.nr.1
        omega
    have hnrValues : vkOffsets.length < 2 ^ 32 := by
      rcases hvallistAt with ⟨rfl, -⟩ | ⟨-, -, -, hfw, -⟩
      · decide
      · omega
    have hnkAt := nkAt_of_filled hce hid hgr hfl hnrSubkeys hsb.1 hnrValues hva.1
    have hsm := hce.small
    have hbh := hce.behind
    refine ⟨hfl.grown, hbh, by omega, ?_⟩
    refine ⟨_, vkOffsets, childOffsets, hnkAt, decodeName_flag (by decide) name, ?_,
      hvkAt.imp fun _ _ hv => hv.mono hview2, ?_, KeysAt.mono hview4 hkeysAt⟩
    · -- the list of the values
      rcases hvallistAt with ⟨rfl, -⟩ | ⟨hne, hlw, -, -, hbd, hes⟩
      · exact .inl ⟨rfl, rfl⟩
      obtain ⟨hrl, hno, h0⟩ := hva.2 (by unfold HBIN_BASE at hlw; omega)
      refine .inr ⟨rfl, hne, hno, h0, ?_, ?_⟩ <;> rw [hrl]
      · exact Nat.le_trans hbd hview3.len
      · exact hes.mono hview3
    -- the list of the subkeys
    rcases hlhAt with ⟨hnl, -⟩ | ⟨hne, hlw, -, hlh⟩
    · rw [hnl, map_nil] at hfs
      subst hfs
      exact .inl ⟨hl.symm, rfl⟩
    obtain ⟨hrl, hno, h0⟩ := hsb.2 (by unfold HBIN_BASE at hlw; omega)
    refine .inr ⟨fun hn => hne ?_, hno, h0, ?_⟩
    · have hnl : childOffsets = [] := length_eq_zero_iff.mp (hl.trans hn)
      rw [hnl, zip_nil_left]
    · rw [hrl]
      exact hlh.mono hview5

lemma writeKeys_spec : ∀ {keys : List HiveKey} {w w' : HiveWriter} {parentOff : Nat} {offs : List Nat},
    Ready w → w.writeKeys parentOff keys = pure (offs, w') →
    Grown w w' ∧ (∀ off ∈ offs, HBIN_BASE ≤ off ∧ off < 2 ^ 32) ∧ offs.length = keys.length ∧
      KeysAt (bodyView w'.body w.body.length) offs (HiveKey.trees keys)
  | [], w, w', parentOff, offs, hw, h => by
    rw [writeKeys] at h
    obtain ⟨rfl, rfl⟩ := Prod.mk.inj (pure_inj.mp h)
    refine ⟨.refl hw, nofun, rfl, ?_⟩
    rw [HiveKey.trees, KeysAt]
    trivial
  | key :: keys, w, w', parentOff, offs, hw, h => by
    rw [writeKeys] at h
    obtain ⟨⟨off, _⟩, hk, h1⟩ := bind_eq_pure_iff.mp h
    obtain ⟨⟨_, _⟩, hks, h2⟩ := bind_eq_pure_iff.mp h1
    obtain ⟨rfl, rfl⟩ := Prod.mk.inj (pure_inj.mp h2)
    obtain ⟨hgr, _, hsm, hat⟩ := writeKey_spec hw hk
    obtain ⟨hgr', hof, hl, ha⟩ := writeKeys_spec hgr.ready hks
    refine ⟨hgr.trans hgr', ?_, ?_, ?_⟩
    · rw [forall_mem_cons]
      exact ⟨⟨by omega, hsm⟩, hof⟩
    · rw [length_cons, length_cons, hl]
    · rw [HiveKey.trees, KeysAt]
      exact ⟨hsm, hat.mono hgr'.view_le, KeysAt.mono (view_le_of_le hgr.len) ha⟩

end

/-! ## The file -/

section

variable {body body' header : Bytes}

lemma ready_cleared : Ready cleared := ⟨0, by decide, rfl, by decide, by decide⟩

lemma stampHbins_outside {headers : List Nat} (h : headers.foldlM stampHbin body = some body') :
    body'.length = body.length ∧
      ∀ p, (∀ pos ∈ headers, p < pos ∨ pos + HBIN_HEADER_SIZE ≤ p) → body'[p]? = body[p]? := by
  induction headers generalizing body with
  | nil =>
    cases h
    exact ⟨rfl, fun _ _ => rfl⟩
  | cons pos headers ih =>
    obtain ⟨_, hst, hr⟩ := bind_eq_some_iff.mp h
    obtain ⟨hl, hs⟩ := ih hr
    refine ⟨hl.trans (length_patchFields hst), fun p hp => ?_⟩
    rw [forall_mem_cons] at hp
    obtain ⟨_, hot⟩ := hp
    have hin : ∀ f ∈ [(0, HBIN_MAGIC), (4, leBytes 4 (HBIN_BASE + pos)), (8, leBytes 4 HBIN_SIZE)],
        f.1 + f.2.length ≤ HBIN_HEADER_SIZE := by
      simp [HBIN_MAGIC, HBIN_HEADER_SIZE]
    refine (hs p hot).trans (patchFields_outside hst fun f hf => ?_)
    have := hin f hf
    omega

lemma stampHbins_magic {n : Nat}
    (h : ((List.range (n + 1)).map (· * HBIN_SIZE)).foldlM stampHbin body = some body') :
    Spells body' 0 HBIN_MAGIC := by
  rw [range_succ_eq_map, map_cons] at h
  obtain ⟨_, hfs, hr⟩ := bind_eq_some_iff.mp h
  have hsr : [(0, HBIN_MAGIC), (4, leBytes 4 (HBIN_BASE + 0)), (8, leBytes 4 HBIN_SIZE)].Pairwise
      fun f g : Nat × Bytes => f.1 + f.2.length ≤ g.1 := by
    simp [HBIN_MAGIC]
  have hsp := patchFields_spells hfs hsr _ mem_cons_self
  refine hsp.congr fun p _ hp => (stampHbins_outside hr).2 p fun pos hps => ?_
  -- all other headers are behind the first HBIN
  obtain ⟨_, hk, rfl⟩ := mem_map.mp hps
  obtain ⟨_, -, rfl⟩ := mem_map.mp hk
  left
  have hmg : HBIN_MAGIC.length = 4 := rfl
  rw [hmg] at hp
  unfold HBIN_SIZE
  omega

structure FileOf (w : HiveWriter) (rootRel : Nat) (data : Bytes) : Prop where
  header : HeaderAt data rootRel
  len : HBIN_BASE + w.body.length ≤ data.length
  small : data.length ≤ 2 ^ 32
  view : (bodyView w.body HBIN_HEADER_SIZE).Le (fileView data)

lemma spells_append_left {bs : Bytes} {off : Nat} (h : Spells header off bs) :
    Spells (header ++ body) off bs := by
  intro i hi
  have hso := h i hi
  rw [List.getElem?_eq_getElem hi] at hso
  obtain ⟨hlt, -⟩ := List.getElem?_eq_some_iff.mp hso
  rw [List.getElem?_append_left hlt, h i hi]

lemma regfHeader_spec {timestamp rootAbs dataLen : Nat} (hrt : rootAbs ≠ 0) (hlt : rootAbs < 2 ^ 32)
    (h : regfHeader timestamp rootAbs dataLen = some header) (hbin : Spells body 0 HBIN_MAGIC) :
    header.length = REGF_HEADER_SIZE ∧ HBIN_BASE ≤ rootAbs ∧
      HeaderAt (header ++ body) (rootAbs - HBIN_BASE) := by
  obtain ⟨rootRel, hrl, h1⟩ := bind_eq_some_iff.mp h
  obtain ⟨header0, hfs, hsm⟩ := bind_eq_some_iff.mp h1
  have hrl := (toHbinRel_eq_some_iff hrt).mp hrl
  have hrl' : rootAbs - HBIN_BASE = rootRel := by omega
  have hlen0 := length_patchFields hfs
  rw [length_replicate] at hlen0
  have hl : header.length = REGF_HEADER_SIZE := (length_patch hsm).trans hlen0
  have hsp := patchFields_spells hfs (by simp [REGF_MAGIC])
  simp only [forall_mem_cons] at hsp
  obtain ⟨hmg, -, -, -, hmj, -, -, hrootAt, -⟩ := hsp
  -- the fields lie before the checksum, which is written last
  have hke : ∀ {bs : Bytes} {off : Nat}, off + bs.length ≤ CHECKSUM_OFFSET → Spells header0 off bs →
      Spells (header ++ body) off bs := by
    intro bs off hbf hbs
    refine spells_append_left (hbs.congr fun p _ hp => ?_)
    rw [getElem?_patch hsm, if_neg (by omega)]
  have hch : computeHeaderChecksum (header ++ body) = computeHeaderChecksum header0 := by
    have hpg : CHECKSUM_OFFSET ≤ REGF_HEADER_SIZE := by decide
    refine computeHeaderChecksum_congr (by omega) (by rw [length_append]; omega) fun p hp => ?_
    rw [getElem?_append_left (by omega), getElem?_patch hsm, if_neg (by omega)]
  refine ⟨hl, by omega, ?_⟩
  rw [hrl']
  refine ⟨hke (by decide) hmg, hke (by rw [leBytes_length]; decide) hmj, ?_,
    ⟨by omega, hke (by rw [leBytes_length]; decide) hrootAt⟩, ?_⟩
  · rw [hch]
    exact spells_append_left (patch_spells hsm)
  have hb : header.length = HBIN_BASE := hl
  intro i hi
  rw [getElem?_append_right (by omega), hb, Nat.add_sub_cancel_left]
  have hby := hbin i hi
  rwa [Nat.zero_add] at hby

lemma serialise_file {root : HiveKey} {timestamp : Nat} {data : Bytes}
    (h : serialise root timestamp = pure data) :
    ∃ w off, cleared.writeKey 0 root = pure (off, w) ∧ FileOf w (off - HBIN_BASE) data := by
  obtain ⟨⟨off, w⟩, hk, h1⟩ := bind_eq_pure_iff.mp h
  obtain ⟨body, hst, h2⟩ := orPanic_bind_eq_pure_iff.mp h1
  obtain ⟨header, hhd, h3⟩ := orPanic_bind_eq_pure_iff.mp h2
  have hd := pure_inj.mp h3
  obtain ⟨hgr, hbh, hlt, -⟩ := writeKey_spec ready_cleared hk
  obtain ⟨n, _, hh, _, hhi⟩ := hgr.ready
  have hcn : w.hbinHeaders.length = n + 1 := by rw [hh, length_map, length_range]
  rw [hcn] at hst hhd
  obtain ⟨hlenStamped, hs⟩ := stampHbins_outside hst
  rw [length_resize hhi] at hlenStamped
  rw [hh] at hst hs
  obtain ⟨hlenHeader, _, hheaderAt⟩ := regfHeader_spec (by unfold HBIN_BASE at hbh; omega) hlt
    hhd (stampHbins_magic hst)
  have hbaseLen : header.length = HBIN_BASE := hlenHeader
  have hlenData : data.length = HBIN_BASE + (n + 1) * HBIN_SIZE := by
    rw [← hd, length_append, hbaseLen, hlenStamped]
  refine ⟨w, off, hk, ?_, by omega, ?_, ?_, fun {o bs} hhs i hi => ?_⟩
  · rw [← hd]
    exact hheaderAt
  · unfold HBIN_BASE HBIN_SIZE at hlenData
    omega
  · show HBIN_BASE + w.body.length ≤ data.length
    omega
  obtain ⟨_, _, heq⟩ := hhs i hi
  have hlt : o + i - HBIN_BASE < w.body.length := by
    rw [List.getElem?_eq_getElem hi] at heq
    exact (List.getElem?_eq_some_iff.mp heq).1
  rw [← hd, List.getElem?_append_right (by omega), hbaseLen, hs, getElem?_resize hhi hlt, heq]
  -- the byte is not in the header of any HBIN
  intro pos hp
  obtain ⟨_, -, rfl⟩ := mem_map.mp hp
  unfold HBIN_BASE HBIN_SIZE at *
  omega

end

/-- **The parser reads back what the writer wrote**: the same keys and values at every level. -/
theorem serialise_round_trip (root : HiveKey) (timestamp : Nat) (bytes : Bytes)
    (h : serialise root timestamp = pure bytes) :
    ∃ hive node, Hive.parse bytes = pure hive ∧ hive.root = .ok node ∧ hive.Walks node root.tree := by
  obtain ⟨_, off, hk, hfi⟩ := serialise_file h
  obtain ⟨-, _, hlt, hat⟩ := writeKey_spec ready_cleared hk
  have hof : HBIN_BASE + (off - HBIN_BASE) = off := by omega
  have hat' : KeyAt (fileView bytes) off root.tree := KeyAt.mono hfi.view hat
  have hrt : off < bytes.length ∧ HBIN_BASE + HBIN_HEADER_SIZE ≤ bytes.length := by
    cases hrt : root.tree with
    | mk name values subkeys =>
      rw [hrt] at hat'
      obtain ⟨cell, -, -, hce, -⟩ := hat'
      have hbd : off + NK_NAME + cell.name.length ≤ bytes.length := hce.bound
      have hcl : cleared.body.length = HBIN_HEADER_SIZE := rfl
      have hp : 0 < NK_NAME := by decide
      omega
  obtain ⟨n, hpr⟩ := parse_ok hfi.header hfi.small hrt.2 (by omega)
  rw [hof] at hpr
  obtain ⟨node, hrd, hwk⟩ := @KeyAt.walks ⟨bytes, off, n⟩ off hlt _ hat'
  exact ⟨_, node, hpr, hrd, hwk⟩

/-- A key with a name outside ASCII, an inline value and one in a cell of its own. -/
def sampleRoot : HiveKey :=
  ⟨['r'], 0, [⟨['ä'], 0, [], []⟩], [⟨['n'], .dWord, [1, 2, 3, 4]⟩, ⟨[], .binary, [1, 2, 3, 4, 5]⟩]⟩

theorem serialise_round_trip_sample : ∃ bytes, serialise sampleRoot 0 = pure bytes ∧
      ∃ hive node, Hive.parse bytes = pure hive ∧ hive.root = .ok node ∧
        hive.Walks node sampleRoot.tree := by
  have hok : (serialise sampleRoot 0).value?.isSome = true := by decide +kernel
  obtain ⟨bytes, hby⟩ := isSome_iff_exists.mp hok
  have h := value?_eq_some_iff.mp hby
  exact ⟨bytes, h, serialise_round_trip sampleRoot 0 bytes h⟩

end HiveWriter

end Nt61.Registry
