/-
Agreement — the map and the list of a page cache agree.

`Agrees c order`: the map sends each key to a slot that holds it; the links from the head to the
tail visit `order`, the slots of the map, each once. Slots are never reused: a page that is evicted
or invalidated leaves a dead slot behind. The list has no dead slots, so `evict_lru` never picks
one; `evict_lfu` looks at the whole vector.
-/
import Nt61.Lib.DList
import Nt61.Lib.Run
import Nt61.Mm.PageCache.Model

namespace Nt61.PageCache

open Lib DList List

/-! ## What the agreement looks at -/

def linkOf (page : CachedPage) : Links Nat := ⟨page.lruNext, page.lruPrev⟩

def linksOf (pages : List CachedPage) : Nat → Links Nat := fun i =>
  ((pages[i]?).map linkOf).getD ⟨none, none⟩

def keyAt (pages : List CachedPage) (i : Nat) : Option PageKey := (pages[i]?).map CachedPage.key

variable {c c' : PageCache} {pages pages' : List CachedPage} {order : List Nat}

lemma keyAt_eq_none {i : Nat} : keyAt pages i = none ↔ pages.length ≤ i := by
  rw [keyAt, Option.map_eq_none_iff, getElem?_eq_none_iff]

variable {key : PageKey}

lemma lt_length_of_keyAt {i : Nat} (h : keyAt pages i = some key) : i < pages.length := by
  by_contra hge
  rw [keyAt_eq_none.mpr (Nat.le_of_not_lt hge)] at h
  cases h

variable {f : CachedPage → CachedPage}

lemma keyAt_modify {idx i : Nat} (hk : ∀ page, (f page).key = page.key) :
    keyAt (pages.modify idx f) i = keyAt pages i := by
  unfold keyAt
  rw [getElem?_modify]
  cases pages[i]? with
  | none => rfl
  | some page =>
    show some (if idx = i then f page else page).key = some page.key
    split
    · rw [hk]
    · rfl

variable {idx : Nat}

lemma linksOf_modify {g : Links Nat → Links Nat} (hlk : ∀ page, linkOf (f page) = g (linkOf page))
    (hid : idx < pages.length) : linksOf (pages.modify idx f)
      = Function.update (linksOf pages) idx (g (linksOf pages idx)) := by
  funext i
  unfold linksOf
  by_cases hi : i = idx
  · subst hi
    rw [getElem?_modify, Function.update_self, getElem?_eq_getElem hid]
    show linkOf (if i = i then f pages[i] else pages[i]) = _
    rw [if_pos rfl, hlk]
    rfl
  rw [Function.update_of_ne hi, getElem?_modify]
  cases pages[i]? with
  | none => rfl
  | some page =>
    show linkOf (if idx = i then f page else page) = linkOf page
    rw [if_neg (Ne.symm hi)]

lemma linksOf_modify_same (hlk : ∀ page, linkOf (f page) = linkOf page) :
    linksOf (pages.modify idx f) = linksOf pages := by
  funext i
  unfold linksOf
  rw [getElem?_modify]
  cases pages[i]? with
  | none => rfl
  | some page =>
    show linkOf (if idx = i then f page else page) = linkOf page
    split
    · rw [hlk]
    · rfl

structure Agrees (c : PageCache) (order : List Nat) : Prop where
  linked : Linked (linksOf c.pages) ⟨c.lruHead, c.lruTail⟩ order
  slots : (c.pageMap.map Prod.snd).Perm order
  keys : (c.pageMap.map Prod.fst).Nodup
  held : ∀ entry ∈ c.pageMap, keyAt c.pages entry.2 = some entry.1
  total : c.totalPages = order.length
  bound : order.length ≤ c.maxPages
  /-- The capacity is a `usize`. -/
  words : c.maxPages < 2 ^ 64

lemma Agrees.mem_order (h : Agrees c order) : idx ∈ order ↔ ∃ key, (key, idx) ∈ c.pageMap := by
  rw [← h.slots.mem_iff, mem_map]
  constructor
  · rintro ⟨⟨key, _⟩, hm, rfl⟩
    exact ⟨key, hm⟩
  · rintro ⟨key, hm⟩
    exact ⟨(key, idx), hm, rfl⟩

lemma Agrees.lt_length (h : Agrees c order) (hid : idx ∈ order) : idx < c.pages.length := by
  obtain ⟨_, hm⟩ := h.mem_order.mp hid
  exact lt_length_of_keyAt (h.held _ hm)

lemma Agrees.length_le (h : Agrees c order) : order.length ≤ c.pages.length := by
  have hsb : order ⊆ List.range c.pages.length := fun i hi => mem_range.mpr (h.lt_length hi)
  have hle := (h.linked.nodup.subperm hsb).length_le
  rwa [length_range] at hle

lemma Agrees.get_mem (hgt : c.get key = some idx) : (key, idx) ∈ c.pageMap := by
  obtain ⟨⟨found, _⟩, hfi, rfl⟩ := Option.map_eq_some_iff.mp hgt
  have hk : found = key := by simpa using find?_some hfi
  exact hk ▸ mem_of_find?_eq_some hfi

lemma get_none (hgt : c.get key = none) : key ∉ c.pageMap.map Prod.fst := by
  rw [mem_map]
  rintro ⟨entry, hm, rfl⟩
  have hn := find?_eq_none.mp (Option.map_eq_none_iff.mp hgt) entry hm
  simp at hn

/-- What the operations on states, access counts and the queue leave as it is. -/
structure Quiet (c c' : PageCache) : Prop where
  links : linksOf c'.pages = linksOf c.pages
  keyAt : ∀ i, keyAt c'.pages i = keyAt c.pages i
  length : c'.pages.length = c.pages.length
  frame : c' = { c with pages := c'.pages, asyncIoQueue := c'.asyncIoQueue }

lemma Quiet.refl (c : PageCache) : Quiet c c := ⟨rfl, fun _ => rfl, rfl, rfl⟩

lemma Quiet.trans {c1 c2 c3 : PageCache} (h1 : Quiet c1 c2) (h2 : Quiet c2 c3) : Quiet c1 c3 := by
  refine ⟨h2.links.trans h1.links, fun i => (h2.keyAt i).trans (h1.keyAt i),
    h2.length.trans h1.length, ?_⟩
  rw [h2.frame, h1.frame]

lemma Quiet.agrees (hq : Quiet c c') (h : Agrees c order) : Agrees c' order := by
  have hfr := hq.frame
  refine ⟨?_, ?_, ?_, ?_, ?_, ?_, ?_⟩
  · rw [hq.links, hfr]
    exact h.linked
  · rw [hfr]
    exact h.slots
  · rw [hfr]
    exact h.keys
  · intro entry hm
    rw [hfr] at hm
    rw [hq.keyAt]
    exact h.held entry hm
  · rw [hfr]
    exact h.total
  · rw [hfr]
    exact h.bound
  · rw [hfr]
    exact h.words

lemma quiet_modifyPage (h : c.modifyPage idx f = some c') (hk : ∀ page, (f page).key = page.key)
    (hlk : ∀ page, linkOf (f page) = linkOf page) : Quiet c c' := by
  unfold modifyPage at h
  split at h <;> cases h
  exact ⟨linksOf_modify_same hlk, fun _ => keyAt_modify hk, length_modify _ _ _, rfl⟩

/-! ## The list operations -/

structure Relinked (c c' : PageCache) (after : Head Nat × (Nat → Links Nat)) : Prop where
  links : linksOf c'.pages = after.2
  heads : (⟨c'.lruHead, c'.lruTail⟩ : Head Nat) = after.1
  keyAt : ∀ i, keyAt c'.pages i = keyAt c.pages i
  length : c'.pages.length = c.pages.length
  frame : c' = { c with pages := c'.pages, lruHead := c'.lruHead, lruTail := c'.lruTail }

lemma Relinked.trans {c1 c2 c3 : PageCache} {after1 after2 : Head Nat × (Nat → Links Nat)}
    (h1 : Relinked c1 c2 after1) (h2 : Relinked c2 c3 after2) : Relinked c1 c3 after2 := by
  refine ⟨h2.links, h2.heads, fun i => (h2.keyAt i).trans (h1.keyAt i),
    h2.length.trans h1.length, ?_⟩
  rw [h2.frame, h1.frame]

lemma modifyPage_relinked {g : Links Nat → Links Nat} (hid : idx < c.pages.length)
    (hk : ∀ page, (f page).key = page.key) (hlk : ∀ page, linkOf (f page) = g (linkOf page)) :
    ∃ c', c.modifyPage idx f = some c' ∧ Relinked c c' (⟨c.lruHead, c.lruTail⟩,
        Function.update (linksOf c.pages) idx (g (linksOf c.pages idx))) :=
  ⟨_, if_pos hid, linksOf_modify hlk hid, rfl, fun _ => keyAt_modify hk, length_modify _ _ _, rfl⟩

lemma Relinked.head_eq {after : Head Nat × (Nat → Links Nat)} (h : Relinked c c' after) :
    c'.lruHead = after.1.head := congrArg Head.head h.heads

lemma Relinked.tail_eq {after : Head Nat × (Nat → Links Nat)} (h : Relinked c c' after) :
    c'.lruTail = after.1.blink := congrArg Head.blink h.heads

lemma addToLru_relinked (hid : idx < c.pages.length)
    (hhd : ∀ head, c.lruHead = some head → head < c.pages.length) : ∃ c', c.addToLru idx = some c'
      ∧ Relinked c c' (addHead ⟨c.lruHead, c.lruTail⟩ (linksOf c.pages) idx) := by
  unfold addToLru
  cases hlr : c.lruHead with
  | none =>
    have hon : Relinked c { c with lruHead := some idx, lruTail := some idx }
        (⟨some idx, some idx⟩, linksOf c.pages) := ⟨rfl, rfl, fun _ => rfl, rfl, rfl⟩
    obtain ⟨c', hr, hlk⟩ := modifyPage_relinked
      (c := { c with lruHead := some idx, lruTail := some idx })
      (f := fun page => { page with lruPrev := none, lruNext := none })
      (g := fun _ => ⟨none, none⟩) hid (fun _ => rfl) fun _ => rfl
    exact ⟨c', hr, hon.trans hlk⟩
  | some head =>
    -- the new slot first, and then the old head
    obtain ⟨c1, hfs, hlinks1⟩ := modifyPage_relinked (c := c)
      (f := fun page => { page with lruPrev := none, lruNext := some head })
      (g := fun _ => ⟨some head, none⟩) hid (fun _ => rfl) fun _ => rfl
    obtain ⟨c2, hsn, hlinks2⟩ := modifyPage_relinked (c := c1)
      (f := fun page => { page with lruPrev := some idx })
      (g := fun link => { link with blink := some idx })
      (hlinks1.length ▸ hhd head hlr) (fun _ => rfl) fun _ => rfl
    rw [hlinks1.links, hlinks1.tail_eq] at hlinks2
    have hon : Relinked c2 { c2 with lruHead := some idx }
        (⟨some idx, c.lruTail⟩, linksOf c2.pages) :=
      ⟨rfl, by rw [hlinks2.tail_eq], fun _ => rfl, rfl, rfl⟩
    rw [hlinks2.links] at hon
    dsimp only
    rw [hfs, Option.bind_some, hsn]
    exact ⟨_, rfl, (hlinks1.trans hlinks2).trans hon⟩

lemma setNext_relinked {prev : Option Nat} (next : Option Nat)
    (hpv : ∀ p, prev = some p → p < c.pages.length) : ∃ c', c.setNext prev next = some c'
      ∧ Relinked c c' (⟨if prev.isNone then next else c.lruHead, c.lruTail⟩,
        setFlink (linksOf c.pages) prev next) := by
  cases prev with
  | none => exact ⟨_, rfl, rfl, rfl, fun _ => rfl, rfl, rfl⟩
  | some p =>
    exact modifyPage_relinked (g := fun link => { link with flink := next }) (hpv p rfl)
      (fun _ => rfl) fun _ => rfl

lemma setPrev_relinked {next : Option Nat} (prev : Option Nat)
    (hnx : ∀ n, next = some n → n < c.pages.length) : ∃ c', c.setPrev next prev = some c'
      ∧ Relinked c c' (⟨c.lruHead, if next.isNone then prev else c.lruTail⟩,
        setBlink (linksOf c.pages) next prev) := by
  cases next with
  | none => exact ⟨_, rfl, rfl, rfl, fun _ => rfl, rfl, rfl⟩
  | some n =>
    exact modifyPage_relinked (g := fun link => { link with blink := prev }) (hnx n rfl)
      (fun _ => rfl) fun _ => rfl

lemma removeFromLru_relinked (hid : idx < c.pages.length)
    (hpv : ∀ p, (linksOf c.pages idx).blink = some p → p < c.pages.length)
    (hnx : ∀ n, (linksOf c.pages idx).flink = some n → n < c.pages.length) :
    ∃ c', c.removeFromLru idx = some c'
      ∧ Relinked c c' (unlink ⟨c.lruHead, c.lruTail⟩ (linksOf c.pages) idx) := by
  have hpg : linksOf c.pages idx = linkOf c.pages[idx] := by
    rw [linksOf, getElem?_eq_getElem hid]
    rfl
  have hbl : (linksOf c.pages idx).blink = c.pages[idx].lruPrev := congrArg Links.blink hpg
  have hfl : (linksOf c.pages idx).flink = c.pages[idx].lruNext := congrArg Links.flink hpg
  rw [hbl] at hpv
  rw [hfl] at hnx
  obtain ⟨c1, hfs, hlinks1⟩ := setNext_relinked c.pages[idx].lruNext hpv
  obtain ⟨c2, hsn, hlinks2⟩ := setPrev_relinked (c := c1) c.pages[idx].lruPrev
    fun n hn => hlinks1.length ▸ hnx n hn
  obtain ⟨c3, hth, hlinks3⟩ := modifyPage_relinked (c := c2)
    (f := fun page => { page with lruPrev := none, lruNext := none })
    (g := fun _ => ⟨none, none⟩) (by rw [hlinks2.length, hlinks1.length]; exact hid)
    (fun _ => rfl) fun _ => rfl
  refine ⟨c3, ?_, ?_⟩
  · unfold removeFromLru
    rw [getElem?_eq_getElem hid, Option.bind_some]
    dsimp only
    rw [hfs, Option.bind_some, hsn, Option.bind_some, hth]
  -- the links that the three writes leave
  have ha := (hlinks1.trans hlinks2).trans hlinks3
  rw [hlinks2.links, hlinks2.head_eq, hlinks2.tail_eq, hlinks1.links, hlinks1.head_eq,
    hlinks1.tail_eq] at ha
  unfold unlink
  rw [hbl, hfl]
  exact ha

/-! ## Pages that come and go -/

section

variable (hlinked : Linked (linksOf c.pages) ⟨c.lruHead, c.lruTail⟩ order)
include hlinked

lemma removeFromLru_linked (hin : ∀ i ∈ order, i < c.pages.length) (hid : idx ∈ order) :
    ∃ c', c.removeFromLru idx = some c'
      ∧ Linked (linksOf c'.pages) ⟨c'.lruHead, c'.lruTail⟩ (order.erase idx)
      ∧ (∀ i, keyAt c'.pages i = keyAt c.pages i) ∧ c'.pages.length = c.pages.length
      ∧ c' = { c with pages := c'.pages, lruHead := c'.lruHead, lruTail := c'.lruTail } := by
  obtain ⟨_, _, -, rfl, her⟩ := exists_erase_eq hid
  obtain ⟨-, hln, -⟩ := seg_append.mp hlinked.seg
  rw [Option.or_none, Option.or_none] at hln
  -- its neighbours are slots
  have hpv : ∀ p, (linksOf c.pages idx).blink = some p → p < c.pages.length := by
    intro p hp
    rw [hln] at hp
    exact hin p (mem_append_left _ (mem_of_getLast? hp))
  have hnx : ∀ n, (linksOf c.pages idx).flink = some n → n < c.pages.length := by
    intro n hn
    rw [hln] at hn
    exact hin n (mem_append_right _ (mem_cons_of_mem _ (mem_of_head? hn)))
  obtain ⟨c', hr, hlk⟩ := removeFromLru_relinked (hin idx hid) hpv hnx
  refine ⟨c', hr, ?_, hlk.keyAt, hlk.length, hlk.frame⟩
  rw [hlk.links, hlk.heads, her]
  exact hlinked.unlink.1

lemma addToLru_linked
    (hin : ∀ i ∈ order, i < c.pages.length) (hid : idx < c.pages.length) (hw : idx ∉ order) :
    ∃ c', c.addToLru idx = some c'
      ∧ Linked (linksOf c'.pages) ⟨c'.lruHead, c'.lruTail⟩ (idx :: order)
      ∧ (∀ i, keyAt c'.pages i = keyAt c.pages i) ∧ c'.pages.length = c.pages.length
      ∧ c' = { c with pages := c'.pages, lruHead := c'.lruHead, lruTail := c'.lruTail } := by
  have hhd : ∀ head, c.lruHead = some head → head < c.pages.length := fun head heq =>
    hin head (mem_of_head? (hlinked.head.symm.trans heq))
  obtain ⟨c', hr, hlk⟩ := addToLru_relinked hid hhd
  refine ⟨c', hr, ?_, hlk.keyAt, hlk.length, hlk.frame⟩
  rw [hlk.links, hlk.heads]
  exact (hlinked.addHead hw).1

end

lemma Agrees.removeKey_perm (h : Agrees c order) {entry : PageKey × Nat}
    (hm : entry ∈ c.pageMap) : c.pageMap.Perm (entry :: (c.removeKey entry.1).pageMap) := by
  have hnd : c.pageMap.Nodup := h.keys.of_map
  have hr : c.pageMap.erase entry = (c.removeKey entry.1).pageMap := by
    rw [hnd.erase_eq_filter]
    refine filter_congr fun other hot => ?_
    by_cases heq : other.1 = entry.1
    · simp [inj_on_of_nodup_map h.keys hot hm heq]
    · have hne : other ≠ entry := fun hs => heq (congrArg Prod.fst hs)
      simp [hne, heq]
  rw [← hr]
  exact perm_cons_erase hm

lemma Agrees.drop (h : Agrees c order) {entry : PageKey × Nat} (hm : entry ∈ c.pageMap)
    (hlinked : Linked (linksOf c'.pages) ⟨c'.lruHead, c'.lruTail⟩ (order.erase entry.2))
    (hkeyAt : ∀ i, keyAt c'.pages i = keyAt c.pages i)
    (hmp : c'.pageMap = (c.removeKey entry.1).pageMap)
    (htt : c'.totalPages = (c.totalPages + 2 ^ 64 - 1) % 2 ^ 64)
    (hmx : c'.maxPages = c.maxPages) : Agrees c' (order.erase entry.2) := by
  have hpm := h.removeKey_perm hm
  have hid : entry.2 ∈ order := h.mem_order.mpr ⟨entry.1, hm⟩
  have hl := length_erase_of_mem hid
  have hp := length_pos_of_mem hid
  have hbd := h.bound
  have hws := h.words
  rw [← hmp] at hpm
  refine ⟨hlinked, ?_, ?_, ?_, ?_, ?_, ?_⟩
  · have hss := (hpm.map Prod.snd).symm.trans h.slots
    exact (hss.trans (perm_cons_erase hid)).cons_inv
  · have hks := (hpm.map Prod.fst).nodup_iff.mp h.keys
    exact (nodup_cons.mp hks).2
  · intro other hot
    rw [hkeyAt]
    exact h.held other (hpm.mem_iff.mpr (mem_cons_of_mem _ hot))
  · rw [htt, h.total]
    omega
  · omega
  · rw [hmx]
    exact hws

lemma Agrees.addPage (h : Agrees c order) (hk : key ∉ c.pageMap.map Prod.fst)
    (hro : order.length + 1 ≤ c.maxPages) (pfn : Nat) :
    ∃ c', c.addPage key pfn = some (.ok c.pages.length, c')
      ∧ Agrees c' (c.pages.length :: order) := by
  have hold : ∀ i < c.pages.length,
      (c.pages ++ [CachedPage.new key pfn])[i]? = c.pages[i]? := fun i hi =>
    getElem?_append_left hi
  have hnewSlot : c.pages.length ∉ order := fun hm => Nat.lt_irrefl _ (h.lt_length hm)
  have hl : (c.pages ++ [CachedPage.new key pfn]).length = c.pages.length + 1 := by simp
  -- the old slots keep their links
  have hlinked : Linked (linksOf (c.pages ++ [CachedPage.new key pfn])) ⟨c.lruHead, c.lruTail⟩
      order := by
    refine h.linked.congr fun i hi => ?_
    rw [linksOf, linksOf, hold i (h.lt_length hi)]
  obtain ⟨c', hr, hlk', hkeyAt, -, hfr⟩ := addToLru_linked
    (c := { c with
      pages := c.pages ++ [CachedPage.new key pfn]
      pageMap := (key, c.pages.length) :: c.pageMap
      totalPages := (c.totalPages + 1) % 2 ^ 64 })
    hlinked
    (fun i hi => by rw [hl]; exact Nat.lt_succ_of_lt (h.lt_length hi))
    (by rw [hl]; exact Nat.lt_succ_self _) hnewSlot
  have hws := h.words
  refine ⟨c', ?_, ⟨hlk', ?_, ?_, ?_, ?_, ?_, ?_⟩⟩
  · unfold PageCache.addPage
    dsimp only
    rw [hr, Option.map_some]
  · rw [hfr]
    exact h.slots.cons _
  · rw [hfr]
    exact nodup_cons.mpr ⟨hk, h.keys⟩
  · intro entry hm
    rw [hfr] at hm
    rw [hkeyAt]
    rcases mem_cons.mp hm with rfl | hm
    · rw [keyAt, getElem?_concat_length]
      rfl
    · rw [keyAt, hold _ (lt_length_of_keyAt (h.held entry hm))]
      exact h.held entry hm
  · rw [hfr]
    rw [h.total]
    exact Nat.mod_eq_of_lt (by omega)
  · rw [hfr]
    exact hro
  · rw [hfr]
    exact hws

/-! ## The operations that leave the list alone -/

lemma writebackPage_quiet {result : Except String Unit}
    (h : c.writebackPage idx = some (result, c')) : Quiet c c' := by
  obtain ⟨_, -, h⟩ := Option.bind_eq_some_iff.mp h
  split at h
  · cases h
    exact Quiet.refl _
  split at h
  · obtain ⟨c1, hmd, hpr⟩ := Option.map_eq_some_iff.mp h
    cases hpr
    exact quiet_modifyPage hmd (fun _ => rfl) fun _ => rfl
  obtain ⟨c1, hmd, hpr⟩ := Option.map_eq_some_iff.mp h
  cases hpr
  have hqt := quiet_modifyPage hmd (fun _ => rfl) fun _ => rfl
  exact ⟨hqt.links, hqt.keyAt, hqt.length, by rw [hqt.frame]⟩

lemma flushSlots_quiet {wanted : CachedPage → Bool} {slots : List Nat} {flushed : Nat}
    {result : Except String Nat} (h : flushSlots wanted slots flushed c = some (result, c')) :
    Quiet c c' := by
  induction slots generalizing flushed c with
  | nil =>
    cases h
    exact Quiet.refl _
  | cons idx rest ih =>
    obtain ⟨_, -, h⟩ := Option.bind_eq_some_iff.mp h
    split at h
    · obtain ⟨⟨written, _⟩, hwr, h⟩ := Option.bind_eq_some_iff.mp h
      have hqt := writebackPage_quiet hwr
      cases written with
      | ok _ => exact hqt.trans (ih h)
      | error e =>
        cases h
        exact hqt
    · exact ih h

lemma markDirty_quiet (c : PageCache) (idx : Nat) : Quiet c (c.markDirty idx) := by
  unfold markDirty
  split
  · exact Quiet.refl _
  · exact ⟨linksOf_modify_same fun _ => rfl, fun _ => keyAt_modify fun _ => rfl,
      length_modify _ _ _, rfl⟩

lemma setState_quiet {state : PageState} (h : c.setState key state = some c') : Quiet c c' := by
  unfold setState at h
  split at h
  · exact quiet_modifyPage h (fun _ => rfl) fun _ => rfl
  · cases h
    exact Quiet.refl _

lemma transfer_quiet {request : AsyncIoRequest} {complete : Bool}
    (h : c.transfer request complete = some c') : Quiet c c' := by
  obtain ⟨_, -, h⟩ := Option.bind_eq_some_iff.mp h
  cases hop : request.operation with rw [hop] at h
  | writeBack => exact setState_quiet h
  | readAhead => exact setState_quiet h

lemma processAsyncIo_quiet {disk : Nat → Bool} {left processed : Nat} {result : Nat}
    (h : processAsyncIo disk left processed c = some (result, c')) : Quiet c c' := by
  induction left generalizing processed c with
  | zero =>
    cases h
    exact Quiet.refl _
  | succ left ih =>
    rw [processAsyncIo] at h
    cases hq : c.asyncIoQueue with rw [hq] at h
    | nil =>
      cases h
      exact Quiet.refl _
    | cons request rest =>
      obtain ⟨_, htr, h⟩ := Option.bind_eq_some_iff.mp h
      have hqt := transfer_quiet htr
      have hpp : Quiet c { c with asyncIoQueue := rest } := ⟨rfl, fun _ => rfl, rfl, rfl⟩
      exact (hpp.trans hqt).trans (ih h)

/-! ## Victims -/

def evictable (c : PageCache) (i : Nat) : Bool := (c.pages[i]?).any CachedPage.canEvict

def found : Option Nat → Except String Nat
  | some victim => .ok victim
  | none => .error "No evictable pages"

lemma lruVictim_eq {l : List Nat} {prev : Option Nat} {fuel : Nat}
    (hsg : Seg (flip (linksOf c.pages)) prev l none) (hin : ∀ i ∈ l, i < c.pages.length)
    (hfu : l.length ≤ fuel) :
    c.lruVictim fuel l.head? = some (found (l.find? (evictable c))) := by
  induction l generalizing prev fuel with
  | nil => cases fuel <;> rfl
  | cons idx l ih =>
    obtain ⟨hlk, hsg⟩ := hsg
    obtain ⟨fuel, rfl⟩ : ∃ k, fuel = k + 1 := ⟨fuel - 1, by simp at hfu; omega⟩
    have hid : idx < c.pages.length := hin idx mem_cons_self
    have hnx : c.pages[idx].lruPrev = l.head? := by
      rw [Option.or_none, DList.flip, linksOf, getElem?_eq_getElem hid] at hlk
      exact congrArg Links.flink hlk
    have ht : evictable c idx = c.pages[idx].canEvict := by
      rw [evictable, getElem?_eq_getElem hid]
      rfl
    rw [head?_cons, lruVictim, getElem?_eq_getElem hid, Option.bind_some, hnx,
      ih hsg (fun i hi => hin i (mem_cons_of_mem _ hi)) (by simpa using hfu),
      find?_cons, ht]
    cases c.pages[idx].canEvict <;> rfl

lemma Agrees.evictLru_eq (h : Agrees c order) :
    c.evictLru = some (found (order.reverse.find? (evictable c))) := by
  have htl : c.lruTail = order.reverse.head? := by
    rw [head?_reverse]
    exact h.linked.last
  rw [evictLru, htl]
  refine lruVictim_eq h.linked.seg.reverse (fun i hi => h.lt_length (mem_reverse.mp hi)) ?_
  rw [length_reverse]
  exact h.length_le

lemma lfuVictim_eq_some {rest : List CachedPage} {idx least v : Nat} {victim : Option Nat}
    (h : lfuVictim rest idx least victim = some v) : (victim = some v
        ∧ ∀ (i : Nat) (q : CachedPage), rest[i]? = some q → q.canEvict → least ≤ q.accessCount)
      ∨ ∃ j, ∃ p : CachedPage, v = idx + j ∧ rest[j]? = some p ∧ p.canEvict ∧ p.accessCount < least
        ∧ ∀ (i : Nat) (q : CachedPage), rest[i]? = some q → q.canEvict →
          p.accessCount < q.accessCount ∨ p.accessCount = q.accessCount ∧ j ≤ i := by
  induction rest generalizing idx least victim with
  | nil => exact Or.inl ⟨h, fun i q hq => by simp at hq⟩
  | cons page rest ih =>
    rw [lfuVictim] at h
    by_cases hbt : page.canEvict && decide (page.accessCount < least)
    · rw [if_pos hbt] at h
      obtain ⟨hev, hls⟩ := by simpa using hbt
      right
      rcases ih h with ⟨hs, hr⟩ | ⟨j, p, hv, hj, hp, hlt, hr⟩
      · -- no later slot has a smaller count
        refine ⟨0, page, (Option.some.inj hs).symm, rfl, hev, hls, ?_⟩
        rintro (_ | i) q hq hqe
        · obtain rfl : page = q := by simpa using hq
          exact Or.inr ⟨rfl, Nat.le_refl 0⟩
        · have hle := hr i q (by simpa using hq) hqe
          omega
      refine ⟨j + 1, p, by omega, by simpa using hj, hp, by omega, ?_⟩
      rintro (_ | i) q hq hqe
      · obtain rfl : page = q := by simpa using hq
        exact Or.inl hlt
      · have hle := hr i q (by simpa using hq) hqe
        omega
    rw [if_neg hbt] at h
    have hpg : page.canEvict → least ≤ page.accessCount := by
      intro hev
      simpa [hev] using hbt
    rcases ih h with ⟨hs, hr⟩ | ⟨j, p, hv, hj, hp, hlt, hr⟩
    · refine Or.inl ⟨hs, ?_⟩
      rintro (_ | i) q hq hqe
      · obtain rfl : page = q := by simpa using hq
        exact hpg hqe
      · exact hr i q (by simpa using hq) hqe
    refine Or.inr ⟨j + 1, p, by omega, by simpa using hj, hp, hlt, ?_⟩
    rintro (_ | i) q hq hqe
    · obtain rfl : page = q := by simpa using hq
      have hle := hpg hqe
      omega
    · have hle := hr i q (by simpa using hq) hqe
      omega

lemma evictLfu_eq_ok {v : Nat} (h : c.evictLfu = .ok v) :
    ∃ p : CachedPage, c.pages[v]? = some p ∧ p.canEvict ∧ p.accessCount < 2 ^ 32 - 1
      ∧ ∀ i (q : CachedPage), c.pages[i]? = some q → q.canEvict →
        p.accessCount < q.accessCount ∨ p.accessCount = q.accessCount ∧ v ≤ i := by
  unfold evictLfu at h
  split at h
  · rename_i w hvc
    cases h
    rcases lfuVictim_eq_some hvc with ⟨hn, -⟩ | ⟨j, p, rfl, hp⟩
    · cases hn
    · rw [Nat.zero_add]
      exact ⟨p, hp⟩
  · cases h

/-- Each dead slot that `evict_lfu` could pick comes after a cached one. -/
def Preferred (c : PageCache) : Prop :=
  ∀ x ∈ c.pages.zipIdx, x.1.canEvict → x.1.accessCount < 2 ^ 32 - 1 → x.2 ∉ c.pageMap.map Prod.snd →
      ∃ y ∈ c.pages.zipIdx, y.2 ∈ c.pageMap.map Prod.snd ∧ y.1.canEvict
        ∧ (c.policy = .arc ∨ y.1.accessCount < x.1.accessCount
          ∨ y.1.accessCount = x.1.accessCount ∧ y.2 < x.2)

lemma Agrees.victim_mem (h : Agrees c order) (hpr : c.policy ≠ .lru → Preferred c)
    {v : Nat} (hv : c.victim = some (.ok v)) : v ∈ order := by
  have hss : ∀ i, i ∈ c.pageMap.map Prod.snd ↔ i ∈ order := fun i => h.slots.mem_iff
  have hlr : ∀ i, found (order.reverse.find? (evictable c)) = .ok i → i ∈ order := by
    intro i hi
    cases hfi : order.reverse.find? (evictable c) with rw [hfi] at hi
    | none => cases hi
    | some j =>
      cases hi
      exact mem_reverse.mp (mem_of_find?_eq_some hfi)
  -- what the scan of the whole vector picks, if it is dead
  have hde : c.policy ≠ .lru → c.evictLfu = .ok v → v ∉ order →
      c.policy = .arc ∧ ∃ i ∈ order, evictable c i := by
    intro hpl hlf ho
    obtain ⟨p, hp, hev, hcn, hls⟩ := evictLfu_eq_ok hlf
    obtain ⟨⟨q, i⟩, hq, hi, hqe, hbf⟩ := hpr hpl (p, v)
      (mem_zipIdx_iff_getElem?.mpr hp) hev hcn fun hm => ho ((hss v).mp hm)
    have hqi : c.pages[i]? = some q := mem_zipIdx_iff_getElem?.mp hq
    have hle := hls i q hqi hqe
    refine ⟨?_, i, (hss i).mp hi, ?_⟩
    · rcases hbf with har | hbf
      · exact har
      · dsimp only at hbf
        omega
    · rw [evictable, hqi]
      exact hqe
  unfold victim at hv
  cases hpl : c.policy with
  | lru =>
    rw [hpl, h.evictLru_eq] at hv
    exact hlr v (Option.some.inj hv)
  | lfu =>
    rw [hpl] at hv hde
    by_contra ho
    have har := (hde (by decide) (Option.some.inj hv) ho).1
    cases har
  | arc =>
    rw [hpl] at hv hde
    unfold evictArc at hv
    rw [h.evictLru_eq] at hv
    cases hfi : order.reverse.find? (evictable c) with
    | some i =>
      rw [hfi] at hv
      exact hlr v (by rw [hfi]; exact Option.some.inj hv)
    | none =>
      -- the scan is reached only if no cached page can be evicted
      rw [hfi] at hv
      by_contra ho
      obtain ⟨-, i, hi, ht⟩ := hde (by decide) (Option.some.inj hv) ho
      have hn := find?_eq_none.mp hfi i (mem_reverse.mpr hi)
      exact hn ht

end Nt61.PageCache
