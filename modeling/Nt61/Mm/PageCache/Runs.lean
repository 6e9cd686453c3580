/-
Runs — what a run of the page cache keeps.

`Sound` is the condition on an insertion: under the policies LFU and ARC, if a page has to go, each
dead slot that `evict_lfu` could pick comes after a cached one. Without it a dead slot is evicted a
second time: the list loses all its slots, and the page that is to go stays (`evicts_dead_slot`).
-/
import Nt61.Mm.PageCache.Agreement

namespace Nt61.PageCache

open Lib DList Option List

variable {c c' : PageCache} {order : List Nat}

/-! ## Pages that go -/

variable {key : PageKey}

lemma getElem?_of_keyAt {pages : List CachedPage} {i : Nat}
    (h : keyAt pages i = some key) : ∃ page, pages[i]? = some page ∧ page.key = key :=
  map_eq_some_iff.mp h

section

variable (h : Agrees c order)
include h

lemma Agrees.dropPage {v : Nat} (hv : v ∈ order) :
    ∃ c', c.dropPage v = some c' ∧ Agrees c' (order.erase v) ∧ c'.maxPages = c.maxPages
      ∧ c'.pageMap ⊆ c.pageMap := by
  obtain ⟨key, hm⟩ := h.mem_order.mp hv
  obtain ⟨page, hpg, hk⟩ := getElem?_of_keyAt (h.held _ hm)
  obtain ⟨c1, hrm, hld, hkeyAt, hl, hfr⟩ :=
    removeFromLru_linked (c := c.removeKey key) h.linked (fun _ hi => h.lt_length hi) hv
  have hlt : v < c1.pages.length := by
    rw [hl]
    exact h.lt_length hv
  -- the slot's state is of no interest to the list
  have hlk : linksOf (c1.pages.modify v fun page => { page with state := .free })
      = linksOf c1.pages := linksOf_modify_same fun _ => rfl
  have hks : ∀ i, keyAt (c1.pages.modify v fun page => { page with state := .free }) i
      = keyAt c1.pages i := fun i => keyAt_modify fun _ => rfl
  refine ⟨{ c1 with
      totalPages := (c1.totalPages + 2 ^ 64 - 1) % 2 ^ 64
      pages := c1.pages.modify v fun page => { page with state := .free } }, ?_, ?_, ?_, ?_⟩
  · unfold PageCache.dropPage
    rw [hpg, bind_some, hk, hrm]
    exact if_pos hlt
  · refine h.drop hm ?_ ?_ ?_ ?_ ?_
    · rw [hlk]
      exact hld
    · intro i
      exact (hks i).trans (hkeyAt i)
    · rw [hfr]
    · rw [hfr]
      rfl
    · rw [hfr]
      rfl
  · rw [hfr]
    rfl
  · rw [hfr]
    exact filter_subset_self _

lemma Agrees.evictPage (hpf : c.policy ≠ .lru → Preferred c)
    {result : Except String Nat} (hr : c.evictPage = some (result, c')) :
    (∃ e, result = .error e) ∧ Agrees c' order
      ∨ (∃ v ∈ order, result = .ok v ∧ Agrees c' (order.erase v)) ∧ c'.maxPages = c.maxPages
        ∧ c'.pageMap ⊆ c.pageMap := by
  obtain ⟨picked, hvc, hr⟩ := bind_eq_some_iff.mp hr
  cases picked with
  | error e =>
    cases hr
    exact Or.inl ⟨⟨e, rfl⟩, h⟩
  | ok v =>
    have hv : v ∈ order := h.victim_mem hpf hvc
    obtain ⟨_, -, hr⟩ := bind_eq_some_iff.mp hr
    obtain ⟨⟨written, c1⟩, hwr, hr⟩ := bind_eq_some_iff.mp hr
    have hqt : Quiet c c1 := by
      split at hwr
      · exact writebackPage_quiet hwr
      · cases hwr
        exact Quiet.refl _
    have h1 : Agrees c1 order := hqt.agrees h
    cases written with
    | error e =>
      cases hr
      exact Or.inl ⟨⟨e, rfl⟩, h1⟩
    | ok _ =>
      obtain ⟨_, hdr, hpr⟩ := map_eq_some_iff.mp hr
      cases hpr
      obtain ⟨c3, hdr', hag, hmx, hsb⟩ := h1.dropPage hv
      obtain rfl : c' = c3 := some.inj (hdr.symm.trans hdr')
      refine Or.inr ⟨⟨v, hv, rfl, hag⟩, ?_, ?_⟩
      · rw [hmx, hqt.frame]
      · rw [hqt.frame] at hsb
        exact hsb

/-! ## The operations -/

lemma Agrees.insert {pfn : Nat}
    (hso : c.get key = none → c.maxPages ≤ c.pages.length → c.policy ≠ .lru → Preferred c)
    {result : Except String Nat} (hr : c.insert key pfn = some (result, c')) :
    ∃ order', Agrees c' order' := by
  unfold PageCache.insert at hr
  cases hgt : c.get key with rw [hgt] at hr
  | some idx =>
    cases hr
    exact ⟨order, h⟩
  | none =>
    by_cases hfl : c.pages.length ≥ c.maxPages
    · rw [if_pos hfl] at hr
      obtain ⟨⟨_, c1⟩, hev, hr⟩ := bind_eq_some_iff.mp hr
      rcases h.evictPage (hso hgt hfl) hev with
        ⟨⟨e, rfl⟩, h1⟩ | ⟨⟨v, hv, rfl, h1⟩, hmx, hsb⟩
      · cases hr
        exact ⟨order, h1⟩
      -- one page less, and then one more
      have hk : key ∉ c1.pageMap.map Prod.fst := fun hm => get_none hgt (map_subset _ hsb hm)
      have hro : (order.erase v).length + 1 ≤ c1.maxPages := by
        have hl := length_erase_of_mem hv
        have hp := length_pos_of_mem hv
        have hbd := h.bound
        omega
      obtain ⟨c2, had, hag⟩ := h1.addPage hk hro pfn
      obtain rfl : c2 = c' := by
        have hpr := some.inj (had.symm.trans hr)
        exact congrArg Prod.snd hpr
      exact ⟨_, hag⟩
    -- all slots together are fewer than the pages that fit
    rw [if_neg hfl] at hr
    have hl := h.length_le
    obtain ⟨c2, had, hag⟩ := h.addPage (get_none hgt) (by omega) pfn
    obtain rfl : c2 = c' := by
      have hpr := some.inj (had.symm.trans hr)
      exact congrArg Prod.snd hpr
    exact ⟨_, hag⟩

lemma Agrees.moveToLruHead {idx : Nat} (hid : idx ∈ order)
    (hr : c.moveToLruHead idx = some c') : ∃ order', Agrees c' order' := by
  unfold PageCache.moveToLruHead at hr
  split at hr
  · cases hr
    exact ⟨order, h⟩
  obtain ⟨c1, hrm, had⟩ := bind_eq_some_iff.mp hr
  obtain ⟨c1', hrm', hlinked1, hkeyAt1, hlength1, hframe1⟩ :=
    removeFromLru_linked h.linked (fun _ hi => h.lt_length hi) hid
  obtain rfl : c1 = c1' := some.inj (hrm.symm.trans hrm')
  have hw : idx ∉ order.erase idx := h.linked.nodup.not_mem_erase
  obtain ⟨c2, had', hlinked2, hkeyAt2, -, hframe2⟩ := addToLru_linked hlinked1
    (fun i hi => by rw [hlength1]; exact h.lt_length (mem_of_mem_erase hi))
    (by rw [hlength1]; exact h.lt_length hid) hw
  obtain rfl : c' = c2 := some.inj (had.symm.trans had')
  rw [hframe1] at hframe2
  have hpm : order.Perm (idx :: order.erase idx) := perm_cons_erase hid
  refine ⟨idx :: order.erase idx, hlinked2, ?_, ?_, ?_, ?_, ?_, ?_⟩
  · rw [hframe2]
    exact h.slots.trans hpm
  · rw [hframe2]
    exact h.keys
  · intro entry hm
    rw [hframe2] at hm
    rw [hkeyAt2, hkeyAt1]
    exact h.held entry hm
  · rw [hframe2, ← hpm.length_eq]
    exact h.total
  · rw [hframe2, ← hpm.length_eq]
    exact h.bound
  · rw [hframe2]
    exact h.words

lemma Agrees.lookup {result : Option Nat}
    (hr : c.lookup key = some (result, c')) : ∃ order', Agrees c' order' := by
  unfold PageCache.lookup at hr
  cases hgt : c.get key with rw [hgt] at hr
  | none =>
    cases hr
    exact ⟨order, h⟩
  | some idx =>
    obtain ⟨_, htc, hpr⟩ := map_eq_some_iff.mp hr
    cases hpr
    have hid : idx ∈ order := h.mem_order.mpr ⟨key, Agrees.get_mem hgt⟩
    unfold touchPage at htc
    rw [if_neg (Nat.not_le_of_lt (h.lt_length hid))] at htc
    obtain ⟨_, -, htc⟩ := bind_eq_some_iff.mp htc
    obtain ⟨_, -, htc⟩ := bind_eq_some_iff.mp htc
    obtain ⟨c2, hmd, htc⟩ := bind_eq_some_iff.mp htc
    have h2 : Agrees c2 order := (quiet_modifyPage hmd (fun _ => rfl) fun _ => rfl).agrees h
    split at htc
    · exact h2.moveToLruHead hid htc
    · cases htc
      exact ⟨order, h2⟩

lemma Agrees.invalidatePage {entry : PageKey × Nat}
    (hm : entry ∈ c.pageMap) (hr : c.invalidatePage entry = some c') :
    Agrees c' (order.erase entry.2) ∧ c.pageMap.Perm (entry :: c'.pageMap) := by
  obtain ⟨_, -, hr⟩ := bind_eq_some_iff.mp hr
  obtain ⟨⟨_, c1⟩, hwr, hr⟩ := bind_eq_some_iff.mp hr
  obtain ⟨c2, hrm, rfl⟩ := map_eq_some_iff.mp hr
  have hqt : Quiet c c1 := by
    split at hwr
    · exact writebackPage_quiet hwr
    · cases hwr
      exact Quiet.refl _
  have h1 : Agrees c1 order := hqt.agrees h
  have hmap1 : c1.pageMap = c.pageMap := by rw [hqt.frame]
  rw [← hmap1] at hm ⊢
  have hid : entry.2 ∈ order := h1.mem_order.mpr ⟨entry.1, hm⟩
  obtain ⟨c2', hrm', hlk, hkeyAt, -, hfr⟩ :=
    removeFromLru_linked h1.linked (fun _ hi => h1.lt_length hi) hid
  obtain rfl : c2 = c2' := some.inj (hrm.symm.trans hrm')
  have hmap2 : (c2.removeKey entry.1).pageMap = (c1.removeKey entry.1).pageMap := by
    unfold removeKey
    rw [hfr]
  constructor
  · refine h1.drop hm hlk hkeyAt hmap2 ?_ ?_
    · rw [hfr]
    · show c2.maxPages = _
      rw [hfr]
  · rw [hmap2]
    exact h1.removeKey_perm hm

lemma Agrees.invalidateFile {toRemove : List (PageKey × Nat)}
    (hsb : toRemove.Subperm c.pageMap) (hr : c.invalidateFile toRemove = some c') :
    ∃ order', Agrees c' order' := by
  induction toRemove generalizing c order with
  | nil =>
    cases hr
    exact ⟨order, h⟩
  | cons entry rest ih =>
    obtain ⟨_, hfs, hrs⟩ := bind_eq_some_iff.mp hr
    obtain ⟨h1, hpm⟩ := h.invalidatePage (hsb.subset mem_cons_self) hfs
    exact ih h1 (subperm_cons entry |>.mp (hpm.subperm_left.mp hsb)) hrs

end

/-! ## Runs -/

/-- An invalidation goes through the entries of its file, in the order the map gives them. -/
def Listed (c : PageCache) : Op → Prop
  | .invalidateFile fileId toRemove => toRemove.Perm (c.entriesOf fileId)
  | _ => True

/-- An insertion that evicts under LFU or ARC has no dead slot to pick. -/
def Sound (c : PageCache) : Op → Prop
  | .insert key _ => c.get key = none → c.maxPages ≤ c.pages.length → c.policy ≠ .lru → Preferred c
  | _ => True

def empty (policy : EvictionPolicy) (maxPages : Nat) : PageCache :=
  { new policy with maxPages := maxPages }

lemma empty_agrees (policy : EvictionPolicy) {maxPages : Nat} (hws : maxPages < 2 ^ 64) :
    Agrees (empty policy maxPages) [] :=
  ⟨Linked.nil _, List.Perm.nil, nodup_nil, fun _ hm => absurd hm not_mem_nil, rfl,
    Nat.zero_le _, hws⟩

lemma step_agrees {op : Op} (h : Agrees c order) (hls : Listed c op) (hso : Sound c op)
    (hs : step op c = some c') : ∃ order', Agrees c' order' := by
  cases op with
  | lookup key =>
    obtain ⟨⟨_, _⟩, hr, rfl⟩ := map_eq_some_iff.mp hs
    exact h.lookup hr
  | insert key pfn =>
    obtain ⟨⟨_, _⟩, hr, rfl⟩ := map_eq_some_iff.mp hs
    exact h.insert hso hr
  | markDirty idx =>
    cases hs
    exact ⟨order, (markDirty_quiet c idx).agrees h⟩
  | flushAll | flushFile fileId =>
    obtain ⟨⟨_, _⟩, hr, rfl⟩ := map_eq_some_iff.mp hs
    exact ⟨order, (flushSlots_quiet hr).agrees h⟩
  | invalidateFile fileId toRemove =>
    have hsb : toRemove.Subperm c.pageMap := hls.subperm.trans filter_sublist.subperm
    exact h.invalidateFile hsb hs
  | processAsyncIo maxRequests disk =>
    obtain ⟨⟨_, _⟩, hr, rfl⟩ := map_eq_some_iff.mp hs
    exact ⟨order, (processAsyncIo_quiet hr).agrees h⟩

/-- Map and slots agree after every run of sound steps. -/
theorem run_agrees {policy : EvictionPolicy} {maxPages : Nat} (hwords : maxPages < 2 ^ 64)
    {ops : List Op}
    (hrun : Run step (fun c op => Listed c op ∧ Sound c op) (empty policy maxPages) ops c) :
    ∃ order, Agrees c order := by
  refine hrun.keeps (I := fun c => ∃ order, Agrees c order) ?_ ⟨[], empty_agrees policy hwords⟩
  rintro c op c' ⟨order, h⟩ ⟨hls, hso⟩ hs
  exact step_agrees h hls hso hs

instance (c : PageCache) : (op : Op) → Decidable (Listed c op)
  | .invalidateFile fileId toRemove =>
    inferInstanceAs (Decidable (toRemove.Perm (c.entriesOf fileId)))
  | .lookup _ | .insert _ _ | .markDirty _ | .flushAll | .flushFile _ | .processAsyncIo _ _ =>
    isTrue trivial

instance (c : PageCache) : Decidable (Preferred c) := by
  unfold Preferred
  infer_instance

instance (c : PageCache) : (op : Op) → Decidable (Sound c op)
  | .insert key _ =>
    inferInstanceAs (Decidable (c.get key = none → c.maxPages ≤ c.pages.length →
      c.policy ≠ .lru → Preferred c))
  | .lookup _ | .invalidateFile _ _ | .markDirty _ | .flushAll | .flushFile _
  | .processAsyncIo _ _ => isTrue trivial

theorem run_agrees_onePage : ∃ c, Run step (fun c op => Listed c op ∧ Sound c op) (empty .lfu 1)
        [.insert ⟨1, 0⟩ 7, .lookup ⟨1, 0⟩, .insert ⟨2, 0⟩ 8, .invalidateFile 2 [(⟨2, 0⟩, 1)]] c
      ∧ c.pages.length = 2 ∧ ∃ order, Agrees c order := by
  have hso : (executeAllowed step (fun c op => Listed c op ∧ Sound c op)
      [.insert ⟨1, 0⟩ 7, .lookup ⟨1, 0⟩, .insert ⟨2, 0⟩ 8, .invalidateFile 2 [(⟨2, 0⟩, 1)]]
      (empty .lfu 1)).map (fun c => c.pages.length) = some 2 := by
    decide
  obtain ⟨c, hec, hl⟩ := map_eq_some_iff.mp hso
  have hr := Run.of_executeAllowed hec
  exact ⟨c, hr, hl, run_agrees (by decide) hr⟩

lemma not_agrees_of_length (h : c.maxPages < c.pageMap.length) (order : List Nat) :
    ¬ Agrees c order := by
  intro hag
  have hss := hag.slots.length_eq
  have hbd := hag.bound
  rw [length_map] at hss
  omega

lemma overfull_of_execution {policy : EvictionPolicy} {ops : List Op}
    (hso : (executeAllowed step Listed ops (empty policy 1)).map
        (fun c => (c.get ⟨2, 0⟩, c.get ⟨3, 0⟩, decide (c.maxPages < c.pageMap.length)))
      = some (some 1, some 2, true)) :
    ∃ c, Run step Listed (empty policy 1) ops c ∧ c.get ⟨2, 0⟩ = some 1 ∧ c.get ⟨3, 0⟩ = some 2
      ∧ ∀ order, ¬ Agrees c order := by
  obtain ⟨c, hec, hrs⟩ := map_eq_some_iff.mp hso
  obtain ⟨hsn, hrs⟩ := Prod.mk.inj hrs
  obtain ⟨hth, hmo⟩ := Prod.mk.inj hrs
  exact ⟨c, Run.of_executeAllowed hec, hsn, hth, not_agrees_of_length (of_decide_eq_true hmo)⟩

/-- A slot that is not in the map is evicted, and the cache is overfull. -/
theorem evicts_dead_slot :
    (∃ c, Run step Listed (empty .lfu 1) [.insert ⟨1, 0⟩ 7, .insert ⟨2, 0⟩ 8, .insert ⟨3, 0⟩ 9] c
      ∧ c.get ⟨2, 0⟩ = some 1 ∧ c.get ⟨3, 0⟩ = some 2 ∧ ∀ order, ¬ Agrees c order)
    ∧ ∃ c, Run step Listed (empty .arc 1)
        [.insert ⟨1, 0⟩ 7, .insert ⟨2, 0⟩ 8, .markDirty 1, .flushAll, .insert ⟨3, 0⟩ 9] c
      ∧ c.get ⟨2, 0⟩ = some 1 ∧ c.get ⟨3, 0⟩ = some 2 ∧ ∀ order, ¬ Agrees c order :=
  ⟨overfull_of_execution (by decide), overfull_of_execution (by decide)⟩

end Nt61.PageCache
