/-
Runs — what holds of the page frame database after any calls.

Between two calls every page is on the list of its state, and the active pages are on none (`Inv`).
A call takes a page off its list, gives it another state and puts it on the list of that state or,
if it is active now, on none.
-/
import Nt61.Lib.Run
import Nt61.Mm.Pfn.Lists

namespace Nt61.Pfn

open Lib Lib.Checked DList Function List Option MMPFNSTATE

/-! ## The invariant -/

def listedOf (s : MMPFNSTATE) : Option MMPFNSTATE := if Bearing s then some s else none

variable (db : PfnDatabase)

def PfnDatabase.listed : Nat → Option MMPFNSTATE := fun p => listedOf (db.state p)

lemma listedOf_bearing {s : MMPFNSTATE} (h : Bearing s) : listedOf s = some s := if_pos h

lemma listedOf_active : listedOf .active = none := rfl

/-- The states that pages ever have. -/
def Usual (s : MMPFNSTATE) : Prop := s ≠ .transition ∧ s ≠ .bad ∧ s ≠ .rom

structure Inv (db : PfnDatabase) : Prop where
  holds : ∃ Q, Holds db db.listed Q
  usual : ∀ p ∈ db.pages, Usual (db.state p)

lemma SameRange.refl : SameRange db db := ⟨fun _ => Iff.rfl, rfl, rfl, rfl⟩

lemma SameRange.trans {db1 db2 db3 : PfnDatabase} (h12 : SameRange db1 db2)
    (h23 : SameRange db2 db3) : SameRange db1 db3 :=
  ⟨fun p => (h23.inRange p).trans (h12.inRange p), h23.pages.trans h12.pages,
    h23.lowestPfn.trans h12.lowestPfn, h23.highestPfn.trans h12.highestPfn⟩

lemma SameRange.modify (p : Nat) (f : MMPFN → MMPFN) :
    SameRange db (db.modify p f) := ⟨fun _ => Iff.rfl, rfl, rfl, rfl⟩

/-- The page is in hand: it is on no list, and everything else is as in `db`. -/
structure InHand (db : PfnDatabase) (p : Nat) (db' : PfnDatabase) : Prop where
  holds : ∃ Q, Holds db' (Function.update db.listed p none) Q
  state : ∀ q, q ≠ p → db'.state q = db.state q
  same : SameRange db db'

section

variable {db db' : PfnDatabase} {p : Nat} {f : MMPFN → MMPFN} {s : MMPFNSTATE}

lemma state_modify_same (hf : ∀ e, (f e).state = s) : (db.modify p f).state p = s := by
  rw [state_modify, if_pos rfl, hf]

lemma state_modify_of_ne {q : Nat} (hq : q ≠ p) : (db.modify p f).state q = db.state q := by
  rw [state_modify, if_neg hq]

lemma listed_eq (hst : ∀ q, q ≠ p → db'.state q = db.state q) :
    db'.listed = Function.update db.listed p (listedOf (db'.state p)) := by
  funext q
  by_cases hq : q = p
  · rw [hq, update_self]
    rfl
  · rw [update_of_ne hq]
    exact congrArg listedOf (hst q hq)

lemma Inv.inHand (h : Inv db) (hp : ¬ Bearing (db.state p)) : InHand db p db := by
  obtain ⟨Q, hQ⟩ := h.holds
  refine ⟨⟨Q, ?_⟩, fun q _ => rfl, .refl db⟩
  have hn : db.listed p = none := if_neg hp
  rw [← hn, update_eq_self]
  exact hQ

lemma Inv.takeOff (h : Inv db) (hp : db.inRange p) {unlinks : MMPFNSTATE → Bool}
    (hun : unlinks (db.state p) = true ↔ Bearing (db.state p)) :
    ∃ db', db.takeOff p unlinks = some db' ∧ InHand db p db' := by
  unfold PfnDatabase.takeOff
  by_cases hb : Bearing (db.state p)
  · rw [if_pos (hun.mpr hb)]
    obtain ⟨_, hQ⟩ := h.holds
    obtain ⟨db', Q', heq, hho, hst, hs⟩ := hQ.unlinkEntry hp (listedOf_bearing hb)
    exact ⟨db', heq, ⟨Q', hho⟩, fun q _ => hst q, hs⟩
  · rw [if_neg fun hu => hb (hun.mp hu)]
    exact ⟨db, rfl, h.inHand hb⟩

lemma InHand.modify (h : InHand db p db') (hlk : ∀ e, linkOf (f e) = linkOf e) :
    InHand db p (db'.modify p f) := by
  obtain ⟨Q, hQ⟩ := h.holds
  exact ⟨⟨Q, hQ.modify hlk⟩, fun q hq => (state_modify_of_ne hq).trans (h.state q hq),
    h.same.trans (.modify _ _ _)⟩

lemma InHand.activate (h : InHand db p db') (hi : Inv db) (hac : db'.state p = .active) :
    Inv db' := by
  obtain ⟨Q, hQ⟩ := h.holds
  refine ⟨⟨Q, ?_⟩, fun q hq => ?_⟩
  · rw [listed_eq h.state, hac]
    exact hQ
  by_cases hqp : q = p
  · rw [hqp, hac]
    exact ⟨nofun, nofun, nofun⟩
  · rw [h.state q hqp]
    exact hi.usual q (h.same.pages ▸ hq)

lemma InHand.insert (h : InHand db p db') (hi : Inv db) (hp : db.inRange p)
    (hs : Bearing (db'.state p)) (hu : Usual (db'.state p)) :
    ∃ db'', db'.insertHeadEntry p = some db'' ∧ Inv db'' ∧ SameRange db db'' ∧
      ∀ q, db''.state q = db'.state q := by
  obtain ⟨_, hQ⟩ := h.holds
  obtain ⟨db'', Q', heq, hho, hst, hsm⟩ :=
    hQ.insertHeadEntry ((h.same.inRange p).mpr hp) (update_self _ _ _) hs
  refine ⟨db'', heq, ⟨⟨Q', ?_⟩, fun q hq => ?_⟩, h.same.trans hsm, hst⟩
  · have hls : db''.listed = db'.listed := funext fun q => congrArg listedOf (hst q)
    rw [hls, listed_eq h.state, listedOf_bearing hs]
    rwa [update_idem] at hho
  rw [hst]
  by_cases hqp : q = p
  · rw [hqp]
    exact hu
  · rw [h.state q hqp]
    exact hi.usual q (h.same.pages ▸ hsm.pages ▸ hq)

end

/-! ## The calls -/

section

variable {db : PfnDatabase} {p : Nat}

lemma Inv.moveTo (h : Inv db) {unlinks : MMPFNSTATE → Bool} {f : MMPFN → MMPFN} {s : MMPFNSTATE}
    (hun : ∀ s, Usual s → (unlinks s = true ↔ Bearing s)) (hlk : ∀ e, linkOf (f e) = linkOf e)
    (hst : ∀ e, (f e).state = s) (hs : Bearing s) (hu : Usual s) :
    ∃ db', db.moveTo p unlinks f = some db' ∧ Inv db' := by
  unfold PfnDatabase.moveTo
  by_cases hp : db.inRange p
  · rw [if_pos hp]
    obtain ⟨db1, h1, hha⟩ := h.takeOff hp (hun _ (h.usual p (mem_pages hp)))
    have hw := @state_modify_same db1 p f s hst
    obtain ⟨db2, h2, hi, -⟩ := (hha.modify hlk).insert h hp (hw ▸ hs) (hw ▸ hu)
    refine ⟨db2, ?_, hi⟩
    simp only [h1, bind_eq_bind, bind_some, h2]
  · rw [if_neg hp]
    exact ⟨db, rfl, h⟩

lemma onAllocatorList_iff {s : MMPFNSTATE} (hs : Usual s) :
    PfnDatabase.onAllocatorList s = true ↔ Bearing s := by
  obtain ⟨_, _, _⟩ := hs
  cases s <;> simp_all [PfnDatabase.onAllocatorList, Bearing, isStandby]

lemma not_active_or_transition_iff {s : MMPFNSTATE} (hs : Usual s) :
    (!decide (s = .active ∨ s = .transition)) = true ↔ Bearing s := by
  obtain ⟨_, _, _⟩ := hs
  cases s <;> simp_all [Bearing]

lemma state_set (e : MMPFN) (s : MMPFNSTATE) (p : Nat) :
    ((e.setState s).setStandbyPriority p).state = s := by
  rw [MMPFN.state_setStandbyPriority, MMPFN.state_setState]

section

variable (h : Inv db)
include h

lemma Inv.addToFree (p : Nat) : ∃ db', db.addToFree p = some db' ∧ Inv db' := by
  exact h.moveTo (fun _ => onAllocatorList_iff) (fun _ => rfl) (fun e => state_set e .free 0)
    ⟨nofun, nofun⟩ ⟨nofun, nofun, nofun⟩

lemma Inv.standby (p priority : Nat) : ∃ db', db.standby p priority = some db' ∧ Inv db' := by
  exact h.moveTo (fun _ => not_active_or_transition_iff) (fun _ => rfl)
    (fun e => state_set e (.standby _) _) ⟨nofun, nofun⟩ ⟨nofun, nofun, nofun⟩

lemma Inv.modified (p : Nat) : ∃ db', db.modified p = some db' ∧ Inv db' := by
  exact h.moveTo (fun _ => not_active_or_transition_iff) (fun _ => rfl)
    (fun e => state_set e .modified 0) ⟨nofun, nofun⟩ ⟨nofun, nofun, nofun⟩

lemma Inv.insertZeroed (p : Nat) : ∃ db', db.insertZeroed p = some db' ∧ Inv db' := by
  refine h.moveTo (fun s hs => ?_) (fun _ => rfl) (fun e => state_set e .zeroed 0) ⟨nofun, nofun⟩
    ⟨nofun, nofun, nofun⟩
  obtain ⟨_, _, hr⟩ := hs
  simp [Bearing, hr]

lemma Inv.popList (k : Nat) :
    ∃ found db', db.popList k = some (found, db') ∧ Inv db' ∧ SameRange db db' ∧
      ((found = none ∧ db' = db ∧ (db.lists k).head = 0) ∨
        ∃ p, found = some p ∧ db.inRange p ∧ Bearing (db.state p) ∧
          listIndexFor (db.state p) = k ∧ db'.state p = .active) := by
  obtain ⟨Q, hQ⟩ := h.holds
  unfold PfnDatabase.popList
  rcases hQ.head k with ⟨h0, -⟩ | ⟨rest, hhd⟩
  · rw [h0]
    exact ⟨none, db, rfl, h, .refl db, .inl ⟨rfl, rfl, rfl⟩⟩
  obtain ⟨p, hp⟩ : ∃ p, p = (db.lists k).head := ⟨_, rfl⟩
  rw [← hp] at hhd ⊢
  have hm : p ∈ Q k := by
    rw [hhd]
    exact mem_cons_self
  obtain ⟨hrg, s, hs, hid⟩ := (hQ.mem_iff p k).mp hm
  have hbe : Bearing (db.state p) := by
    by_contra hb
    rw [PfnDatabase.listed, listedOf, if_neg hb] at hs
    cases hs
  obtain rfl : s = db.state p := some.inj (hs.symm.trans (listedOf_bearing hbe))
  obtain ⟨db1, Q', h1, hho, hst, hsm⟩ := hQ.unlinkEntry hrg hs
  have hha : InHand db p db1 := ⟨⟨Q', hho⟩, fun q _ => hst q, hsm⟩
  have hac : (db1.modify p fun e => e.setState .active).state p = .active :=
    state_modify_same fun e => MMPFN.state_setState e .active
  have hha' : InHand db p (db1.modify p fun e => e.setState .active) := hha.modify fun _ => rfl
  refine ⟨some p, _, ?_, hha'.activate h hac, hha'.same, .inr ⟨p, rfl, hrg, hbe, hid, hac⟩⟩
  simp only [if_neg (hQ.ne_zero hrg), if_pos hrg, h1, bind_eq_bind, bind_some]

lemma Inv.markActive (hp : db.state p = .active) : Inv (db.markActive p) := by
  unfold PfnDatabase.markActive
  split
  · obtain ⟨Q, hQ⟩ := h.holds
    have hst : ∀ q, (db.modify p fun e => { e.setState .active with
        referenceCount := 1, shareCount := 1 }).state q = db.state q := by
      intro q
      by_cases hq : q = p
      · rw [hq, hp]
        exact state_modify_same fun e => MMPFN.state_setState e .active
      · exact state_modify_of_ne hq
    have hls : (db.modify p fun e => { e.setState .active with
        referenceCount := 1, shareCount := 1 }).listed = db.listed :=
      funext fun q => congrArg listedOf (hst q)
    refine ⟨⟨Q, ?_⟩, fun q hq => ?_⟩
    · rw [hls]
      exact hQ.modify fun _ => rfl
    · rw [hst]
      exact h.usual q hq
  · exact h

lemma Inv.popFirst (ks : List Nat) : ∃ found db', db.popFirst ks = some (found, db') ∧ Inv db' := by
  induction ks with
  | nil => exact ⟨none, db, rfl, h⟩
  | cons k ks ih =>
    unfold PfnDatabase.popFirst
    split
    · obtain ⟨found, db', heq, hi, -⟩ := h.popList k
      exact ⟨found, db', heq, hi⟩
    · exact ih

lemma Inv.no_free (hhd : (db.lists PFNL_FREE).head = 0) (hp : db.inRange p) :
    db.state p ≠ .free := by
  intro hf
  obtain ⟨Q, hQ⟩ := h.holds
  have hm : p ∈ Q PFNL_FREE := by
    refine (hQ.mem_iff p _).mpr ⟨hp, .free, ?_, rfl⟩
    show listedOf (db.state p) = _
    rw [hf]
    rfl
  rcases hQ.head PFNL_FREE with ⟨-, hnl⟩ | ⟨rest, hcs⟩
  · rw [hnl] at hm
    cases hm
  have h0 : (0 : Nat) ∈ Q PFNL_FREE := by
    rw [hcs, hhd]
    exact mem_cons_self
  exact hQ.ne_zero (hQ.inRange h0) rfl

lemma Inv.selfHeal (hhd : (db.lists PFNL_FREE).head = 0) : db.selfHeal = some (none, db) := by
  have hcn : (db.pages.countP fun p => decide (db.inRange p ∧ db.state p = .free)) = 0 := by
    rw [countP_eq_zero]
    intro p _ hp
    obtain ⟨hrg, hf⟩ := of_decide_eq_true hp
    exact h.no_free hhd hrg hf
  unfold PfnDatabase.selfHeal
  simp only [hcn, Nat.lt_irrefl, if_false]

end

structure Allocated (db : PfnDatabase) (found : Option Nat) (db' : PfnDatabase) : Prop where
  inv : Inv db'
  page : ∀ p, found = some p → db.inRange p ∧ db.state p ≠ .active

lemma Inv.popOr (h : Inv db) (k : Nat) {next : PfnDatabase → Option (Option Nat × PfnDatabase)}
    (hnx : (db.lists k).head = 0 → ∃ found db', next db = some (found, db') ∧ Allocated db found db') :
    ∃ found db', ((db.popList k).bind fun
        | (some pfn, db) => some (some pfn, db.markActive pfn)
        | (none, db) => next db) = some (found, db') ∧ Allocated db found db' := by
  obtain ⟨found, db1, heq, hi, -, ⟨rfl, rfl, hhd⟩ | ⟨p, rfl, hrg, hbe, -, hac⟩⟩ := h.popList k
  · obtain ⟨found, db', hr, ha⟩ := hnx hhd
    exact ⟨found, db', by rw [heq]; exact hr, ha⟩
  refine ⟨some p, db1.markActive p, by rw [heq]; rfl, hi.markActive hac, fun q hq => ?_⟩
  cases hq
  exact ⟨hrg, hbe.1⟩

lemma Inv.allocatePfn (h : Inv db) :
    ∃ found db', db.allocatePfn = some (found, db') ∧ Allocated db found db' := by
  refine h.popOr PFNL_ZEROED fun _ => ?_
  refine h.popOr PFNL_FREE fun hhd => ?_
  exact ⟨none, db, h.selfHeal hhd, h, nofun⟩

lemma Inv.takeRun (h : Inv db) {start : Nat} {offsets : List Nat} (hnd : offsets.Nodup)
    (hf : ∀ i ∈ offsets, start + i < 2 ^ 64 ∧ db.inRange (start + i) ∧
      db.state (start + i) = .free) : ∃ db', offsets.foldlM (fun db i => do
      let allocated ← add 64 start i let db ← PfnDatabase.unlink db allocated
      some (db.markActive allocated)) db = some db' ∧ Inv db' := by
  induction offsets generalizing db with
  | nil => exact ⟨db, rfl, h⟩
  | cons i offsets ih =>
    obtain ⟨hi, hnd⟩ := nodup_cons.mp hnd
    obtain ⟨hsm, hrg, hst⟩ := hf i mem_cons_self
    obtain ⟨_, hQ⟩ := h.holds
    have hls : db.listed (start + i) = some (db.state (start + i)) := by
      show listedOf (db.state (start + i)) = _
      rw [hst]
      rfl
    obtain ⟨db1, Q', h1, hho, hstate1, hs⟩ := hQ.unlinkEntry hrg hls
    have hha : InHand db (start + i) db1 := ⟨⟨Q', hho⟩, fun q _ => hstate1 q, hs⟩
    have hmk : db1.markActive (start + i) = db1.modify (start + i) fun e =>
        { e.setState .active with referenceCount := 1, shareCount := 1 } :=
      if_pos ((hs.inRange _).mpr hrg)
    have hha' : InHand db (start + i) (db1.markActive (start + i)) := by
      rw [hmk]
      exact hha.modify fun _ => rfl
    have hac : (db1.markActive (start + i)).state (start + i) = .active := by
      rw [hmk]
      exact state_modify_same fun e => MMPFN.state_setState e .active
    have hv := hha'.activate h hac
    obtain ⟨db', hr, hi'⟩ := ih hv hnd fun j hj => by
      obtain ⟨hsm', hrg', hst'⟩ := hf j (mem_cons_of_mem _ hj)
      have hne : start + j ≠ start + i := by
        intro heq
        have : j = i := by omega
        exact hi (this ▸ hj)
      exact ⟨hsm', (hha'.same.inRange _).mpr hrg', (hha'.state _ hne).trans hst'⟩
    refine ⟨db', ?_, hi'⟩
    have hun : db.unlink (start + i) = some db1 := (if_pos hrg).trans h1
    rw [foldlM_cons]
    simp only [add_eq hsm, hun, bind_eq_bind, bind_some]
    exact hr

/-- The scan is in a run of free pages that ends before `pfn`. -/
def Running (db : PfnDatabase) (pfn : Nat) (runStart : Option Nat) (runLen : Nat) : Prop :=
  runStart.getD pfn + runLen = pfn ∧
    ∀ i < runLen, db.inRange (runStart.getD pfn + i) ∧ db.state (runStart.getD pfn + i) = .free

lemma running_none (db : PfnDatabase) (pfn : Nat) : Running db pfn none 0 :=
  ⟨rfl, fun i hi => absurd hi (Nat.not_lt_zero i)⟩

lemma findRun_spec {count pfn n runLen start : Nat} {runStart : Option Nat}
    (hr : Running db pfn runStart runLen)
    (hfi : db.findRun count (List.range' pfn n) runStart runLen = some start) :
    ∀ i < count, db.inRange (start + i) ∧ db.state (start + i) = .free := by
  induction n generalizing pfn runStart runLen with
  | zero => cases hfi
  | succ n ih =>
    obtain ⟨he, hf⟩ := hr
    rw [range'_succ, PfnDatabase.findRun] at hfi
    by_cases hpg : db.inRange pfn ∧ db.state pfn = .free
    · rw [if_pos hpg] at hfi
      have hln : ∀ i < runLen + 1,
          db.inRange (runStart.getD pfn + i) ∧ db.state (runStart.getD pfn + i) = .free := by
        intro i hi
        by_cases hla : i = runLen
        · rw [hla, he]
          exact hpg
        · exact hf i (by omega)
      by_cases hdn : runLen + 1 = count
      · simp only [hdn, if_true, some.injEq] at hfi
        rw [← hdn, ← hfi]
        exact hln
      simp only [hdn] at hfi
      have hnx : Running db (pfn + 1) (some (runStart.getD pfn)) (runLen + 1) := by
        refine ⟨?_, hln⟩
        show runStart.getD pfn + (runLen + 1) = pfn + 1
        omega
      exact ih hnx hfi
    · rw [if_neg hpg] at hfi
      exact ih (running_none db (pfn + 1)) hfi

section

variable (h : Inv db)
include h

lemma Inv.allocatePfnRange (count : Nat) :
    ∃ found db', db.allocatePfnRange count = some (found, db') ∧ Allocated db found db' := by
  unfold PfnDatabase.allocatePfnRange
  by_cases h0 : count = 0
  · rw [if_pos h0]
    exact ⟨none, db, rfl, h, nofun⟩
  rw [if_neg h0]
  cases hfi : db.findRun count db.pages none 0 with
  | none =>
    refine h.popOr PFNL_FREE fun _ => ?_
    exact ⟨none, db, rfl, h, nofun⟩
  | some start =>
    have hf := findRun_spec (running_none db db.lowestPfn) hfi
    obtain ⟨_, hQ⟩ := h.holds
    have hpg : ∀ i ∈ List.range count, start + i < 2 ^ 64 ∧ db.inRange (start + i) ∧
        db.state (start + i) = .free := by
      intro i hi
      obtain ⟨hrg, hst⟩ := hf i (mem_range.mp hi)
      exact ⟨Nat.lt_trans hrg.2.2 hQ.highest_lt, hrg, hst⟩
    obtain ⟨db', heq, hv⟩ := h.takeRun nodup_range hpg
    have hta : db.takeRun start count = some db' := heq
    obtain ⟨hrg, hst⟩ := hf 0 (Nat.pos_of_ne_zero h0)
    refine ⟨some start, db', by simp only [hta, map_some], hv, fun p hp => ?_⟩
    cases hp
    refine ⟨hrg, fun hac => ?_⟩
    rw [show start = start + 0 from rfl, hst] at hac
    cases hac

lemma Inv.reserveOne (hp : db.inRange p) : ∃ db', db.reserveOne p = some db' ∧ Inv db' := by
  obtain ⟨_, h1, hha⟩ := h.takeOff hp (onAllocatorList_iff (h.usual p (mem_pages hp)))
  unfold PfnDatabase.reserveOne
  simp only [h1]
  refine ⟨_, rfl, InHand.activate (hha.modify ?_) h ?_⟩
  · exact fun _ => rfl
  · exact state_modify_same fun e => MMPFN.state_setState e .active

lemma Inv.reservePfn (p : Nat) : ∃ found db', db.reservePfn p = some (found, db') ∧ Inv db' := by
  unfold PfnDatabase.reservePfn
  by_cases hp : db.inRange p
  · obtain ⟨db', heq, hi⟩ := h.reserveOne hp
    rw [if_pos hp, heq]
    exact ⟨true, db', rfl, hi⟩
  · rw [if_neg hp]
    exact ⟨false, db, rfl, h⟩

lemma Inv.reserveLoop (basePfn : Nat) (offsets : List Nat) :
    ∃ found db', PfnDatabase.reserveLoop basePfn offsets db = some (found, db') ∧ Inv db' := by
  induction offsets generalizing db with
  | nil => exact ⟨true, db, rfl, h⟩
  | cons i offsets ih =>
    unfold PfnDatabase.reserveLoop
    by_cases hp : basePfn + i < 2 ^ 64 ∧ db.inRange (basePfn + i)
    · obtain ⟨_, heq, hi⟩ := h.reserveOne hp.2
      obtain ⟨found, db', hr, hi'⟩ := ih hi
      refine ⟨found, db', ?_, hi'⟩
      rw [if_pos hp]
      simp only [heq, bind_eq_bind, bind_some, hr]
    · rw [if_neg hp]
      exact ⟨false, db, rfl, h⟩

lemma Inv.reservePfnRange (basePfn count : Nat) :
    ∃ found db', db.reservePfnRange basePfn count = some (found, db') ∧ Inv db' := by
  unfold PfnDatabase.reservePfnRange
  split
  · exact ⟨true, db, rfl, h⟩
  · exact h.reserveLoop basePfn (List.range count)

lemma Inv.seedOne {db' : PfnDatabase} {base i : Nat}
    (hac : db.inRange (base + i) → db.state (base + i) = .active)
    (hsd : db.seedOne base i = some db') :
    Inv db' ∧ SameRange db db' ∧ ∀ q, q ≠ base + i → db'.state q = db.state q := by
  obtain ⟨_, hp, hsd⟩ := bind_eq_some_iff.mp hsd
  obtain ⟨-, rfl⟩ := add_eq_some_iff.mp hp
  by_cases hrg : db.inRange (base + i)
  · rw [if_pos hrg] at hsd
    have hha : InHand db (base + i) db := by refine h.inHand fun hb => hb.1 (hac hrg)
    obtain ⟨f, hf⟩ : ∃ f : MMPFN → MMPFN, f = fun e =>
      { (e.setState .free).setStandbyPriority 0 with referenceCount := 0, shareCount := 0 } := ⟨_, rfl⟩
    rw [← hf] at hsd
    have hst : (db.modify (base + i) f).state (base + i) = .free := by
      rw [hf]
      exact state_modify_same fun e => state_set e .free 0
    have hha' : InHand db (base + i) (db.modify (base + i) f) := by
      rw [hf]
      exact hha.modify fun _ => rfl
    obtain ⟨_, heq, hi, hs, hkp⟩ := hha'.insert h hrg
      (by rw [hst]; exact ⟨nofun, nofun⟩) (by rw [hst]; exact ⟨nofun, nofun, nofun⟩)
    rw [heq] at hsd
    cases hsd
    exact ⟨hi, hs, fun q hq => (hkp q).trans (hha'.state q hq)⟩
  · rw [if_neg hrg] at hsd
    cases hsd

lemma Inv.seedAll {db' : PfnDatabase} {base : Nat} {offsets : List Nat} (hnd : offsets.Nodup)
    (hac : ∀ i ∈ offsets, db.inRange (base + i) → db.state (base + i) = .active)
    (hsd : offsets.foldlM (fun db i => PfnDatabase.seedOne db base i) db = some db') : Inv db' := by
  induction offsets generalizing db with
  | nil =>
    cases hsd
    exact h
  | cons i offsets ih =>
    obtain ⟨hi, hnd⟩ := nodup_cons.mp hnd
    obtain ⟨_, h1, hr⟩ := bind_eq_some_iff.mp hsd
    obtain ⟨hv, hs, hkp⟩ := h.seedOne (hac i mem_cons_self) h1
    refine ih hv hnd (fun j hj hrg => ?_) hr
    have hne : base + j ≠ base + i := by
      intro heq
      have : j = i := by omega
      exact hi (this ▸ hj)
    rw [hkp _ hne]
    exact hac j (mem_cons_of_mem _ hj) ((hs.inRange _).mp hrg)

end

lemma Holds.empty (hac : ∀ p, db.inRange p → db.state p = .active)
    (hls : db.lists = fun _ => ⟨0, 0⟩) (hrd : ∀ c : Counter, c.read db = 0)
    (hin : db.initialized = true) (hlw : 1 ≤ db.lowestPfn) (hfw : db.pages.length < 2 ^ 58)
    (hhi : db.highestPfn < 2 ^ 64) : Holds db db.listed fun _ => [] := by
  have hn : ∀ p, db.inRange p → db.listed p = none := by
    intro p hp
    show listedOf (db.state p) = none
    rw [hac p hp, listedOf_active]
  refine ⟨?_, fun p k => ?_, fun p s hs => ?_, fun k => ?_, fun c => ?_, hlw, hfw, hhi⟩
  · have hhe : db.heads (fun _ => []) = fun _ => Head.new := by
      unfold PfnDatabase.heads
      rw [hls]
      rfl
    rw [hhe]
    exact .empty db.links
  · refine iff_of_false not_mem_nil ?_
    rintro ⟨hp, s, hs, -⟩
    rw [hn p hp] at hs
    cases hs
  · rw [PfnDatabase.listed, listedOf] at hs
    split at hs
    · next hb =>
      cases hs
      exact hb
    · cases hs
  · rw [hls]
    rfl
  rw [hrd, eq_comm, countP_eq_zero]
  intro p hp
  rw [PfnDatabase.pages, mem_range'_1] at hp
  have hrg : db.inRange p := ⟨hin, hp.1, by omega⟩
  rw [hn p hrg]
  exact Bool.false_ne_true

lemma Inv.init {storage : Nat → MMPFN} {storageBytes basePfn pfnCount : Nat} (hb : 1 ≤ basePfn)
    (hin : (PfnDatabase.new storage).init storageBytes basePfn pfnCount = some db) :
    Inv db ∧ ∀ p, db.inRange p → db.state p = .active := by
  obtain ⟨_, hby, hin⟩ := bind_eq_some_iff.mp hin
  obtain ⟨_, rfl⟩ := mul_eq_some_iff.mp hby
  generalize hus : (if pfnCount * MMPFN_SIZE > storageBytes then storageBytes / MMPFN_SIZE
    else pfnCount) = usable at hin
  have hfw : usable < 2 ^ 58 := by
    unfold MMPFN_SIZE at *
    split at hus <;> omega
  have hdb := some.inj hin
  have hac : ∀ p, db.inRange p → db.state p = .active := by
    intro p hp
    rw [← hdb] at hp ⊢
    have hp' : basePfn ≤ p ∧ p < min (basePfn + usable) (2 ^ 64 - 1) := hp.2
    show (if basePfn ≤ p ∧ p < basePfn + usable then MMPFN.empty else storage p).state = .active
    rw [if_pos (by omega)]
    rfl
  have hho : Holds db db.listed fun _ => [] := by
    refine Holds.empty hac ?_ (fun c => ?_) ?_ ?_ ?_ ?_ <;> rw [← hdb]
    · rfl
    · cases c <;> rfl
    · exact hb
    · rw [PfnDatabase.pages, length_range']
      dsimp only
      omega
    · dsimp only
      omega
  refine ⟨⟨⟨_, hho⟩, fun p hp => ?_⟩, hac⟩
  have hrg : db.inRange p := by
    rw [PfnDatabase.pages, mem_range'_1] at hp
    exact ⟨by rw [← hdb], hp.1, by omega⟩
  rw [hac p hrg]
  exact ⟨by decide, by decide, by decide⟩

end

/-! ## Runs -/

inductive Op where
  | allocatePfn
  | allocatePfnRange (count : Nat)
  | freePfn (pfn : Nat)
  | reservePfn (pfn : Nat)
  | reservePfnRange (basePfn count : Nat)
  | releaseZeroed (pfn : Nat)
  | standby (pfn priority : Nat)
  | modified (pfn : Nat)
  | popStandby
  | popModified
  | popModifiedNoWrite
  deriving DecidableEq, Repr

def step : Op → PfnDatabase → Option PfnDatabase
  | .allocatePfn, db => db.allocatePfn.map Prod.snd
  | .allocatePfnRange count, db => (db.allocatePfnRange count).map Prod.snd
  | .freePfn pfn, db => db.addToFree pfn
  | .reservePfn pfn, db => (db.reservePfn pfn).map Prod.snd
  | .reservePfnRange basePfn count, db => (db.reservePfnRange basePfn count).map Prod.snd
  | .releaseZeroed pfn, db => db.insertZeroed pfn
  | .standby pfn priority, db => db.standby pfn priority
  | .modified pfn, db => db.modified pfn
  | .popStandby, db => db.popStandby.map Prod.snd
  | .popModified, db => db.popModified.map Prod.snd
  | .popModifiedNoWrite, db => db.popModifiedNoWrite.map Prod.snd

/-- `init` and `seed_free`, over storage with any contents. -/
def start (storage : Nat → MMPFN) (storageBytes basePfn pfnCount seedBase seedCount : Nat) :
    Option PfnDatabase := do
  let db ← (PfnDatabase.new storage).init storageBytes basePfn pfnCount
  db.seedFree seedBase seedCount

def PfnDatabase.number (db : PfnDatabase) (selects : MMPFNSTATE → Bool) : Nat :=
  db.pages.countP fun p => selects (db.state p)

/-- The lists hold the pages of their states; the totals and the allocator agree with the states. -/
structure ListsSound (db : PfnDatabase) : Prop where
  lists : ∃ Q : Nat → List Nat, ∀ k, (Q k).Nodup ∧ ptr (db.lists k).head = (Q k).head? ∧
    Seg db.links none (Q k) none ∧ (db.lists k).count = (Q k).length ∧
    ∀ p, p ∈ Q k ↔ db.inRange p ∧ db.state p ≠ .active ∧ listIndexFor (db.state p) = k
  totalFree : db.totalFree = db.number (· = .free)
  totalZeroed : db.totalZeroed = db.number (· = .zeroed)
  totalStandby : db.totalStandby = db.number isStandby
  totalModified : db.totalModified = db.number fun s => s = .modified ∨ s = .modifiedNoWrite
  allocates : ∃ found db', db.allocatePfn = some (found, db') ∧
    ∀ p, found = some p → db.inRange p ∧ db.state p ≠ .active

/-- `state_counts` has the number of pages in that state. -/
def StateCounted (db : PfnDatabase) (s : MMPFNSTATE) : Prop :=
  db.stateCounts s.asU32 = db.number (· = s)

section

variable {db : PfnDatabase}

lemma Inv.of_result {α : Type} {r : Option (α × PfnDatabase)}
    (h : ∃ found db', r = some (found, db') ∧ Inv db') :
    ∃ db', r.map Prod.snd = some db' ∧ Inv db' := by
  obtain ⟨found, db', rfl, hi⟩ := h
  exact ⟨db', rfl, hi⟩

lemma Inv.step (h : Inv db) (op : Op) : ∃ db', step op db = some db' ∧ Inv db' := by
  cases op with
  | allocatePfn =>
    obtain ⟨found, db', heq, ha⟩ := h.allocatePfn
    exact Inv.of_result ⟨found, db', heq, ha.inv⟩
  | allocatePfnRange count =>
    obtain ⟨found, db', heq, ha⟩ := h.allocatePfnRange count
    exact Inv.of_result ⟨found, db', heq, ha.inv⟩
  | freePfn pfn => exact h.addToFree pfn
  | reservePfn pfn => exact Inv.of_result (h.reservePfn pfn)
  | reservePfnRange basePfn count => exact Inv.of_result (h.reservePfnRange basePfn count)
  | releaseZeroed pfn => exact h.insertZeroed pfn
  | standby pfn priority => exact h.standby pfn priority
  | modified pfn => exact h.modified pfn
  | popStandby => exact Inv.of_result (h.popFirst [9, 8, 7, 6, 5, 4, 3, 2])
  | popModified =>
    obtain ⟨found, db', heq, hi, -⟩ := h.popList PFNL_MODIFIED
    exact Inv.of_result ⟨found, db', heq, hi⟩
  | popModifiedNoWrite =>
    obtain ⟨found, db', heq, hi, -⟩ := h.popList PFNL_MODIFIED_NW
    exact Inv.of_result ⟨found, db', heq, hi⟩

lemma Inv.start {storage : Nat → MMPFN}
    {storageBytes basePfn pfnCount seedBase seedCount : Nat} (hb : 1 ≤ basePfn)
    (hs0 : start storage storageBytes basePfn pfnCount seedBase seedCount = some db) : Inv db := by
  obtain ⟨_, hin, hsd⟩ := bind_eq_some_iff.mp hs0
  obtain ⟨hi, hac⟩ := Inv.init hb hin
  exact hi.seedAll nodup_range (fun i _ => hac (seedBase + i)) hsd

section

variable (h : Inv db)
include h

lemma Inv.bearing_iff {p : Nat} (hp : p ∈ db.pages) : Bearing (db.state p) ↔ db.state p ≠ .active :=
  ⟨fun hb => hb.1, fun hne => ⟨hne, (h.usual p hp).2.2⟩⟩

lemma Inv.read_eq (c : Counter) (hc : c.selects .active = false) :
    c.read db = db.number c.selects := by
  obtain ⟨_, hQ⟩ := h.holds
  rw [hQ.counters c]
  refine countP_congr fun p hp => ?_
  show (listedOf (db.state p)).any c.selects = true ↔ c.selects (db.state p) = true
  by_cases hac : db.state p = .active
  · rw [hac, hc]
    rfl
  · rw [listedOf_bearing ((h.bearing_iff hp).mpr hac), any_some]

lemma Inv.read_active : db.stateCounts active.asU32 = 0 := by
  obtain ⟨_, hQ⟩ := h.holds
  have hrd : db.stateCounts active.asU32 = _ := hQ.counters (.state .active)
  rw [hrd, countP_eq_zero]
  intro p _
  show ¬ (listedOf (db.state p)).any (fun s => decide (active = s)) = true
  unfold listedOf
  split
  · next hb => simpa using Ne.symm hb.1
  · exact Bool.false_ne_true

lemma Inv.listsSound : ListsSound db := by
  obtain ⟨Q, hQ⟩ := h.holds
  refine ⟨⟨Q, fun k => ?_⟩, h.read_eq .free rfl, h.read_eq .zeroed rfl, h.read_eq .standby rfl,
    h.read_eq .modified rfl, ?_⟩
  · have hlk := hQ.represents.linked k
    refine ⟨hlk.nodup, hlk.head, hlk.seg, hQ.counts k, fun p => ?_⟩
    rw [hQ.mem_iff]
    refine and_congr_right fun hp => ?_
    show (∃ s, listedOf (db.state p) = some s ∧ listIndexFor s = k) ↔ _
    by_cases hac : db.state p = .active
    · rw [hac, listedOf_active]
      simp
    · rw [listedOf_bearing ((h.bearing_iff (mem_pages hp)).mpr hac)]
      simp [hac]
  · obtain ⟨found, db', heq, ha⟩ := h.allocatePfn
    exact ⟨found, db', heq, ha.page⟩

lemma Inv.stateCounted {s : MMPFNSTATE} (hs : s ≠ .active) : StateCounted db s := by
  have hrd : db.stateCounts s.asU32 = db.number (Counter.state s).selects :=
    h.read_eq (.state s) (decide_eq_false hs)
  rw [StateCounted, hrd]
  refine countP_congr fun p _ => ?_
  simp [Counter.selects, eq_comm]

lemma Inv.stateCounted_active_iff :
    StateCounted db .active ↔ ∀ p ∈ db.pages, db.state p ≠ .active := by
  rw [StateCounted, h.read_active, PfnDatabase.number, eq_comm]
  simp

end

/-- After any calls every list holds the pages of its state, and all counters but that of the active
pages are right. -/
theorem pfn_sound_iff_none_active {storage : Nat → MMPFN} {ops : List Op} {db₀ : PfnDatabase}
    {storageBytes basePfn pfnCount seedBase seedCount : Nat} (hbase : 1 ≤ basePfn)
    (hstart : start storage storageBytes basePfn pfnCount seedBase seedCount = some db₀)
    (hrun : Run step (fun _ _ => True) db₀ ops db) :
    ListsSound db ∧ (∀ s, s ≠ .active → StateCounted db s) ∧ (∀ op, ∃ db', step op db = some db') ∧
      (ListsSound db ∧ (∀ s, StateCounted db s) ↔ ∀ p ∈ db.pages, db.state p ≠ .active) := by
  have hi : Inv db := by
    refine hrun.keeps (fun {db op db'} h _ hst => ?_) (Inv.start hbase hstart)
    obtain ⟨_, heq, hi⟩ := h.step op
    rw [heq] at hst
    cases hst
    exact hi
  refine ⟨hi.listsSound, fun s hs => hi.stateCounted hs, fun op => ?_, ?_⟩
  · obtain ⟨db', heq, -⟩ := hi.step op
    exact ⟨db', heq⟩
  constructor
  · rintro ⟨-, hct⟩
    exact hi.stateCounted_active_iff.mp (hct .active)
  intro hn
  refine ⟨hi.listsSound, fun s => ?_⟩
  by_cases hs : s = .active
  · rw [hs]
    exact hi.stateCounted_active_iff.mpr hn
  · exact hi.stateCounted hs

def dirtyStorage : Nat → MMPFN := fun p => ⟨p + 1, p, 0xFC, 3, 3⟩

/-- Eight pages, of which some are allocated, parked and taken again. -/
def eightPageRun : List Op :=
  [.allocatePfn, .allocatePfnRange 3, .standby 5 12, .reservePfnRange 2 2, .modified 1,
    .releaseZeroed 4, .standby 5 0, .freePfn 3, .freePfn 3, .popStandby, .allocatePfn, .popModified]

theorem pfn_sound_iff_none_active_eight : ∃ db₀ db, start dirtyStorage 1000 1 8 1 8 = some db₀ ∧
      Run step (fun _ _ => True) db₀ eightPageRun db ∧ db.totalFree = 3 ∧
      (db.pages.map db.state).count .active = 5 ∧ ListsSound db := by
  have hev : ((start dirtyStorage 1000 1 8 1 8).bind (execute step eightPageRun)).map
      (fun db => (db.totalFree, (db.pages.map db.state).count .active)) = some (3, 5) := by
    decide +kernel
  obtain ⟨db, hdb, heq⟩ := map_eq_some_iff.mp hev
  obtain ⟨db₀, hs0, hec⟩ := bind_eq_some_iff.mp hdb
  obtain ⟨hf, hcn⟩ := Prod.mk.inj heq
  have hr := Run.of_execute hec
  exact ⟨db₀, db, hs0, hr, hf, hcn, (pfn_sound_iff_none_active (by decide) hs0 hr).1⟩

/-- One page is allocated: `state_counts` has no active page. -/
theorem allocated_page_not_counted : ∃ db₀ db, start dirtyStorage 288 1 3 1 3 = some db₀ ∧
      Run step (fun _ _ => True) db₀ [.allocatePfn] db ∧ db.state 3 = .active ∧
      db.stateCounts active.asU32 = 0 ∧ ¬ StateCounted db .active := by
  have hev : ((start dirtyStorage 288 1 3 1 3).bind (execute step [.allocatePfn])).map
      (fun db => (db.state 3, db.stateCounts active.asU32, db.number (· = .active)))
      = some (.active, 0, 1) := by
    decide +kernel
  obtain ⟨db, hdb, heq⟩ := map_eq_some_iff.mp hev
  obtain ⟨db₀, hs0, hec⟩ := bind_eq_some_iff.mp hdb
  obtain ⟨hst, hr⟩ := Prod.mk.inj heq
  obtain ⟨h0, hon⟩ := Prod.mk.inj hr
  refine ⟨db₀, db, hs0, Run.of_execute hec, hst, h0, ?_⟩
  rw [StateCounted, h0, hon]
  decide

end

end Nt61.Pfn
