/-
Lists — the lists and counters of the page frame database.

`Holds db L`: the lists are linked, the page `p` is on the list of the state `L p` (or on none), and
all counts are those of `L`. Two moves change `L`: `Holds.unlinkEntry` and `Holds.insertHeadEntry`.
A write to the other fields of an entry is not seen (`Holds.modify`).
-/
import Nt61.Lib.DList
import Nt61.Lib.Count
import Nt61.Mm.Pfn.Model

namespace Nt61.Pfn

open Lib Lib.Checked DList Function Option

/-! ## States -/

namespace MMPFNSTATE

variable (s : MMPFNSTATE)

lemma fromBits_asU32 : fromBits s.asU32 = s := by
  cases s with
  | standby i => revert i; decide
  | _ => rfl

lemma asU32_lt : s.asU32 < 16 := by
  cases s with
  | standby i => revert i; decide
  | _ => decide

lemma asU32_inj {s s' : MMPFNSTATE} (h : s.asU32 = s'.asU32) : s = s' := by
  rw [← fromBits_asU32 s, h, fromBits_asU32]

end MMPFNSTATE

@[simp]
lemma MMPFN.state_setState (e : MMPFN) (s : MMPFNSTATE) : (e.setState s).state = s := by
  have hlw : s.asU32 &&& 0xF = s.asU32 := by
    rw [show (0xF : Nat) = 2 ^ 4 - 1 from rfl, Nat.and_two_pow_sub_one_eq_mod]
    exact Nat.mod_eq_of_lt s.asU32_lt
  show MMPFNSTATE.fromBits ((e.raw &&& 0xFFFFFFF0 ||| s.asU32 &&& 0xF) &&& 0xF) = s
  rw [hlw, Nat.and_or_distrib_right, Nat.and_assoc, hlw]
  simp [MMPFNSTATE.fromBits_asU32]

@[simp]
lemma MMPFN.state_setStandbyPriority (e : MMPFN) (p : Nat) :
    (e.setStandbyPriority p).state = e.state := by
  unfold MMPFN.state
  congr 1
  show (e.raw &&& 0xFFFFFF8F ||| (p &&& 0x7) <<< 4) &&& 0xF = e.raw &&& 0xF
  have hhi : (p &&& 0x7) <<< 4 &&& 0xF = 0 := by
    rw [show (0xF : Nat) = 2 ^ 4 - 1 from rfl, Nat.and_two_pow_sub_one_eq_mod, Nat.shiftLeft_eq,
      Nat.mul_mod_left]
  rw [Nat.and_or_distrib_right, hhi, Nat.and_assoc]
  simp

variable (s : MMPFNSTATE)

/-- A state with a list. -/
def Bearing : Prop := s ≠ .active ∧ s ≠ .rom

instance (s : MMPFNSTATE) : Decidable (Bearing s) := inferInstanceAs (Decidable (_ ∧ _))

/-! ## Counters -/

inductive Counter where
  | state (s : MMPFNSTATE)
  | free
  | zeroed
  | standby
  | modified

def Counter.selects : Counter → MMPFNSTATE → Bool
  | .state s, s' => s = s'
  | .free, s => s = .free
  | .zeroed, s => s = .zeroed
  | .standby, s => s.isStandby
  | .modified, s => s = .modified ∨ s = .modifiedNoWrite

variable (db : PfnDatabase)

def Counter.read : Counter → Nat
  | .state s => db.stateCounts s.asU32
  | .free => db.totalFree
  | .zeroed => db.totalZeroed
  | .standby => db.totalStandby
  | .modified => db.totalModified

open PfnDatabase

lemma read_bumpStateCount (c : Counter) (s : MMPFNSTATE) (delta : Int) :
    c.read (db.bumpStateCount s delta)
      = if c.selects s then bump (c.read db) delta else c.read db := by
  cases c with
  | state s' =>
    unfold Counter.read Counter.selects bumpStateCount
    by_cases h : s' = s
    · simp [h]
    · have hne : s'.asU32 ≠ s.asU32 := fun heq => h (MMPFNSTATE.asU32_inj heq)
      simp [h, hne]
  | standby => rfl
  | _ => simp [Counter.read, Counter.selects, bumpStateCount]

lemma bump_one {n : Nat} (h : n + 1 < 2 ^ 63) : bump n 1 = n + 1 := by
  unfold bump
  dsimp only
  omega

lemma bump_neg_one {n : Nat} (h : n + 1 < 2 ^ 63) : bump (n + 1) (-1) = n := by
  unfold bump
  dsimp only
  omega

/-! ## The lists in the database -/

/-- A page frame as a pointer. -/
def ptr (x : Nat) : Option Nat := if x = 0 then none else some x

@[simp]
lemma ptr_zero : ptr 0 = none := rfl

lemma ptr_of_ne {x : Nat} (h : x ≠ 0) : ptr x = some x := if_neg h

lemma isNone_ptr {x : Nat} : (ptr x).isNone = decide (x = 0) := by
  unfold ptr
  by_cases h : x = 0 <;> simp [h]

def linkOf (e : MMPFN) : Links Nat := ⟨ptr e.flink, ptr e.blink⟩

def PfnDatabase.links : Nat → Links Nat := fun p => linkOf (db.pfnArray p)

def PfnDatabase.heads (Q : Nat → List Nat) : Nat → Head Nat :=
  fun k => ⟨ptr (db.lists k).head, (Q k).getLast?⟩

/-- The page is on the list of `L p`, if any; the lists are linked, and the counts are right. -/
structure Holds (db : PfnDatabase) (L : Nat → Option MMPFNSTATE) (Q : Nat → List Nat) : Prop where
  represents : Represents db.links (db.heads Q) Q
  mem_iff : ∀ p k, p ∈ Q k ↔ db.inRange p ∧ ∃ s, L p = some s ∧ listIndexFor s = k
  bearing : ∀ p s, L p = some s → Bearing s
  counts : ∀ k, (db.lists k).count = (Q k).length
  counters : ∀ c : Counter, c.read db = db.pages.countP fun p => (L p).any c.selects
  lowest_pos : 1 ≤ db.lowestPfn
  few : db.pages.length < 2 ^ 58
  highest_lt : db.highestPfn < 2 ^ 64

section

variable {db : PfnDatabase} {pfn next prev k : Nat}

lemma links_modify (f : MMPFN → MMPFN) :
    (db.modify pfn f).links = update db.links pfn (linkOf (f (db.pfnArray pfn))) :=
  comp_update linkOf db.pfnArray pfn _

lemma state_modify (f : MMPFN → MMPFN) (q : Nat) :
    (db.modify pfn f).state q = if q = pfn then (f (db.pfnArray pfn)).state else db.state q := by
  show (update db.pfnArray pfn (f (db.pfnArray pfn)) q).state = _
  by_cases h : q = pfn
  · rw [if_pos h, h, update_self]
  · rw [if_neg h, update_of_ne h]
    rfl

lemma state_modify_links {f : MMPFN → MMPFN} (hf : ∀ e, (f e).state = e.state) (q : Nat) :
    (db.modify pfn f).state q = db.state q := by
  rw [state_modify, hf]
  split
  · next h => rw [h]; rfl
  · rfl

@[simp]
lemma links_bumpStateCount (delta : Int) : (db.bumpStateCount s delta).links = db.links := rfl

@[simp]
lemma state_bumpStateCount (delta : Int) (q : Nat) :
    (db.bumpStateCount s delta).state q = db.state q := rfl

@[simp]
lemma links_setList (k : Nat) (l : ListHead) : (db.setList k l).links = db.links := rfl

@[simp]
lemma state_setList (k : Nat) (l : ListHead) (q : Nat) : (db.setList k l).state q = db.state q := rfl

structure Relinked (db db' : PfnDatabase) (links : Nat → Links Nat) : Prop where
  eq : ∃ arr, db' = { db with pfnArray := arr }
  links : db'.links = links
  state : ∀ q, db'.state q = db.state q

lemma setFlink_spec (hp : pfn = 0 ∨ db.inRange pfn) : ∃ db', db.setFlink pfn next = some db' ∧
    Relinked db db' (DList.setFlink db.links (ptr pfn) (ptr next)) := by
  unfold PfnDatabase.setFlink
  by_cases h0 : pfn = 0
  · rw [h0]
    exact ⟨db, rfl, ⟨_, rfl⟩, rfl, fun _ => rfl⟩
  · rw [if_neg h0, if_pos (hp.resolve_left h0), ptr_of_ne h0]
    exact ⟨_, rfl, ⟨_, rfl⟩, links_modify _, state_modify_links fun _ => rfl⟩

lemma setBlink_spec (hp : pfn = 0 ∨ db.inRange pfn) : ∃ db', db.setBlink pfn prev = some db' ∧
    Relinked db db' (DList.setBlink db.links (ptr pfn) (ptr prev)) := by
  unfold PfnDatabase.setBlink
  by_cases h0 : pfn = 0
  · rw [h0]
    exact ⟨db, rfl, ⟨_, rfl⟩, rfl, fun _ => rfl⟩
  · rw [if_neg h0, if_pos (hp.resolve_left h0), ptr_of_ne h0]
    exact ⟨_, rfl, ⟨_, rfl⟩, links_modify _, state_modify_links fun _ => rfl⟩

/-- What a change of links, of one list head and of the counters leaves as it was. -/
structure SameRange (db db' : PfnDatabase) : Prop where
  inRange : ∀ p, db'.inRange p ↔ db.inRange p
  pages : db'.pages = db.pages
  lowestPfn : db'.lowestPfn = db.lowestPfn
  highestPfn : db'.highestPfn = db.highestPfn

lemma unlinkEntry_eq (last : Option Nat) (hk : k = listIndexFor (db.state pfn))
    (hpv : (db.pfnArray pfn).blink = 0 ∨ db.inRange (db.pfnArray pfn).blink)
    (hnx : (db.pfnArray pfn).flink = 0 ∨ db.inRange (db.pfnArray pfn).flink) :
    ∃ db' head, db.unlinkEntry pfn = some db' ∧
      db'.links = (DList.unlink ⟨ptr (db.lists k).head, last⟩ db.links pfn).2 ∧
      ptr head = (DList.unlink ⟨ptr (db.lists k).head, last⟩ db.links pfn).1.head ∧
      db'.lists = update db.lists k ⟨head, (db.lists k).count - 1⟩ ∧
      (∀ q, db'.state q = db.state q) ∧
      (∀ c : Counter, c.read db' = if c.selects (db.state pfn) then bump (c.read db) (-1)
        else c.read db) ∧ SameRange db db' := by
  subst hk
  obtain ⟨_, h1, ⟨arr1, rfl⟩, hlinks1, hstate1⟩ :=
    @setFlink_spec db (db.pfnArray pfn).blink (db.pfnArray pfn).flink hpv
  obtain ⟨_, h2, ⟨_, rfl⟩, hlinks2, hstate2⟩ :=
    @setBlink_spec { db with pfnArray := arr1 } (db.pfnArray pfn).flink (db.pfnArray pfn).blink hnx
  unfold unlinkEntry
  simp only [h1, h2, bind_eq_bind, bind_some]
  refine ⟨_, if (db.pfnArray pfn).blink = 0 then (db.pfnArray pfn).flink
    else (db.lists (listIndexFor (db.state pfn))).head, rfl, ?_, ?_, rfl, fun q => ?_, fun c => ?_,
    ⟨fun _ => Iff.rfl, rfl, rfl, rfl⟩⟩
  · -- the two writes to the neighbours, and then the page itself
    rw [links_bumpStateCount, links_modify, links_setList, hlinks2, hlinks1]
    rfl
  · show _ = if (ptr (db.pfnArray pfn).blink).isNone then ptr (db.pfnArray pfn).flink
      else ptr (db.lists (listIndexFor (db.state pfn))).head
    rw [isNone_ptr]
    by_cases h0 : (db.pfnArray pfn).blink = 0 <;> simp [h0]
  · rw [state_bumpStateCount, state_modify_links (by intro e; rfl)]
    exact (hstate2 q).trans (hstate1 q)
  · exact read_bumpStateCount _ c _ _

lemma insertHeadEntry_eq (last : Option Nat) (hk : k = listIndexFor (db.state pfn)) (hpf : pfn ≠ 0)
    (hhd : (db.lists k).head = 0 ∨ db.inRange (db.lists k).head)
    (hcn : (db.lists k).count + 1 < 2 ^ 64) : ∃ db', db.insertHeadEntry pfn = some db' ∧
      db'.links = (DList.addHead ⟨ptr (db.lists k).head, last⟩ db.links pfn).2 ∧
      db'.lists = update db.lists k ⟨pfn, (db.lists k).count + 1⟩ ∧
      (∀ q, db'.state q = db.state q) ∧
      (∀ c : Counter, c.read db' = if c.selects (db.state pfn) then bump (c.read db) 1
        else c.read db) ∧ SameRange db db' := by
  subst hk
  let edit (e : MMPFN) : MMPFN :=
    { e with flink := (db.lists (listIndexFor (db.state pfn))).head, blink := 0 }
  obtain ⟨_, h1, ⟨_, rfl⟩, hlinks1, hstate1⟩ := @setBlink_spec (db.modify pfn edit) _ pfn hhd
  have hst : ∀ q, (db.modify pfn edit).state q = db.state q := state_modify_links fun _ => rfl
  have had : add 64 ((db.modify pfn edit).lists (listIndexFor (db.state pfn))).count 1 = some _ :=
    add_eq hcn
  unfold insertHeadEntry
  simp only [edit, h1, had, bind_eq_bind, bind_some]
  refine ⟨_, rfl, ?_, rfl, fun q => (hstate1 q).trans (hst q), fun c => ?_,
    ⟨fun _ => Iff.rfl, rfl, rfl, rfl⟩⟩
  · refine hlinks1.trans ?_
    rw [links_modify, ptr_of_ne hpf]
    rfl
  · exact read_bumpStateCount _ c _ _

end

/-! ## The moves -/

section

variable {db : PfnDatabase} {L : Nat → Option MMPFNSTATE} {Q : Nat → List Nat} {p k : Nat}

lemma mem_pages {q : Nat} (hq : db.inRange q) : q ∈ db.pages := by
  obtain ⟨-, _, _⟩ := hq
  rw [pages, List.mem_range'_1]
  omega

section

variable (h : Holds db L Q)
include h

lemma Holds.inRange {q : Nat} (hq : q ∈ Q k) : db.inRange q := ((h.mem_iff q k).mp hq).1

lemma Holds.ne_zero (hp : db.inRange p) : p ≠ 0 := by
  have hps := h.lowest_pos
  obtain ⟨-, _, -⟩ := hp
  omega

lemma Holds.head (k : Nat) :
    ((db.lists k).head = 0 ∧ Q k = []) ∨ ∃ rest, Q k = (db.lists k).head :: rest := by
  have hhd : ptr (db.lists k).head = (Q k).head? := (h.represents.linked k).head
  cases hQ : Q k with
  | nil =>
    rw [hQ] at hhd
    refine .inl ⟨?_, rfl⟩
    by_contra hne
    rw [ptr_of_ne hne] at hhd
    cases hhd
  | cons q rest =>
    rw [hQ] at hhd
    refine .inr ⟨rest, ?_⟩
    by_cases h0 : (db.lists k).head = 0
    · rw [h0] at hhd
      cases hhd
    · rw [ptr_of_ne h0] at hhd
      rw [some.inj hhd]

lemma Holds.length_le (k : Nat) : (Q k).length ≤ db.pages.length :=
  (List.subperm_of_subset (h.represents.linked k).nodup fun _ hq => mem_pages (h.inRange hq)).length_le

lemma Holds.read_le (c : Counter) : c.read db ≤ db.pages.length := by
  rw [h.counters c]
  exact List.countP_le_length

lemma Holds.neighbours (hp : p ∈ Q k) :
    ((db.pfnArray p).flink = 0 ∨ db.inRange (db.pfnArray p).flink) ∧
      ((db.pfnArray p).blink = 0 ∨ db.inRange (db.pfnArray p).blink) := by
  obtain ⟨hnx, hpv⟩ := (h.represents.linked k).neighbours hp
  constructor
  · by_cases h0 : (db.pfnArray p).flink = 0
    · exact .inl h0
    · exact .inr (h.inRange (hnx _ (ptr_of_ne h0)))
  by_cases h0 : (db.pfnArray p).blink = 0
  · exact .inl h0
  · exact .inr (h.inRange (hpv _ (ptr_of_ne h0)))

lemma Holds.modify {f : MMPFN → MMPFN} (hf : ∀ e, linkOf (f e) = linkOf e) :
    Holds (db.modify p f) L Q := by
  have hlk : (db.modify p f).links = db.links := by
    rw [links_modify, hf]
    exact update_eq_self _ _
  refine ⟨?_, h.mem_iff, h.bearing, h.counts, h.counters, h.lowest_pos, h.few, h.highest_lt⟩
  rw [hlk]
  exact h.represents

end

lemma nodup_pages (db : PfnDatabase) : db.pages.Nodup := List.nodup_range'

lemma heads_update {db' : PfnDatabase} {m : Nat → Links Nat} {q : Head Nat} {l : List Nat}
    {head count : Nat} (hrp : Represents m (update (db.heads Q) k q) (update Q k l))
    (hls : db'.lists = update db.lists k ⟨head, count⟩) (hhd : ptr head = q.head) :
    db'.heads (update Q k l) = update (db.heads Q) k q := by
  have hla := (hrp.linked k).last
  rw [update_self, update_self] at hla
  funext k'
  unfold heads
  by_cases hk' : k' = k
  · rw [hk', hls, update_self, update_self, update_self, hhd, ← hla]
  · rw [hls, update_of_ne hk', update_of_ne hk', update_of_ne hk']

variable (h : Holds db L Q)
include h

lemma Holds.counters_update (hp : db.inRange p) (v : Option MMPFNSTATE) (c : Counter) :
    (db.pages.countP fun q => (update L p v q).any c.selects) + ((L p).any c.selects).toNat
      = c.read db + (v.any c.selects).toNat := by
  rw [h.counters c]
  exact @countP_update Nat _ _ (fun o : Option MMPFNSTATE => o.any c.selects) L p v
    db.pages (nodup_pages db) (mem_pages hp)

lemma Holds.moved {db' : PfnDatabase} {Q' : Nat → List Nat}
    {v : Option MMPFNSTATE} (hs : SameRange db db')
    (hrp : Represents db'.links (db'.heads Q') Q') (hm : ∀ q k', q ∈ Q' k' ↔
      db.inRange q ∧ ∃ s, update L p v q = some s ∧ listIndexFor s = k')
    (hv : ∀ s, v = some s → Bearing s) (hct : ∀ k', (db'.lists k').count = (Q' k').length)
    (hrd : ∀ c : Counter, c.read db' = db.pages.countP fun q => (update L p v q).any c.selects) :
    Holds db' (update L p v) Q' := by
  refine ⟨hrp, fun q k' => by rw [hs.inRange, hm], ?_, hct,
    fun c => by rw [hs.pages, hrd], by rw [hs.lowestPfn]; exact h.lowest_pos,
    by rw [hs.pages]; exact h.few, by rw [hs.highestPfn]; exact h.highest_lt⟩
  intro q s hq
  by_cases hqp : q = p
  · rw [hqp, update_self] at hq
    exact hv s hq
  · rw [update_of_ne hqp] at hq
    exact h.bearing q s hq

lemma Holds.unlinkEntry (hp : db.inRange p) (hL : L p = some (db.state p)) :
    ∃ db' Q', db.unlinkEntry p = some db' ∧ Holds db' (update L p none) Q' ∧
      (∀ q, db'.state q = db.state q) ∧ SameRange db db' := by
  obtain ⟨k, hk⟩ : ∃ k, k = listIndexFor (db.state p) := ⟨_, rfl⟩
  have hm : p ∈ Q k := (h.mem_iff p k).mpr ⟨hp, db.state p, hL, hk.symm⟩
  obtain ⟨hnx, hpv⟩ := h.neighbours hm
  obtain ⟨db', _, hun, hlk, hhd, hls, hst, hrd, hs⟩ := unlinkEntry_eq (Q k).getLast? hk hpv hnx
  have hrp := h.represents.unlink hm
  refine ⟨db', update Q k ((Q k).erase p), hun, h.moved hs ?_ ?_ nofun ?_ ?_, hst, hs⟩
  · rw [heads_update hrp hls hhd, hlk]
    exact hrp
  · intro q k'
    rw [h.represents.mem_update_erase hm]
    by_cases hqp : q = p
    · subst hqp
      simp
    · rw [update_of_ne hqp, ← h.mem_iff]
      simp [hqp]
  · intro k'
    rw [hls]
    by_cases hk' : k' = k
    · subst hk'
      rw [update_self, update_self, List.length_erase_of_mem hm, ← h.counts]
    · rw [update_of_ne hk', update_of_ne hk', h.counts]
  intro c
  have hcn := h.counters_update hp none c
  have hle := h.read_le c
  have hfw := h.few
  rw [hL, any_some] at hcn
  rw [hrd]
  cases hsl : c.selects (db.state p) with rw [hsl] at hcn
  | true =>
    have hsu : c.read db = (db.pages.countP fun q => (update L p none q).any c.selects) + 1 :=
      hcn.symm
    rw [hsu]
    exact bump_neg_one (by omega)
  | false => exact hcn.symm

lemma Holds.insertHeadEntry (hp : db.inRange p) (hL : L p = none)
    (hbe : Bearing (db.state p)) : ∃ db' Q', db.insertHeadEntry p = some db' ∧
      Holds db' (update L p (some (db.state p))) Q' ∧
      (∀ q, db'.state q = db.state q) ∧ SameRange db db' := by
  obtain ⟨k, hk⟩ : ∃ k, k = listIndexFor (db.state p) := ⟨_, rfl⟩
  have hnt : ∀ k', p ∉ Q k' := by
    intro k' hm
    obtain ⟨-, s, hs, -⟩ := (h.mem_iff p k').mp hm
    rw [hL] at hs
    cases hs
  have hhd : (db.lists k).head = 0 ∨ db.inRange (db.lists k).head := by
    rcases h.head k with ⟨h0, -⟩ | ⟨rest, hQ⟩
    · exact .inl h0
    refine .inr (h.inRange (k := k) ?_)
    rw [hQ]
    exact List.mem_cons_self
  have hfw := h.few
  have hcn : (db.lists k).count + 1 < 2 ^ 64 := by
    have := h.length_le k
    rw [h.counts]
    omega
  obtain ⟨db', hin, hlk, hls, hst, hrd, hsm⟩ :=
    insertHeadEntry_eq (Q k).getLast? hk (h.ne_zero hp) hhd hcn
  have hrp := h.represents.addHead k hnt
  have hpt : ptr p = (DList.addHead (db.heads Q k) db.links p).1.head := ptr_of_ne (h.ne_zero hp)
  refine ⟨db', update Q k (p :: Q k), hin, h.moved hsm ?_ ?_ ?_ ?_ ?_, hst, hsm⟩
  · rw [heads_update hrp hls hpt, hlk]
    exact hrp
  · intro q k'
    rw [mem_update_cons]
    by_cases hqp : q = p
    · subst hqp
      simp [hnt k', hp, hk, eq_comm]
    · rw [update_of_ne hqp, ← h.mem_iff]
      simp [hqp]
  · rintro s hs
    cases hs
    exact hbe
  · intro k'
    rw [hls]
    by_cases hk' : k' = k
    · subst hk'
      rw [update_self, update_self, List.length_cons, ← h.counts]
    · rw [update_of_ne hk', update_of_ne hk', h.counts]
  intro c
  have hcn := h.counters_update hp (some (db.state p)) c
  have hle := h.read_le c
  rw [hL, any_some] at hcn
  rw [hrd]
  cases hsl : c.selects (db.state p) with rw [hsl] at hcn
  | true =>
    rw [bump_one (by omega)]
    exact hcn.symm
  | false => exact hcn.symm

end

end Nt61.Pfn
