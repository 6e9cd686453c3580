/-
Routing — the routing table is a longest-prefix match.

Each insertion sorts the table, longest prefix first and then smallest metric, and a removal keeps
the order; so the first match is a best route (`findRoute_best`).
-/
import Mathlib.Data.List.Sort

namespace Nt61.Routing

open List

/-! ## The table -/

inductive RouteType where
  | direct
  | static
  | dynamic
  | redirect
  | default
  deriving DecidableEq, Repr

structure RouteEntry where
  destination : UInt32
  netmask : UInt32
  gateway : UInt32
  interface : UInt32
  metric : UInt32
  routeType : RouteType
  deriving DecidableEq, Repr

namespace RouteEntry

def «matches» (r : RouteEntry) (dstIp : UInt32) : Bool :=
  dstIp &&& r.netmask == r.destination &&& r.netmask

def prefixLen (r : RouteEntry) : Nat := (range 32).countP r.netmask.toNat.testBit

def cmp (a b : RouteEntry) : Ordering :=
  let prefixCmp := compare b.prefixLen a.prefixLen
  if prefixCmp = .eq then compare a.metric b.metric else prefixCmp

end RouteEntry

variable (table : List RouteEntry)

def retain (destination netmask : UInt32) : List RouteEntry :=
  table.filter fun r => !(r.destination == destination && r.netmask == netmask)

def addRoute (entry : RouteEntry) : List RouteEntry :=
  (retain table entry.destination entry.netmask ++ [entry]).mergeSort fun a b => (a.cmp b).isLE

def removeRoute (destination netmask : UInt32) : Bool × List RouteEntry :=
  let kept := retain table destination netmask
  (kept.length != table.length, kept)

def findRoute (dstIp : UInt32) : Option RouteEntry := table.find? (·.matches dstIp)

def flushDynamicRoutes : List RouteEntry := table.filter (·.routeType != .dynamic)

inductive Op where
  | add (entry : RouteEntry)
  | remove (destination netmask : UInt32)
  | flush
  | clear

def step : Op → List RouteEntry
  | .add entry => addRoute table entry
  | .remove destination netmask => (removeRoute table destination netmask).2
  | .flush => flushDynamicRoutes table
  | .clear => []

def run (ops : List Op) : List RouteEntry := ops.foldl step []

/-! ## What is installed -/

abbrev Routes := UInt32 × UInt32 → Option RouteEntry

def Routes.step (routes : Routes) : Op → Routes
  | .add entry => Function.update routes (entry.destination, entry.netmask) (some entry)
  | .remove destination netmask => Function.update routes (destination, netmask) none
  | .flush => fun network => (routes network).filter (·.routeType != .dynamic)
  | .clear => fun _ => none

def Routes.Has (routes : Routes) (r : RouteEntry) : Prop :=
  routes (r.destination, r.netmask) = some r

def installed (ops : List Op) : Routes := ops.foldl Routes.step fun _ => none

/-- A matching route with the longest prefix, and of those one with the smallest metric. -/
structure Routes.Best (routes : Routes) (dstIp : UInt32) (r : RouteEntry) : Prop where
  has : routes.Has r
  «matches» : r.matches dstIp
  longest : ∀ r', routes.Has r' → r'.matches dstIp →
    r'.prefixLen < r.prefixLen ∨ (r'.prefixLen = r.prefixLen ∧ r.metric ≤ r'.metric)

variable {table} {routes : Routes}

lemma mem_retain {destination netmask : UInt32} {r : RouteEntry} :
    r ∈ retain table destination netmask
      ↔ r ∈ table ∧ (r.destination, r.netmask) ≠ (destination, netmask) := by
  simp [retain, imp_iff_not_or]

lemma mem_step (h : ∀ r, r ∈ table ↔ routes.Has r) (op : Op) (r : RouteEntry) :
    r ∈ step table op ↔ (routes.step op).Has r := by
  cases op with
  | add entry =>
    rw [step, addRoute, mem_mergeSort, mem_append, mem_retain, h]
    simp only [Routes.Has, Routes.step]
    by_cases hk : (r.destination, r.netmask) = (entry.destination, entry.netmask)
    · rw [hk]
      simp [eq_comm]
    · have hne : r ≠ entry := fun heq => hk (by rw [heq])
      simp [hk, hne]
  | remove destination netmask =>
    rw [step, removeRoute, mem_retain, h]
    simp only [Routes.Has, Routes.step]
    by_cases hk : (r.destination, r.netmask) = (destination, netmask)
    · simp [hk]
    · simp [hk]
  | flush => simp [step, flushDynamicRoutes, h, Routes.Has, Routes.step]
  | clear => simp [step, Routes.Has, Routes.step]

/-! ## The order -/

lemma cmp_isLE_iff {a b : RouteEntry} : (a.cmp b).isLE
    ↔ b.prefixLen < a.prefixLen ∨ (b.prefixLen = a.prefixLen ∧ a.metric ≤ b.metric) := by
  unfold RouteEntry.cmp
  rcases Nat.lt_trichotomy b.prefixLen a.prefixLen with hlt | heq | hgt
  · simp [Nat.compare_eq_lt.mpr hlt, hlt]
  · simp [heq, Std.isLE_compare]
  · simp [Nat.compare_eq_gt.mpr hgt, hgt.ne', hgt.le]

/-- Longest prefix first, then smallest metric. -/
def Sorted (table : List RouteEntry) : Prop := table.Pairwise fun a b => (a.cmp b).isLE

lemma step_sorted (h : Sorted table) (op : Op) : Sorted (step table op) := by
  cases op with
  | add entry =>
    apply pairwise_mergeSort
    · intro a b c hab hbc
      simp only [cmp_isLE_iff, UInt32.le_iff_toNat_le] at *
      omega
    intro a b
    simp only [Bool.or_eq_true, cmp_isLE_iff, UInt32.le_iff_toNat_le]
    omega
  | remove destination netmask => exact h.filter _
  | flush => exact h.filter _
  | clear => exact List.Pairwise.nil

lemma run_spec (ops : List Op) : Sorted (run ops) ∧ ∀ r, r ∈ run ops ↔ (installed ops).Has r := by
  suffices h : ∀ table routes, Sorted table → (∀ r, r ∈ table ↔ Routes.Has routes r) →
      Sorted (ops.foldl step table)
        ∧ ∀ r, r ∈ ops.foldl step table ↔ (ops.foldl Routes.step routes).Has r from
    h [] _ List.Pairwise.nil fun r => by simp [Routes.Has]
  induction ops with
  | nil => exact fun _ _ hsr hm => ⟨hsr, hm⟩
  | cons op ops ih => exact fun _ _ hsr hm => ih _ _ (step_sorted hsr op) (mem_step hm op)

/-- The first match in the order is a best one. -/
theorem findRoute_best (ops : List Op) (dstIp : UInt32) :
    (findRoute (run ops) dstIp = none ↔ ∀ r, (installed ops).Has r → ¬ r.matches dstIp)
      ∧ ∀ r ∈ findRoute (run ops) dstIp, (installed ops).Best dstIp r := by
  obtain ⟨hsr, hm⟩ := run_spec ops
  constructor
  · simp only [findRoute, find?_eq_none, hm]
  intro r hr
  obtain ⟨hmt, before, after, hsp, hbf⟩ := find?_eq_some_iff_append.mp hr
  refine ⟨(hm r).mp (mem_of_find?_eq_some hr), hmt, fun r' hr' hmt' => ?_⟩
  have hin := (hm r').mpr hr'
  rw [hsp] at hin hsr
  -- no route before the first match matches; the ones after it come later in the order
  rcases mem_append.mp hin with hel | hlt
  · simpa [hmt'] using hbf r' hel
  rcases mem_cons.mp hlt with rfl | hlt
  · exact .inr ⟨rfl, UInt32.le_refl _⟩
  · exact cmp_isLE_iff.mp ((pairwise_cons.mp (pairwise_append.mp hsr).2.1).1 r' hlt)

end Nt61.Routing
