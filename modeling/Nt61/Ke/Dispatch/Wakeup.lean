/-
Wakeup — no thread stays parked on a signalled object.

`wait_single` tests the signal before `wait_on` parks the thread, and `wait_on` does not test it
again, so a signaller that runs in between wakes nobody. And `wait_on` does not take its thread off
the wait list when `schedule` comes back without a wake, so the next wait of the thread links it a
second time and cuts off the threads behind it. Apart from these, nothing gets lost.
-/
import Nt61.Ke.Dispatch.Model
import Nt61.Ke.Scheduler.Steps

namespace Nt61.Dispatch

open Scheduler Lib Function List Option Dispatcher

variable {n : Nat} {O C : Type} {d d' : Dispatcher n O} {l xs ys : List (Fin n)}

/-! ## The wait list and the wait entries -/

/-- The threads of `l` are linked, and each of them has one slot. -/
structure Consistent (d : Dispatcher n O) (l : List (Fin n)) : Prop where
  linked : DList.Linked d.waitLinks d.waitHead l
  slot : ∀ t ∈ l, ∃ i, (d.entries i).inUse = true ∧ (d.entries i).thread = some t
  thread : ∀ i, (d.entries i).inUse = true → ∃ t ∈ l, (d.entries i).thread = some t
  one : ∀ i j, (d.entries i).inUse = true → (d.entries j).inUse = true →
    (d.entries i).thread = (d.entries j).thread → i = j

def Parked (d : Dispatcher n O) (t : Fin n) (object : O) : Prop :=
  ∃ i, (d.entries i).inUse = true ∧ (d.entries i).thread = some t
    ∧ (d.entries i).object = some object

lemma Consistent.congr (h : Consistent d l) (hlk : d'.waitLinks = d.waitLinks)
    (hhd : d'.waitHead = d.waitHead) (hes : ∀ i, (d'.entries i).inUse = (d.entries i).inUse
      ∧ (d'.entries i).thread = (d.entries i).thread) : Consistent d' l := by
  refine ⟨by rw [hlk, hhd]; exact h.linked, ?_, ?_, ?_⟩
  · intro t ht
    obtain ⟨i, hus, hth⟩ := h.slot t ht
    exact ⟨i, (hes i).1.trans hus, (hes i).2.trans hth⟩
  · intro i hus
    rw [(hes i).1] at hus
    rw [(hes i).2]
    exact h.thread i hus
  intro i j hi hj hs
  rw [(hes i).1] at hi
  rw [(hes j).1] at hj
  rw [(hes i).2, (hes j).2] at hs
  exact h.one i j hi hj hs

/-! ## Parking -/

variable {i : Slot}

lemma findFreeSlot_free (h : d.findFreeSlot = some i) : (d.entries i).inUse = false := by
  have hf := find?_some h
  simp only [Bool.and_eq_true, Bool.not_eq_true'] at hf
  exact hf.1

variable {object : O} {timeoutMs now : Nat}

lemma park_eq (h : d.park object timeoutMs now = some d') :
    ∃ t i, d.currentThread = some t ∧ (d.entries i).inUse = false
      ∧ d'.waitHead = (DList.addTail d.waitHead d.waitLinks t).1
      ∧ d'.waitLinks = (DList.addTail d.waitHead d.waitLinks t).2 ∧ d'.objects = d.objects
      ∧ (d'.entries i).inUse = true ∧ (d'.entries i).thread = some t
      ∧ (d'.entries i).object = some object ∧ ∀ j, j ≠ i → d'.entries j = d.entries j := by
  obtain ⟨t, ht, hmp⟩ := bind_eq_some_iff.mp h
  obtain ⟨i, hi, rfl⟩ := map_eq_some_iff.mp hmp
  refine ⟨t, i, ht, findFreeSlot_free hi, rfl, rfl, rfl, ?_, ?_, ?_, ?_⟩
  · exact congrArg WaitEntry.inUse (update_self i _ d.entries)
  · exact congrArg WaitEntry.thread (update_self i _ d.entries)
  · exact congrArg WaitEntry.object (update_self i _ d.entries)
  · intro j hj
    exact update_of_ne hj _ _

lemma Consistent.park (h : Consistent d l) (hrun : d.park object timeoutMs now = some d')
    (hw : ∀ t, d.currentThread = some t → ∀ i, (d.entries i).inUse = true →
      (d.entries i).thread ≠ some t) : ∃ t, Consistent d' (l ++ [t]) ∧ d'.objects = d.objects
      ∧ ∀ u o, Parked d' u o → Parked d u o ∨ o = object := by
  obtain ⟨t, i, ht, hf, hhd, hlk, hob, hue, hth, hoj, hr⟩ := park_eq hrun
  have hnt : t ∉ l := by
    intro hm
    obtain ⟨j, hj, hjt⟩ := h.slot t hm
    exact hw t ht j hj hjt
  have hold : ∀ j, (d.entries j).inUse = true → j ≠ i := by
    intro j hj heq
    rw [heq, hf] at hj
    cases hj
  have hus : ∀ j, j ≠ i → (d'.entries j).inUse = true → (d.entries j).inUse = true := by
    intro j hj hjs
    rw [hr j hj] at hjs
    exact hjs
  refine ⟨t, ⟨?_, ?_, ?_, ?_⟩, hob, ?_⟩
  · rw [hlk, hhd]
    exact (h.linked.addTail hnt).1
  · intro u hu
    rcases mem_append.mp hu with hm | hla
    · obtain ⟨j, hj, hjt⟩ := h.slot u hm
      refine ⟨j, ?_, ?_⟩ <;> rw [hr j (hold j hj)]
      · exact hj
      · exact hjt
    · rw [mem_singleton.mp hla]
      exact ⟨i, hue, hth⟩
  · intro j hj
    by_cases hji : j = i
    · rw [hji, hth]
      exact ⟨t, mem_append_right l (mem_singleton_self t), rfl⟩
    obtain ⟨u, hu, hjt⟩ := h.thread j (hus j hji hj)
    rw [hr j hji]
    exact ⟨u, mem_append_left [t] hu, hjt⟩
  · intro j k hj hk hs
    -- an old slot does not name the new thread
    have hap : ∀ j, j ≠ i → (d'.entries j).inUse = true → (d'.entries j).thread ≠ some t := by
      intro j hji hjs
      rw [hr j hji]
      exact hw t ht j (hus j hji hjs)
    by_cases hji : j = i
    · by_cases hki : k = i
      · rw [hji, hki]
      · rw [hji, hth] at hs
        exact absurd hs.symm (hap k hki hk)
    by_cases hki : k = i
    · rw [hki, hth] at hs
      exact absurd hs (hap j hji hj)
    · rw [hr j hji, hr k hki] at hs
      exact h.one j k (hus j hji hj) (hus k hki hk) hs
  intro u o hpk
  obtain ⟨j, hj, hjt, hjo⟩ := hpk
  by_cases hji : j = i
  · rw [hji, hoj] at hjo
    exact Or.inr (some.inj hjo).symm
  · rw [hr j hji] at hj hjt hjo
    exact Or.inl ⟨j, hj, hjt, hjo⟩

/-! ## Ending waits -/

variable {t : Fin n} {me : Nat}

lemma unpark_eq {signalled : Bool} {boost : PriorityBoostType}
    (h : d.unpark me signalled boost i t = some d') :
    d'.waitHead = (DList.unlink d.waitHead d.waitLinks t).1
      ∧ (∀ u, u ≠ t → d'.waitLinks u = (DList.unlink d.waitHead d.waitLinks t).2 u)
      ∧ d'.objects = d.objects
      ∧ (d'.entries i).inUse = false ∧ ∀ j, j ≠ i → d'.entries j = d.entries j := by
  obtain ⟨_, _, rfl⟩ := map_eq_some_iff.mp h
  refine ⟨rfl, ?_, rfl, ?_, ?_⟩
  · intro u hu
    exact update_of_ne hu _ _
  · exact congrArg WaitEntry.inUse (update_self i _ d.entries)
  · intro j hj
    exact update_of_ne hj _ _

lemma Consistent.unpark {signalled : Bool} {boost : PriorityBoostType}
    (h : Consistent d (xs ++ t :: ys)) (hus : (d.entries i).inUse = true)
    (hth : (d.entries i).thread = some t) (hrun : d.unpark me signalled boost i t = some d') :
    Consistent d' (xs ++ ys) ∧ d'.objects = d.objects
      ∧ ∀ j, (d'.entries j).inUse = true → d'.entries j = d.entries j := by
  obtain ⟨hhd, hlk, hob, hfd, hr⟩ := unpark_eq hrun
  -- the slots still in use are the old ones but for `i`
  have hot : ∀ j, (d'.entries j).inUse = true → j ≠ i := by
    intro j hj heq
    rw [heq, hfd] at hj
    cases hj
  have hs : ∀ j, (d'.entries j).inUse = true → d'.entries j = d.entries j :=
    fun j hj => hr j (hot j hj)
  refine ⟨⟨?_, ?_, ?_, ?_⟩, hob, hs⟩
  · rw [hhd]
    exact (h.linked.unlink).1.congr fun u hu => hlk u (h.linked.mem_others.mp hu).2
  · intro u hu
    obtain ⟨hm, hut⟩ := h.linked.mem_others.mp hu
    obtain ⟨j, hj, hjt⟩ := h.slot u hm
    have hji : j ≠ i := by
      intro heq
      rw [heq, hth] at hjt
      exact hut (some.inj hjt).symm
    refine ⟨j, ?_, ?_⟩ <;> rw [hr j hji]
    · exact hj
    · exact hjt
  · intro j hj
    have hji := hot j hj
    have heq := hs j hj
    rw [heq] at hj ⊢
    obtain ⟨u, hu, hju⟩ := h.thread j hj
    refine ⟨u, h.linked.mem_others.mpr ⟨hu, ?_⟩, hju⟩
    intro hut
    rw [hut, ← hth] at hju
    exact hji (h.one j i hj hus hju)
  intro j k hj hk hbt
  have hje := hs j hj
  have hke := hs k hk
  rw [hje] at hj hbt
  rw [hke] at hk hbt
  exact h.one j k hj hk hbt

lemma slotOf_some {test : WaitEntry n O → Bool}
    (h : d.slotOf test t = some i) : (d.entries i).inUse = true ∧ (d.entries i).thread = some t := by
  have hfn := find?_some h
  simp only [Bool.and_eq_true, decide_eq_true_eq] at hfn
  exact hfn.1

lemma slotOf_none {test : WaitEntry n O → Bool} (h : d.slotOf test t = none)
    (hus : (d.entries i).inUse = true) (hth : (d.entries i).thread = some t) :
    test (d.entries i) = false := by
  have hn := find?_eq_none.mp h i (mem_finRange i)
  simpa [hus, hth] using hn

lemma Consistent.next (h : Consistent d (xs ++ t :: ys)) : (d.waitLinks t).flink = ys.head? := by
  obtain ⟨_, ht, _⟩ := DList.seg_append.mp h.linked.seg
  rw [ht, or_none]

variable {me : Nat} {test : WaitEntry n O → Bool} {signalled : Bool} {boost : PriorityBoostType}

variable {r : Nat × Dispatcher n O}

/-- **A sweep over all waiters** leaves none that the test accepts, and the others as they were. The
threads of `xs` are behind the walk already, those of `ys` still before it. -/
lemma sweep_spec {fuel woken : Nat} (h : Consistent d (xs ++ ys))
    (hxs : ∀ i, (d.entries i).inUse = true → ∀ t ∈ xs, (d.entries i).thread = some t →
      test (d.entries i) = false)
    (hrun : sweep me test signalled boost true fuel ys.head? woken d = some r) :
    (∃ l, Consistent r.2 l) ∧ r.2.objects = d.objects
      ∧ ∀ i, (r.2.entries i).inUse = true → r.2.entries i = d.entries i ∧ test (d.entries i) = false := by
  induction ys generalizing xs fuel woken d with
  | nil =>
    have hr : r = (woken, d) := by cases fuel <;> exact (some.inj hrun).symm
    subst hr
    refine ⟨⟨_, h⟩, rfl, ?_⟩
    intro i hus
    obtain ⟨t, ht, hth⟩ := h.thread i hus
    rw [append_nil] at ht
    exact ⟨rfl, hxs i hus t ht hth⟩
  | cons t ys ih =>
    cases fuel with
    | zero => cases hrun
    | succ fuel =>
      rw [head?_cons, sweep, h.next] at hrun
      cases hsl : d.slotOf test t with
      | none =>
        -- the walk leaves `t` behind, and no slot of `t` passes the test
        rw [hsl] at hrun
        rw [append_cons] at h
        apply ih h _ hrun
        intro i hus u hu hth
        rcases mem_append.mp hu with hx | hla
        · exact hxs i hus u hx hth
        · rw [mem_singleton.mp hla] at hth
          exact slotOf_none hsl hus hth
      | some i =>
        -- `t` leaves the list; its successor was read before
        rw [hsl] at hrun
        obtain ⟨hus, hth⟩ := slotOf_some hsl
        obtain ⟨d1, hun, hrs⟩ := bind_eq_some_iff.mp hrun
        obtain ⟨h1, hob, hs⟩ := h.unpark hus hth hun
        have hxs1 : ∀ j, (d1.entries j).inUse = true → ∀ u ∈ xs, (d1.entries j).thread = some u →
            test (d1.entries j) = false := by
          intro j hj u hu hju
          have heq := hs j hj
          rw [heq] at hj hju ⊢
          exact hxs j hj u hu hju
        obtain ⟨hl, hob', hkp⟩ := ih h1 hxs1 hrs
        refine ⟨hl, hob'.trans hob, ?_⟩
        intro j hj
        obtain ⟨heq, hte⟩ := hkp j hj
        have hj1 : (d1.entries j).inUse = true := heq ▸ hj
        rw [hs j hj1] at heq hte
        exact ⟨heq, hte⟩

/-- A sweep touches no wait that the test refuses. -/
lemma sweep_keeps {all : Bool} {fuel woken : Nat} {cur : Option (Fin n)}
    (hrun : sweep me test signalled boost all fuel cur woken d = some r)
    (hi : test (d.entries i) = false) : r.2.entries i = d.entries i := by
  induction fuel generalizing cur woken d with
  | zero => cases cur <;> cases hrun; rfl
  | succ fuel ih =>
    cases cur with
    | none => cases hrun; rfl
    | some t =>
      rw [sweep] at hrun
      cases hsl : d.slotOf test t with
      | none =>
        rw [hsl] at hrun
        exact ih hrun hi
      | some j =>
        rw [hsl] at hrun
        obtain ⟨d1, hun, hr⟩ := bind_eq_some_iff.mp hrun
        have ht := find?_some hsl
        have hs : d1.entries i = d.entries i := by
          obtain ⟨_, -, rfl⟩ := map_eq_some_iff.mp hun
          refine update_of_ne ?_ _ _
          rintro rfl
          simp [hi] at ht
        rw [← hs] at hi ⊢
        split at hr
        · exact ih hr hi
        · cases hr
          rfl

/-! ### A sweep comes to its end -/

/-- `add_ready` can shift by the number of the home CPU. -/
def Homed (s : State n) : Prop := ∀ t, (s.threads t).homeCpu.toNat < 64

lemma Homed.modifyThread {s : State n} (h : Homed s) {f : Kthread → Kthread}
    (hf : (f (s.threads t)).homeCpu = (s.threads t).homeCpu) : Homed (s.modifyThread t f) := by
  intro u
  rw [modifyThread_field Kthread.homeCpu hf u]
  exact h u

lemma Homed.addReady {s : State n} (h : Homed s) (me : Nat) (t : Fin n) (priority : UInt8) :
    ∃ s', s.addReady me (some t) priority = some s' ∧ Homed s' := by
  obtain ⟨s', hs'⟩ : ∃ s', s.addReady me (some t) priority = some s' := by
    unfold State.addReady State.targetCpu
    dsimp only
    rw [if_pos (h t)]
    exact ⟨_, rfl⟩
  refine ⟨s', hs', ?_⟩
  rcases addReady_cases hs' with rfl | ⟨cpu, _, _, _, rfl⟩
  · exact h
  intro u
  unfold State.link State.setLocation
  rw [modifyThread_field Kthread.homeCpu rfl u, (enqueue_frame s cpu _ t).threads]
  exact h u

lemma unpark_returns (h : Homed d.sched) (me : Nat) (signalled : Bool) (boost : PriorityBoostType)
    (i : Slot) (t : Fin n) : ∃ d', d.unpark me signalled boost i t = some d' ∧ Homed d'.sched := by
  have hst : Homed (d.sched.setState t .ready) := h.modifyThread rfl
  have hrd : Homed (kiBoostThread (d.sched.setState t .ready) t boost).2 := by
    intro u
    unfold kiBoostThread
    rw [modifyThread_field Kthread.homeCpu rfl u]
    exact hst u
  obtain ⟨_, hs', hhm⟩ := hrd.addReady me t
    (kiBoostThread (d.sched.setState t .ready) t boost).1.toUInt8
  unfold unpark
  dsimp only
  rw [hs']
  exact ⟨_, rfl, hhm⟩

lemma sweep_returns {all : Bool} {fuel woken : Nat} (h : Consistent d (xs ++ ys))
    (hhm : Homed d.sched) (hfu : ys.length ≤ fuel) :
    ∃ r, sweep me test signalled boost all fuel ys.head? woken d = some r := by
  induction ys generalizing xs fuel woken d with
  | nil => cases fuel <;> exact ⟨_, rfl⟩
  | cons t ys ih =>
    obtain ⟨fuel, rfl⟩ : ∃ k, fuel = k + 1 := ⟨fuel - 1, by simp at hfu; omega⟩
    have hsh : ys.length ≤ fuel := by simpa using hfu
    rw [head?_cons, sweep, h.next]
    cases hsl : d.slotOf test t with
    | none =>
      rw [append_cons] at h
      exact ih h hhm hsh
    | some i =>
      obtain ⟨hus, hth⟩ := slotOf_some hsl
      obtain ⟨_, hun, hhomed1⟩ := unpark_returns hhm me signalled boost i t
      dsimp only
      rw [hun]
      cases all with
      | false => exact ⟨_, rfl⟩
      | true => exact ih (h.unpark hus hth hun).1 hhomed1 hsh

section

variable (h : Consistent d l)
include h

lemma wake_returns [DecidableEq O] (hhm : Homed d.sched) (me : Nat)
    (object : O) (all : Bool) : ∃ r, d.wake me object all = some r := by
  have hl : l.length ≤ n := by
    have hcd := h.linked.nodup.length_le_card
    rwa [Fintype.card_fin] at hcd
  have hs0 : Consistent d ([] ++ l) := h
  unfold wake
  rw [h.linked.head]
  exact sweep_returns hs0 hhm hl

lemma wake_spec [DecidableEq O] (hrun : d.wake me object true = some r) :
    (∃ l, Consistent r.2 l) ∧ r.2.objects = d.objects
      ∧ ∀ t o, Parked r.2 t o → Parked d t o ∧ o ≠ object := by
  unfold wake at hrun
  rw [h.linked.head] at hrun
  have hs0 : Consistent d ([] ++ l) := h
  obtain ⟨hl, hob, hkp⟩ := sweep_spec hs0 nofun hrun
  refine ⟨hl, hob, ?_⟩
  intro t o hpk
  obtain ⟨i, hus, hth, hoj⟩ := hpk
  obtain ⟨heq, ht⟩ := hkp i hus
  rw [heq] at hus hth hoj
  refine ⟨⟨i, hus, hth, hoj⟩, ?_⟩
  intro hs
  rw [hoj, hs] at ht
  simp at ht

lemma tickWaitList_spec {me now : Nat} (hrun : d.tickWaitList me now = some d') :
    (∃ l, Consistent d' l) ∧ d'.objects = d.objects ∧ ∀ t o, Parked d' t o → Parked d t o := by
  obtain ⟨_, hsw, rfl⟩ := map_eq_some_iff.mp hrun
  rw [h.linked.head] at hsw
  have hs0 : Consistent d ([] ++ l) := h
  obtain ⟨hl, hob, hkp⟩ := sweep_spec hs0 nofun hsw
  refine ⟨hl, hob, ?_⟩
  intro t o hpk
  obtain ⟨i, hus, hth, hoj⟩ := hpk
  obtain ⟨heq, _⟩ := hkp i hus
  rw [heq] at hus hth hoj
  exact ⟨i, hus, hth, hoj⟩

lemma collect_spec [DecidableEq O] {current : Option (Fin n)}
    {r : WaitResult × Dispatcher n O} (hrun : d.collect object current i = some r) :
    Consistent r.2 l ∧ r.2.objects = d.objects ∧ ∀ t o, Parked r.2 t o → Parked d t o := by
  unfold collect at hrun
  dsimp only at hrun
  split at hrun <;> cases hrun
  have hs : ∀ j e, Function.update d.entries i
        { d.entries i with signalled := false, resultPending := false } j = e →
      e.inUse = (d.entries j).inUse ∧ e.thread = (d.entries j).thread
        ∧ e.object = (d.entries j).object := by
    rintro j _ rfl
    by_cases hj : j = i
    · rw [hj, update_self]
      exact ⟨rfl, rfl, rfl⟩
    · rw [update_of_ne hj]
      exact ⟨rfl, rfl, rfl⟩
  refine ⟨h.congr rfl rfl fun j => ⟨(hs j _ rfl).1, (hs j _ rfl).2.1⟩, rfl, ?_⟩
  intro t o hpk
  obtain ⟨j, hus, hth, hob⟩ := hpk
  obtain ⟨h1, h2, h3⟩ := hs j _ rfl
  exact ⟨j, h1.symm.trans hus, h2.symm.trans hth, h3.symm.trans hob⟩

end

/-! ## Lost wakeups -/

/-- Some signaller has signalled the object and has not returned from `wake`. -/
def WakePending (s : System n O C) (object : O) : Prop := ∃ c, s.phase c = .raised object

/-- Nobody is parked on a signalled object, unless a `wake` for it is still to come. -/
def NoLostWakeup (s : System n O C) : Prop :=
  ∀ t object, Parked s.dispatcher t object → (s.dispatcher.objects object).signalState = 1 →
    WakePending s object

structure Inv (s : System n O C) : Prop where
  consistent : ∃ l, Consistent s.dispatcher l
  wakeups : NoLostWakeup s

/-- Parking is in time if the object is not signalled, or a `wake` for it is still to come, and if
the thread is not parked already. -/
def ParksInTime (s : System n O C) : Op n O C → Prop
  | .park c _ => ∀ object timeoutMs, s.phase c = .entering object timeoutMs →
      ((s.dispatcher.objects object).signalState ≠ 1 ∨ WakePending s object)
        ∧ ∀ t, s.dispatcher.currentThread = some t → ∀ i, (s.dispatcher.entries i).inUse = true →
            (s.dispatcher.entries i).thread ≠ some t
  | _ => True

variable [DecidableEq O] [DecidableEq C]

variable {s s' : System n O C}

variable {c : C}

omit [DecidableEq O] in
lemma WakePending.of_update (h : WakePending s object)
    (hc : s.phase c ≠ .raised object) {phase : Phase n O}
    (hph : s'.phase = Function.update s.phase c phase) : WakePending s' object := by
  obtain ⟨c', hc'⟩ := h
  refine ⟨c', ?_⟩
  have hne : c' ≠ c := by
    intro heq
    rw [heq] at hc'
    exact hc hc'
  rw [hph, update_of_ne hne]
  exact hc'

omit [DecidableEq O] [DecidableEq C] in
lemma NoLostWakeup.of_subset (h : NoLostWakeup s)
    (hpk : ∀ t o, Parked s'.dispatcher t o → Parked s.dispatcher t o)
    (hob : s'.dispatcher.objects = s.dispatcher.objects)
    (hpn : ∀ t o, Parked s'.dispatcher t o → WakePending s o → WakePending s' o) :
    NoLostWakeup s' := by
  intro t o ht hsignal
  rw [hob] at hsignal
  exact hpn t o ht (h t o (hpk t o ht) hsignal)

omit [DecidableEq O] in
lemma Inv.goto (h : Inv s) (hc : ∀ object, s.phase c ≠ .raised object) {phase : Phase n O}
    (hds : s'.dispatcher = s.dispatcher)
    (hph : s'.phase = Function.update s.phase c phase) : Inv s' := by
  refine ⟨hds ▸ h.consistent, h.wakeups.of_subset ?_ (by rw [hds]) ?_⟩
  · intro t o ht
    exact hds ▸ ht
  · intro t o _ hpn
    exact hpn.of_update (hc o) hph

omit [DecidableEq O] in
lemma Inv.parkFor (h : Inv s) (hc : s.phase c = .entering object timeoutMs)
    (hsignal : (s.dispatcher.objects object).signalState ≠ 1 ∨ WakePending s object)
    (hw : ∀ t, s.dispatcher.currentThread = some t → ∀ i, (s.dispatcher.entries i).inUse = true →
      (s.dispatcher.entries i).thread ≠ some t) : Inv (s.parkFor c object timeoutMs now) := by
  have hra : ∀ o, s.phase c ≠ .raised o := by
    rw [hc]
    nofun
  unfold System.parkFor
  cases hrun : s.dispatcher.park object timeoutMs now with
  | none => exact h.goto hra rfl rfl
  | some d =>
    obtain ⟨_, hl⟩ := h.consistent
    obtain ⟨t, hl', hob, hpk⟩ := hl.park hrun hw
    refine ⟨⟨_, hl'⟩, ?_⟩
    intro u o hu hon
    have hold : (s.dispatcher.objects o).signalState = 1 := hob ▸ hon
    have hpn : WakePending s o := by
      rcases hpk u o hu with hbf | rfl
      · exact h.wakeups u o hbf hold
      · exact hsignal.resolve_left fun hne => hne hold
    exact hpn.of_update (hra o) rfl

lemma Inv.collectFor (h : Inv s) {current : Option (Fin n)} {slot : Nat}
    (hc : s.phase c = .collecting object current slot) :
    Inv (s.collectFor c object current slot) := by
  have hra : ∀ o, s.phase c ≠ .raised o := by
    rw [hc]
    nofun
  unfold System.collectFor
  by_cases hsl : slot < WAIT_LIST_TOTAL
  · rw [dif_pos hsl]
    cases hrun : s.dispatcher.collect object current ⟨slot, hsl⟩ with
    | none => exact h.goto hra rfl rfl
    | some r =>
      obtain ⟨l, hl⟩ := h.consistent
      obtain ⟨hl', hob, hpk⟩ := collect_spec hl hrun
      exact ⟨⟨l, hl'⟩, h.wakeups.of_subset hpk hob fun _ o _ hpn => hpn.of_update (hra o) rfl⟩
  · rw [dif_neg hsl]
    exact h.goto hra rfl rfl

lemma Inv.wake (h : Inv s) (hc : s.phase c = .raised object)
    (hrun : s.dispatcher.wake me object true = some r) :
    Inv ((s.setDispatcher r.2).goto c .idle) := by
  obtain ⟨_, hl⟩ := h.consistent
  obtain ⟨hl', hob, hpk⟩ := wake_spec hl hrun
  refine ⟨hl', h.wakeups.of_subset (fun t o ht => (hpk t o ht).1) hob ?_⟩
  intro t o ht hpn
  -- the signaller was one for another object
  have hne : s.phase c ≠ .raised o := by
    intro heq
    rw [hc] at heq
    cases heq
    exact (hpk t _ ht).2 rfl
  exact hpn.of_update hne rfl

omit [DecidableEq C] in
lemma Inv.setSignal (h : Inv s) (object : O) (signalState : UInt8)
    (hpn : signalState = 1 → WakePending s' object)
    (hds : s'.dispatcher = s.dispatcher.setSignal object signalState)
    (hkp : ∀ o, WakePending s o → WakePending s' o) : Inv s' := by
  obtain ⟨l, hl⟩ := h.consistent
  refine ⟨⟨l, by rw [hds]; exact hl.congr rfl rfl fun _ => ⟨rfl, rfl⟩⟩, ?_⟩
  intro t o ht hon
  rw [hds] at ht hon
  by_cases ho : o = object
  · subst ho
    apply hpn
    have hse : ((s.dispatcher.setSignal o signalState).objects o).signalState = signalState :=
      congrArg DispatcherHeader.signalState (update_self o _ s.dispatcher.objects)
    exact hse.symm.trans hon
  have hot : (s.dispatcher.setSignal object signalState).objects o = s.dispatcher.objects o :=
    update_of_ne ho _ _
  rw [hot] at hon
  exact hkp o (h.wakeups t o ht hon)

inductive Step (s : System n O C) : Op n O C → System n O C → Prop where
  | signalled {c : C} {object : O} {timeoutMs : Nat} (hc : s.phase c = .idle)
      (hsignal : (s.dispatcher.objects object).signalState ≠ 0) :
      Step s (.waitSingle c object timeoutMs) (s.finish c .success)
  | noTime {c : C} {object : O} (hc : s.phase c = .idle)
      (hsignal : (s.dispatcher.objects object).signalState = 0) :
      Step s (.waitSingle c object 0) (s.finish c .timeout)
  | enter {c : C} {object : O} {timeoutMs : Nat} (hc : s.phase c = .idle)
      (hsignal : (s.dispatcher.objects object).signalState = 0) :
      Step s (.waitSingle c object timeoutMs) (s.goto c (.entering object timeoutMs))
  | waitOn {c : C} {object : O} {timeoutMs : Nat} (hc : s.phase c = .idle) :
      Step s (.waitOn c object timeoutMs) (s.goto c (.entering object timeoutMs))
  | park {c : C} {object : O} {timeoutMs now : Nat} (hc : s.phase c = .entering object timeoutMs) :
      Step s (.park c now) (s.parkFor c object timeoutMs now)
  | resume {c : C} {object : O} {current : Option (Fin n)} (hc : s.phase c = .yielded object) :
      Step s (.resume c current) (s.goto c (.collecting object current 0))
  | collect {c : C} {object : O} {current : Option (Fin n)} {slot : Nat}
      (hc : s.phase c = .collecting object current slot) :
      Step s (.collect c) (s.collectFor c object current slot)
  | raise {c : C} {object : O} (hc : s.phase c = .idle) : Step s (.raise c object)
        ((s.setDispatcher (s.dispatcher.setSignal object 1)).goto c (.raised object))
  | wake {c : C} {object : O} {me : Nat} {r : Nat × Dispatcher n O}
      (hc : s.phase c = .raised object) (hrun : s.dispatcher.wake me object true = some r) :
      Step s (.wake c me) ((s.setDispatcher r.2).goto c .idle)
  | clear {object : O} : Step s (.clear object) (s.setDispatcher (s.dispatcher.setSignal object 0))
  | tick {me now : Nat} {d : Dispatcher n O} (hrun : s.dispatcher.tickWaitList me now = some d) :
      Step s (.tick me now) (s.setDispatcher d)
  | kernel {sched : State n} :
      Step s (.kernel sched) (s.setDispatcher { s.dispatcher with sched := sched })

open Step

lemma step_cases {op : Op n O C} (hs : step op s = some s') : Step s op s' := by
  cases op with simp only [step] at hs
  | waitSingle c object timeoutMs =>
    -- the signal is there, or there is no time to wait, or the wait begins
    split at hs
    · rename_i hc
      by_cases hsignal : (s.dispatcher.objects object).signalState = 0
      · rw [if_neg (not_not_intro hsignal)] at hs
        by_cases htm : timeoutMs = 0
        · rw [if_pos htm] at hs
          cases hs
          rw [htm]
          exact noTime hc hsignal
        rw [if_neg htm] at hs
        cases hs
        exact enter hc hsignal
      rw [if_pos hsignal] at hs
      cases hs
      exact signalled hc hsignal
    · cases hs
  | waitOn c object timeoutMs =>
    split at hs <;> cases hs
    exact waitOn ‹_›
  | park c now =>
    split at hs <;> cases hs
    exact park ‹_›
  | resume c current =>
    split at hs <;> cases hs
    exact resume ‹_›
  | collect c =>
    split at hs <;> cases hs
    exact collect ‹_›
  | raise c object =>
    split at hs <;> cases hs
    exact raise ‹_›
  | wake c me =>
    split at hs
    · obtain ⟨_, hrun, rfl⟩ := map_eq_some_iff.mp hs
      exact wake ‹_› hrun
    · cases hs
  | clear object =>
    cases hs
    exact clear
  | tick me now =>
    obtain ⟨_, hrun, rfl⟩ := map_eq_some_iff.mp hs
    exact tick hrun
  | kernel sched =>
    cases hs
    exact kernel

lemma step_inv {op : Op n O C} (h : Inv s) (hal : ParksInTime s op)
    (hs : step op s = some s') : Inv s' := by
  cases step_cases hs with
  | signalled hc | noTime hc | enter hc | waitOn hc | resume hc =>
    exact h.goto (by rw [hc]; nofun) rfl rfl
  | park hc =>
    obtain ⟨hsignal, hw⟩ := hal _ _ hc
    exact h.parkFor hc hsignal hw
  | collect hc => exact h.collectFor hc
  | @raise c object hc =>
    apply h.setSignal object 1 _ rfl
    · intro o hpn
      exact hpn.of_update (by rw [hc]; nofun) rfl
    · intro _
      exact ⟨c, update_self c _ s.phase⟩
  | wake hc hrun => exact h.wake hc hrun
  | @clear object => exact h.setSignal object 0 nofun rfl fun _ hpn => hpn
  | tick hrun =>
    obtain ⟨l, hl⟩ := h.consistent
    obtain ⟨hl', hob, hpk⟩ := tickWaitList_spec hl hrun
    exact ⟨hl', h.wakeups.of_subset hpk hob fun _ _ _ hpn => hpn⟩
  | kernel =>
    -- the wait list and its entries are not the scheduler's
    obtain ⟨l, hl⟩ := h.consistent
    exact ⟨⟨l, hl.congr rfl rfl fun _ => ⟨rfl, rfl⟩⟩,
      h.wakeups.of_subset (fun _ _ ht => ht) rfl fun _ _ _ hpn => hpn⟩

/-! ## Runs -/

/-- The dispatcher after `init`, with nobody in a call. -/
def System.initial (sched : State n) (objects : O → DispatcherHeader) : System n O C :=
  { dispatcher :=
      { sched := sched
        objects := objects
        entries := fun _ => WaitEntry.empty
        waitHead := DList.Head.new
        waitLinks := fun _ => ⟨none, none⟩ }
    phase := fun _ => .idle
    result := fun _ => none }

omit [DecidableEq O] [DecidableEq C] in
lemma initial_inv (sched : State n) (objects : O → DispatcherHeader) :
    Inv (System.initial sched objects : System n O C) := by
  refine ⟨⟨[], DList.Linked.nil _, nofun, nofun, nofun⟩, ?_⟩
  rintro t object ⟨i, hus, _⟩
  cases hus

/-- **No lost wakeup.** In a run in which every thread parks in time, no state has a thread parked
on an object with signal state 1 while every `wake` that followed a signal has returned. -/
theorem run_no_lost_wakeup {sched : State n} {objects : O → DispatcherHeader} {ops : List (Op n O C)}
    (hrun : Run step ParksInTime (System.initial sched objects) ops s) {t : Fin n} {object : O}
    (hparked : Parked s.dispatcher t object) (hreturned : ∀ c, s.phase c ≠ .raised object) :
    (s.dispatcher.objects object).signalState ≠ 1 := by
  intro hsignal
  have hi := hrun.keeps step_inv (initial_inv sched objects)
  obtain ⟨c, hc⟩ := hi.wakeups t object hparked hsignal
  exact hreturned c hc

/-- One CPU that runs thread 0, and an event that is not signalled. -/
def oneCpu (current : Fin 2) : State 2 :=
  booted 1 (fun _ => Kthread.new .running 8 (BitVec.allOnes 64) 0) fun _ => some current

def quietEvent : Unit → DispatcherHeader := fun _ => ⟨0, 0⟩

instance neZero_two : NeZero 2 := ⟨by decide⟩

/-- Three callers: two that wait and one that signals. -/
def quiet : System 2 Unit (Fin 3) := System.initial (oneCpu 0) quietEvent

/-- Two events that are not signalled; the caller `some b` waits for `b`, and `none` signals. -/
def twoEvents : System 2 Bool (Option Bool) := System.initial (oneCpu 0) fun _ => ⟨0, 0⟩

def firstParked : System 2 Bool (Option Bool) :=
  (twoEvents.goto (some true) (.entering true U32_MAX)).parkFor (some true) true U32_MAX 0

/-- Thread 0 waits for one event, thread 1 for the other. -/
def bothParked : System 2 Bool (Option Bool) :=
  ((firstParked.setDispatcher { firstParked.dispatcher with sched := oneCpu 1 }).goto (some false)
    (.entering false U32_MAX)).parkFor (some false) false U32_MAX 0

/-- The third caller has signalled the event of thread 1. -/
def oneRaised : System 2 Bool (Option Bool) :=
  (bothParked.setDispatcher (bothParked.dispatcher.setSignal false 1)).goto none (.raised false)

def raises : List (Op 2 Bool (Option Bool)) :=
  [.waitOn (some true) true U32_MAX, .park (some true) 0, .kernel (oneCpu 1),
    .waitOn (some false) false U32_MAX, .park (some false) 0, .raise none false]

lemma oneRaised_run {ops : List (Op 2 Bool (Option Bool))} {s : System 2 Bool (Option Bool)}
    (h : Run step ParksInTime oneRaised ops s) :
    Run step ParksInTime twoEvents (raises ++ ops) s := by
  have hfs : ParksInTime (twoEvents.goto (some true) (.entering true U32_MAX))
      (.park (some true) 0) := by
    intro object timeoutMs _
    refine ⟨.inl ?_, nofun⟩
    show (0 : UInt8) ≠ 1
    decide
  have hsn : ParksInTime ((firstParked.setDispatcher { firstParked.dispatcher with
      sched := oneCpu 1 }).goto (some false) (.entering false U32_MAX)) (.park (some false) 0) := by
    intro object timeoutMs _
    refine ⟨.inl ?_, ?_⟩
    · show (0 : UInt8) ≠ 1
      decide
    · decide +kernel
  exact .cons trivial rfl (.cons hfs rfl (.cons trivial rfl (.cons trivial rfl
    (.cons hsn rfl (.cons trivial rfl h)))))

lemma oneRaised_wakes : (step (.wake none 0) oneRaised).isSome := by decide +kernel

theorem run_no_lost_wakeup_other :
    ∃ s, Run step ParksInTime twoEvents (raises ++ [.wake none 0]) s
      ∧ (s.dispatcher.objects false).signalState = 1 ∧ Parked s.dispatcher 0 true
      ∧ (s.dispatcher.objects true).signalState ≠ 1 := by
  have hls : Run step ParksInTime oneRaised [.wake none 0] _ :=
    .cons trivial (Option.some_get oneRaised_wakes).symm (.nil _)
  have hrun := oneRaised_run hls
  have hpr : Parked ((step (.wake none 0) oneRaised).get oneRaised_wakes).dispatcher 0 true :=
    ⟨⟨0, by decide⟩, by decide +kernel, by decide +kernel, by decide +kernel⟩
  exact ⟨_, hrun, by decide +kernel, hpr, run_no_lost_wakeup hrun hpr
    (by rintro (_ | _ | _) <;> decide +kernel)⟩

/-- **`wake` returns**, in every state that is reached, and ends the waits for its object and no
others. -/
theorem run_wake_exact {sched : State n} {objects : O → DispatcherHeader} {ops : List (Op n O C)}
    (hrun : Run step ParksInTime (System.initial sched objects) ops s)
    (hhomed : Homed s.dispatcher.sched) (me : Nat) (object : O) :
    ∃ r, s.dispatcher.wake me object true = some r
      ∧ ∀ t o, Parked r.2 t o ↔ Parked s.dispatcher t o ∧ o ≠ object := by
  obtain ⟨l, hl⟩ := (hrun.keeps step_inv (initial_inv sched objects)).consistent
  obtain ⟨r, hr⟩ := wake_returns hl hhomed me object true
  refine ⟨r, hr, fun t o => ⟨(wake_spec hl hr).2.2 t o, ?_⟩⟩
  rintro ⟨⟨i, hus, hth, hob⟩, hne⟩
  have hs := sweep_keeps hr (i := i) (by simpa [hob] using hne)
  exact ⟨i, hs ▸ hus, hs ▸ hth, hs ▸ hob⟩

theorem run_wake_exact_first : Parked oneRaised.dispatcher 1 false
    ∧ ∃ r, oneRaised.dispatcher.wake 0 false true = some r
      ∧ ¬ Parked r.2 1 false ∧ Parked r.2 0 true := by
  obtain ⟨r, hr, hif⟩ := run_wake_exact (oneRaised_run (.nil _))
    (by unfold Homed; decide +kernel) 0 false
  refine ⟨⟨⟨1, by decide⟩, by decide +kernel, by decide +kernel, by decide +kernel⟩, r, hr, ?_, ?_⟩
  · exact fun h => ((hif 1 false).mp h).2 rfl
  · exact (hif 0 true).mpr ⟨⟨⟨0, by decide⟩, by decide +kernel, by decide +kernel,
      by decide +kernel⟩, by decide⟩

def observe (s : System 2 Unit (Fin 3)) : List (Option (Fin 2)) × UInt8 × List (Phase 2 Unit) :=
  (((List.finRange WAIT_LIST_TOTAL).filter fun i => (s.dispatcher.entries i).inUse).map
      fun i => (s.dispatcher.entries i).thread,
    (s.dispatcher.objects ()).signalState, (List.finRange 3).map s.phase)

theorem wait_loses_wakeup :
    (execute step [.waitSingle 0 () U32_MAX, .raise 2 (), .wake 2 0, .park 0 0] quiet).map observe
        = some ([some 0], 1, [.yielded (), .idle, .idle])
      ∧ (execute step [.waitSingle 0 () U32_MAX, .park 0 0, .kernel (oneCpu 1),
            .waitSingle 1 () U32_MAX, .park 1 0, .kernel (oneCpu 0), .resume 0 (some 0), .collect 0,
            .waitSingle 0 () U32_MAX, .park 0 0, .raise 2 (), .wake 2 0] quiet).map observe
        = some ([some 1, some 0], 1, [.yielded (), .yielded (), .idle]) := by
  constructor
  · decide +kernel
  · decide +kernel

end Nt61.Dispatch
