/-
Moves — the elementary changes of threads and queues.

A move changes one thread or one queue. It keeps the CPUs and the masks and the invariant
(`Inv.move`): the pointers hold lists, and no CPU is running a queued thread.
-/
import Nt61.Ke.Scheduler.ReadyQueues

namespace Nt61.Scheduler

open Function

variable {n : Nat}

/-! ## Moves -/

def Parked (s : State n) (t : Fin n) : Prop :=
  (s.threads t).state = .running → ∀ cpu, s.current cpu ≠ some t

/-- The pointers hold the lists `Q`, and no CPU is running a queued thread. -/
structure Inv (s : State n) (Q : Queues n) : Prop where
  ready : Ready s Q
  parked : ∀ {t k}, t ∈ Q k → Parked s t

inductive Placement (n : Nat) where
  /-- It is queued there, and that is recorded. -/
  | queued (t : Fin n) (cpu : Nat)
  /-- It is queued there, and the old record stays. -/
  | moved (t : Fin n) (cpu : Nat)
  /-- It is made the current thread. -/
  | dispatched (t : Fin n) (cpu : Nat)

/-- One change, in which threads are placed as `ok` allows. -/
inductive Move (ok : Placement n → Prop) : State n × Queues n → State n × Queues n → Prop where
  | link {s Q cpu prcb} (p : Level) {t : Fin n} (hreg : s.prcb cpu = some prcb) (hfresh : Q.Fresh t)
      (hparked : Parked s t) (hok : ok (.queued t cpu)) :
      Move ok (s, Q) (s.link cpu p t, Q.push cpu p t)
  | requeue {s Q cpu prcb} (p : Level) {t : Fin n} (hreg : s.prcb cpu = some prcb)
      (hfresh : Q.Fresh t) (hok : ok (.queued t cpu)) :
      Move ok (s, Q) ((s.link cpu p t).setState t .ready, Q.push cpu p t)
  | steal {s Q cpu prcb} (p : Level) {t : Fin n} (hreg : s.prcb cpu = some prcb) (hfresh : Q.Fresh t)
      (hparked : Parked s t) (hok : ok (.moved t cpu)) :
      Move ok (s, Q) (s.enqueue cpu p t, Q.push cpu p t)
  | drop {s : State n} {Q : Queues n} {cpu p t} (ht : t ∈ Q (cpu, p)) :
      Move ok (s, Q) (s.dequeue cpu p t, Q.drop cpu p t)
  | take {s : State n} {Q : Queues n} {cpu p t l} (hk : Q (cpu, p) = t :: l) :
      Move ok (s, Q) ((s.takeHead cpu p).2, Function.update Q (cpu, p) l)
  | edit {s : State n} {Q : Queues n} (t : Fin n) (f : Kthread → Kthread)
      (hstate : (f (s.threads t)).state = (s.threads t).state)
      (hmask : (f (s.threads t)).affinityMask = (s.threads t).affinityMask)
      (hlocation : Q.Fresh t ∨ ((f (s.threads t)).queuedCpu = (s.threads t).queuedCpu
        ∧ (f (s.threads t)).queuedPriority = (s.threads t).queuedPriority)) :
      Move ok (s, Q) (s.modifyThread t f, Q)
  | mark {s : State n} {Q : Queues n} (t : Fin n) (state : KThreadState)
      (hstate : state ≠ .running ∨ Q.Fresh t) :
      Move ok (s, Q) (s.setState t state, Q)
  | dispatch {s Q cpu prcb} {t : Fin n} (hreg : s.prcb cpu = some prcb) (hfresh : Q.Fresh t)
      (hok : ok (.dispatched t cpu)) : Move ok (s, Q) (s.setCurrent cpu t, Q)
  | postpone (s : State n) (Q : Queues n) (cpu : Nat) : Move ok (s, Q) (s.requestReschedule cpu, Q)

/-! ## Threads and CPUs under a move -/

variable {s s' : State n} {Q Q' : Queues n} {ok : Placement n → Prop}

structure SameMachine (s s' : State n) : Prop where
  registered : ∀ cpu, (s'.prcb cpu).isSome = (s.prcb cpu).isSome
  smpInitialized : s'.smpInitialized = s.smpInitialized
  currentCpu : s'.currentCpu = s.currentCpu
  affinityMask : ∀ t, (s'.threads t).affinityMask = (s.threads t).affinityMask

lemma Frame.sameMachine (h : Frame s s') : SameMachine s s' :=
  ⟨h.registered, h.smpInitialized, h.currentCpu, fun t => by rw [h.threads]⟩

lemma SameMachine.refl (s : State n) : SameMachine s s := ⟨fun _ => rfl, rfl, rfl, fun _ => rfl⟩

lemma SameMachine.trans {s'' : State n} (h : SameMachine s s') (h' : SameMachine s' s'') :
    SameMachine s s'' :=
  ⟨fun cpu => (h'.registered cpu).trans (h.registered cpu), h'.smpInitialized.trans h.smpInitialized,
    h'.currentCpu.trans h.currentCpu, fun t => (h'.affinityMask t).trans (h.affinityMask t)⟩

variable {cpu : Nat}

lemma SameMachine.registered_of (h : SameMachine s s')
    (hreg : ∃ prcb, s.prcb cpu = some prcb) : ∃ prcb, s'.prcb cpu = some prcb := by
  rw [← Option.isSome_iff_exists] at hreg ⊢
  rw [h.registered, hreg]

variable {t : Fin n}

lemma modifyThread_sameMachine {f : Kthread → Kthread}
    (h : (f (s.threads t)).affinityMask = (s.threads t).affinityMask) :
    SameMachine s (s.modifyThread t f) :=
  ⟨fun _ => rfl, rfl, rfl, modifyThread_field Kthread.affinityMask h⟩

lemma setState_sameMachine (s : State n) (t : Fin n) (state : KThreadState) :
    SameMachine s (s.setState t state) := by
  exact modifyThread_sameMachine rfl

lemma link_sameMachine (s : State n) (cpu : Nat) (p : Level) (t : Fin n) :
    SameMachine s (s.link cpu p t) := by
  unfold State.link
  exact (enqueue_frame s cpu p t).sameMachine.trans (modifyThread_sameMachine rfl)

lemma setCurrent_sameMachine {prcb : Prcb n} (hreg : s.prcb cpu = some prcb)
    (t : Fin n) : SameMachine s (s.setCurrent cpu t) := by
  constructor
  case registered =>
    intro c
    rw [setCurrent_prcb hreg]
    by_cases hc : c = cpu
    · subst hc
      rw [if_pos rfl, hreg]
      rfl
    · rw [if_neg hc]
  case affinityMask =>
    intro u
    rw [setCurrent_threads]
  all_goals
    unfold State.setCurrent
    rw [hreg]
    rfl

lemma requestReschedule_sameMachine (s : State n) (cpu : Nat) :
    SameMachine s (s.requestReschedule cpu) := by
  unfold State.requestReschedule
  split
  · exact ⟨fun _ => rfl, rfl, rfl, fun _ => rfl⟩
  · exact SameMachine.refl s

lemma Move.sameMachine (h : Move ok (s, Q) (s', Q')) : SameMachine s s' := by
  cases h with
  | link p _ _ _ _ => exact link_sameMachine _ _ _ _
  | requeue p _ _ _ => exact (link_sameMachine _ _ _ _).trans (setState_sameMachine _ _ _)
  | steal p _ _ _ _ => exact (enqueue_frame _ _ _ _).sameMachine
  | drop _ => exact (dequeue_frame _ _ _ _).sameMachine
  | take _ => exact (takeHead_frame _ _ _).sameMachine
  | edit t f _ hmask _ => exact modifyThread_sameMachine hmask
  | mark t state _ => exact setState_sameMachine _ _ _
  | dispatch hreg _ _ => exact setCurrent_sameMachine hreg _
  | postpone _ _ cpu => exact requestReschedule_sameMachine _ cpu

/-! ## Moves keep the invariant -/

variable {p : Level}

lemma Queues.mem_of_mem_take {t u : Fin n} {l : List (Fin n)}
    {k : Nat × Level} (hk : Q (cpu, p) = t :: l) (h : u ∈ Function.update Q (cpu, p) l k) :
    u ∈ Q k := by
  by_cases heq : k = (cpu, p)
  · subst heq
    rw [update_self] at h
    rw [hk]
    exact List.mem_cons_of_mem _ h
  · rwa [update_of_ne heq] at h

open Queues

lemma Ready.fresh_drop (h : Ready s Q) (ht : t ∈ Q (cpu, p)) : (Q.drop cpu p t).Fresh t := by
  intro k hm
  obtain rfl : k = (cpu, p) := h.queues.apart (mem_of_mem_drop hm) ht
  unfold drop at hm
  rw [update_self] at hm
  exact (h.queues.linked (cpu, p)).nodup.not_mem_erase hm

lemma Ready.fresh_take (h : Ready s Q) {l : List (Fin n)}
    (hk : Q (cpu, p) = t :: l) : Queues.Fresh (Function.update Q (cpu, p) l) t := by
  intro k hm
  have ht : t ∈ Q (cpu, p) := by rw [hk]; exact List.mem_cons_self
  obtain rfl : k = (cpu, p) := h.queues.apart (mem_of_mem_take hk hm) ht
  rw [update_self] at hm
  have hnd := (h.queues.linked (cpu, p)).nodup
  rw [hk] at hnd
  exact (List.nodup_cons.mp hnd).1 hm

lemma Ready.link (h : Ready s Q) {prcb : Prcb n} (hreg : s.prcb cpu = some prcb)
    (p : Level) (hfresh : Q.Fresh t) : Ready (s.link cpu p t) (Q.push cpu p t) := by
  unfold State.link
  exact (h.enqueue hreg p hfresh).modifyThread t _

lemma link_current (s : State n) (cpu : Nat) (p : Level) (t : Fin n) :
    (s.link cpu p t).current = s.current :=
  (enqueue_frame s cpu p t).current

lemma link_state (s : State n) (cpu : Nat) (p : Level) (t u : Fin n) :
    ((s.link cpu p t).threads u).state = (s.threads u).state := by
  unfold State.link State.setLocation
  rw [modifyThread_field Kthread.state rfl, (enqueue_frame s cpu p t).threads]

lemma Parked.of_same (h : Parked s t)
    (hstate : (s'.threads t).state = (s.threads t).state) (hcr : s'.current = s.current) :
    Parked s' t := by
  unfold Parked
  rw [hstate, hcr]
  exact h

lemma Inv.move (h : Move ok (s, Q) (s', Q')) (hi : Inv s Q) : Inv s' Q' := by
  obtain ⟨hrd, hparked⟩ := hi
  cases h with
  | @link _ _ cpu _ p t hreg hfresh ht _ =>
    refine ⟨hrd.link hreg p hfresh, ?_⟩
    intro u k hu
    apply Parked.of_same _ (link_state s cpu p t u) (link_current s cpu p t)
    rcases mem_push.mp hu with hu | ⟨rfl, _⟩
    · exact hparked hu
    · exact ht
  | @requeue _ _ cpu _ p t hreg hfresh _ =>
    refine ⟨(hrd.link hreg p hfresh).setState t _, ?_⟩
    intro u k hu
    by_cases hut : u = t
    · -- the thread itself is `Ready` now
      subst hut
      intro hr
      rw [setState_self] at hr
      cases hr
    have hold : u ∈ Q k := (mem_push.mp hu).resolve_right fun h => hut h.1
    apply (hparked hold).of_same
    · rw [setState_of_ne hut, link_state]
    · exact link_current s cpu p t
  | @steal _ _ cpu _ p t hreg hfresh ht _ =>
    refine ⟨hrd.enqueue hreg p hfresh, ?_⟩
    intro u k hu
    have hfr := enqueue_frame s cpu p t
    apply Parked.of_same _ (by rw [hfr.threads]) hfr.current
    rcases mem_push.mp hu with hu | ⟨rfl, _⟩
    · exact hparked hu
    · exact ht
  | @drop _ _ cpu p t ht =>
    refine ⟨hrd.dequeue ht, ?_⟩
    intro u k hu
    have hfr := dequeue_frame s cpu p t
    exact (hparked (mem_of_mem_drop hu)).of_same (by rw [hfr.threads]) hfr.current
  | @take _ _ cpu p t l hk =>
    obtain ⟨_, hr, hrd'⟩ := hrd.takeHead hk
    have hfr := takeHead_frame s cpu p
    rw [hr] at hfr ⊢
    refine ⟨hrd', ?_⟩
    intro u k hu
    exact (hparked (mem_of_mem_take hk hu)).of_same (by rw [hfr.threads]) hfr.current
  | edit t f hstate _ _ =>
    refine ⟨hrd.modifyThread t f, ?_⟩
    intro u k hu
    exact (hparked hu).of_same (modifyThread_field Kthread.state hstate u) rfl
  | mark t state hstate =>
    refine ⟨hrd.setState t state, ?_⟩
    intro u k hu
    by_cases hut : u = t
    · subst hut
      intro hr
      rw [setState_self] at hr
      rcases hstate with hstate | hfresh
      · exact absurd hr hstate
      · exact absurd hu (hfresh k)
    · exact (hparked hu).of_same (by rw [setState_of_ne hut]) rfl
  | @dispatch _ _ cpu _ t hreg hfresh _ =>
    refine ⟨hrd.setCurrent cpu t, ?_⟩
    intro u k hu hr c hc
    rw [setCurrent_threads] at hr
    rw [setCurrent_current hreg] at hc
    by_cases hcp : c = cpu
    · rw [hcp, update_self] at hc
      exact hfresh k (Option.some.inj hc ▸ hu)
    · rw [update_of_ne hcp] at hc
      exact hparked hu hr c hc
  | postpone _ _ cpu =>
    refine ⟨hrd.requestReschedule cpu, ?_⟩
    intro u k hu
    obtain ⟨hth, hcr⟩ := requestReschedule_same s cpu
    exact (hparked hu).of_same (by rw [hth]) hcr

end Nt61.Scheduler
