/-
Affinity — threads and the CPUs of their masks.

`add_ready` falls back to CPU 0, and the balancers move a thread to the least loaded CPU without a
look at its mask. `KeepsAffinity` says, operation by operation, when nothing of that happens, and a
run of such operations respects all masks (`run_affinity`).
-/
import Nt61.Ke.Scheduler.Steps

namespace Nt61.Scheduler

open BitVec

variable {n : Nat} {s s' : State n} {Q Q' : Queues n} {ok : Placement n → Prop}

/-! ## Masks -/

lemma allows_eq (mask : BitVec 64) (cpu : Nat) : allows mask cpu = mask.getLsbD cpu := by
  unfold allows
  cases hbt : mask.getLsbD cpu with
  | false =>
    have h0 : mask &&& (1#64 <<< cpu) = 0#64 := by
      apply eq_of_getLsbD_eq
      intro i hi
      rw [getLsbD_and, getLsbD_zero]
      by_cases heq : i = cpu
      · rw [heq, hbt, Bool.false_and]
      by_cases hlt : i < cpu
      · simp [hlt]
      · have hne : i - cpu ≠ 0 := by omega
        simp [hne]
    rw [h0]
    rfl
  | true =>
    have hlt : cpu < 64 := lt_of_getLsbD hbt
    have hst : (mask &&& (1#64 <<< cpu)).getLsbD cpu = true := by
      rw [getLsbD_and, hbt]
      simp [hlt]
    rw [bne_iff_ne]
    intro h0
    rw [h0, getLsbD_zero] at hst
    cases hst

/-- Some registered CPU is in the mask of the thread. -/
def HasCpu (s : State n) (t : Fin n) : Prop :=
  ∃ cpu, (s.prcb cpu).isSome = true ∧ (s.threads t).affinityMask.getLsbD cpu = true

def InMask (s : State n) (t : Fin n) (cpu : Nat) : Prop :=
  HasCpu s t → (s.threads t).affinityMask.getLsbD cpu = true

lemma SameMachine.inMask_iff (h : SameMachine s s') (t : Fin n) (cpu : Nat) :
    InMask s' t cpu ↔ InMask s t cpu := by
  unfold InMask HasCpu
  simp only [h.registered, h.affinityMask]

/-! ## Moves -/

structure Respects (s : State n) (Q : Queues n) : Prop where
  queued : ∀ {t cpu p}, t ∈ Q (cpu, p) → InMask s t cpu
  current : ∀ {t cpu}, s.current cpu = some t → InMask s t cpu

def PlacedInMask (s : State n) : Placement n → Prop
  | .queued t cpu => InMask s t cpu
  | .moved t cpu => InMask s t cpu
  | .dispatched t cpu => InMask s t cpu

lemma Respects.of_same (h : Respects s Q) (hs : SameMachine s s')
    (hm : ∀ {t k}, t ∈ Q' k → t ∈ Q k) (hcr : s'.current = s.current) : Respects s' Q' := by
  constructor
  · intro t cpu p ht
    rw [hs.inMask_iff]
    exact h.queued (hm ht)
  intro t cpu ht
  rw [hs.inMask_iff]
  rw [hcr] at ht
  exact h.current ht

lemma Respects.push (h : Respects s Q) (hs : SameMachine s s') {cpu : Nat} {p : Level}
    {t : Fin n} (ht : InMask s t cpu) (hcr : s'.current = s.current) :
    Respects s' (Q.push cpu p t) := by
  constructor
  · intro u c q hu
    rw [hs.inMask_iff]
    rcases Queues.mem_push.mp hu with hold | ⟨rfl, hk⟩
    · exact h.queued hold
    · cases hk
      exact ht
  intro u c hu
  rw [hs.inMask_iff]
  rw [hcr] at hu
  exact h.current hu

lemma Respects.move (hok : ∀ place, ok place → PlacedInMask s place)
    (h : Move ok (s, Q) (s', Q')) (hrs : Respects s Q) : Respects s' Q' := by
  have hs := h.sameMachine
  cases h with
  | @link _ _ cpu _ p t _ _ _ hpl => exact hrs.push hs (hok _ hpl) (link_current s cpu p t)
  | @requeue _ _ cpu _ p t _ _ hpl => exact hrs.push hs (hok _ hpl) (link_current s cpu p t)
  | @steal _ _ cpu _ p t _ _ _ hpl =>
    exact hrs.push hs (hok _ hpl) (enqueue_frame s cpu p t).current
  | @drop _ _ cpu p t _ =>
    exact hrs.of_same hs Queues.mem_of_mem_drop (dequeue_frame s cpu p t).current
  | @take _ _ cpu p t l hk =>
    exact hrs.of_same hs (Queues.mem_of_mem_take hk) (takeHead_frame s cpu p).current
  | edit t f _ _ _ => exact hrs.of_same hs (fun h => h) rfl
  | mark t state _ => exact hrs.of_same hs (fun h => h) rfl
  | @dispatch _ _ cpu _ t hg _ hpl =>
    constructor
    · intro u c q hu
      rw [hs.inMask_iff]
      exact hrs.queued hu
    intro u c hu
    rw [hs.inMask_iff]
    rw [setCurrent_current hg] at hu
    by_cases hc : c = cpu
    · subst hc
      rw [Function.update_self] at hu
      cases hu
      exact hok _ hpl
    · rw [Function.update_of_ne hc] at hu
      exact hrs.current hu
  | postpone _ _ cpu => exact hrs.of_same hs (fun h => h) (requestReschedule_same s cpu).2

/-! ## Operations -/

/-- `add_ready` finds a CPU of the mask: the home CPU, registered and in the mask, or CPU 0. -/
def AddsInMask (s : State n) (t : Fin n) : Prop :=
  HasCpu s t → (s.smpInitialized = true ∧ (s.prcb (s.threads t).homeCpu.toNat).isSome = true
        ∧ (s.threads t).affinityMask.getLsbD (s.threads t).homeCpu.toNat = true)
      ∨ (s.threads t).affinityMask.getLsbD 0 = true

def KeepsAffinity (s : State n) : Op n → Prop
  | .addReady _ t _ => AddsInMask s t
  | .setPriority _ t _ => AddsInMask s t
  | .schedule cpu _ => s.smpInitialized = true ∨ cpu = 0
  | .kiBalanceProcessor _ _ => ∀ m, s.findMigration = some (some m) → InMask s m.thread m.minCpu
  | .balanceLoad _ => ∀ m, s.findMigration = some (some m) → InMask s m.thread m.minCpu
  | .removeReady _ _ => True
  | .mark _ _ => True

lemma AddsInMask.landing {t : Fin n} {cpu : Nat} (h : AddsInMask s t) (h0 : s.currentCpu = 0)
    (hld : Landing s t cpu) : InMask s t cpu := by
  intro hhs
  obtain ⟨_, htg, hcs⟩ := hld
  unfold State.targetCpu at htg
  by_cases hho : (s.threads t).homeCpu.toNat < 64
  · rw [if_pos hho, allows_eq, h0] at htg
    rcases h hhs with ⟨hsm, hg, hbt⟩ | hbt
    · -- the home CPU is fine, and the thread goes there
      rw [if_pos hbt] at htg
      cases htg
      rcases hcs with ⟨rfl, _⟩ | ⟨_, hnt⟩
      · exact hbt
      · exact absurd ⟨hsm, hg⟩ hnt
    -- CPU 0 is fine; the thread goes there or to its home CPU
    by_cases hin : (s.threads t).affinityMask.getLsbD (s.threads t).homeCpu.toNat = true
    · rw [if_pos hin] at htg
      cases htg
      rcases hcs with ⟨rfl, _⟩ | ⟨rfl, _⟩
      · exact hin
      · exact hbt
    rw [if_neg hin] at htg
    cases htg
    rcases hcs with ⟨rfl, _⟩ | ⟨rfl, _⟩
    · exact hbt
    · exact hbt
  · rw [if_neg hho] at htg
    cases htg

lemma KeepsAffinity.placed {op : Op n} (h : KeepsAffinity s op) (h0 : s.currentCpu = 0)
    (hrs : Respects s Q) (place : Placement n) (hpl : Explained s Q op place) :
    PlacedInMask s place := by
  cases op with
  | addReady me t priority | setPriority me t priority =>
    cases place with
    | queued u cpu =>
      obtain ⟨rfl, hld⟩ := hpl
      exact AddsInMask.landing h h0 hld
    | moved | dispatched => exact hpl.elim
  | schedule cpu irql =>
    cases place with
    | queued u c =>
      obtain ⟨rfl, hcr⟩ := hpl
      exact hrs.current hcr
    | moved u c => exact hpl.elim
    | dispatched u c =>
      obtain ⟨rfl, hlt, _, hmm⟩ := hpl
      have hsr : s.sourceCpu c = c := by
        unfold State.sourceCpu
        rcases h with hsm | rfl
        · rw [hsm, decide_eq_true hlt]
          rfl
        · exact ite_self 0
      rw [hsr] at hmm
      exact hrs.queued hmm
  | kiBalanceProcessor me targetCpu =>
    cases place with
    | moved u c =>
      obtain ⟨m, hm, rfl, rfl⟩ := hpl
      exact h m hm
    | queued | dispatched => exact hpl.elim
  | balanceLoad me =>
    cases place with
    | queued u c =>
      obtain ⟨m, hm, rfl, rfl⟩ := hpl
      exact h m hm
    | moved | dispatched => exact hpl.elim
  | removeReady me t => exact hpl.elim
  | mark t state => exact hpl.elim

lemma KeepsAffinity.step {op : Op n} (h : KeepsAffinity s op) (h0 : s.currentCpu = 0)
    (hi : Inv s Q) (hrs : Respects s Q) (hmv : Moved (Explained s Q op) s Q s') :
    ∃ Q', Inv s' Q' ∧ s'.currentCpu = 0 ∧ Respects s' Q' := by
  have hpc := h.placed h0 hrs
  obtain ⟨Q', hi', hs, hrs'⟩ := hmv.keeps (J := fun s1 Q1 => SameMachine s s1 ∧ Respects s1 Q1)
    (fun _ hm hJ => by
      refine ⟨hJ.1.trans hm.sameMachine, hJ.2.move ?_ hm⟩
      intro place hpl
      have hin := hpc place hpl
      cases place <;> exact (hJ.1.inMask_iff _ _).mpr hin)
    hi ⟨SameMachine.refl s, hrs⟩
  exact ⟨Q', hi', hs.currentCpu.trans h0, hrs'⟩

/-! ## Runs -/

/-- **Affinity.** In a run of operations that meet `KeepsAffinity`, from a state whose current
threads respect their masks, every thread with a registered CPU in its mask is queued and current on
CPUs of its mask only. -/
theorem run_affinity {s₀ : State n} {ops : List (Op n)} (hinit : Initial s₀) (hzero : s₀.currentCpu = 0)
    (hcurrent : ∀ cpu t, s₀.current cpu = some t → InMask s₀ t cpu)
    (hrun : Run (fun s op => Valid s op ∧ KeepsAffinity s op) s₀ ops s) :
    Ready s s.queues ∧ Respects s s.queues := by
  have hs0 : Respects s₀ fun _ => [] :=
    ⟨fun ht => absurd ht List.not_mem_nil, fun ht => hcurrent _ _ ht⟩
  obtain ⟨Q, hi, _, hrs⟩ := hrun.keeps (J := fun s Q => s.currentCpu = 0 ∧ Respects s Q)
    (fun _ _ h => h.1) (fun hi hal hJ hmv => hal.2.step hJ.1 hi hJ.2 hmv)
    hinit.inv ⟨hzero, hs0⟩
  rw [hi.ready.queues_eq]
  exact ⟨hi.ready, hrs⟩

def threeCpus : State 3 := booted 3 (fun _ => Kthread.new .ready 8 6 1) fun _ => none

/-- Two CPUs, and three threads that may run on both. -/
def pairCpus : State 3 := booted 2 (fun _ => Kthread.new .ready 8 3 0) fun _ => none

/-- Thread 0 is moved to CPU 1, and CPU 0 takes thread 1. -/
theorem run_affinity_balanced : ∃ s, Run (fun s op => Valid s op ∧ KeepsAffinity s op) pairCpus
      [.addReady 0 0 8, .addReady 0 1 8, .addReady 0 2 8, .balanceLoad 0, .schedule 0 0] s
    ∧ s.current 0 = some 1 ∧ s.readyQueue 0 8 = some [2] ∧ s.readyQueue 1 8 = some [0]
    ∧ Respects s s.queues := by
  have hcr : ∀ cpu t, pairCpus.current cpu = some t → InMask pairCpus t cpu := by
    intro cpu t ht
    cases booted_current ht
  have hr : Run (fun s op => Valid s op ∧ KeepsAffinity s op) pairCpus
      [.addReady 0 0 8, .addReady 0 1 8, .addReady 0 2 8, .balanceLoad 0, .schedule 0 0] _ :=
    .cons ⟨⟨by decide +kernel, nofun⟩, fun _ => .inr rfl⟩ rfl
      (.cons ⟨⟨by decide +kernel, nofun⟩, fun _ => .inr rfl⟩ rfl
        (.cons ⟨⟨by decide +kernel, nofun⟩, fun _ => .inr rfl⟩ rfl (.cons ⟨trivial, fun m hm _ => by
            have hmp := congrArg (Option.map (Option.map State.Migration.minCpu)) hm
            have hmn : some (some m.minCpu) = some (some 1) := hmp.symm.trans (by decide +kernel)
            rw [Option.some.inj (Option.some.inj hmn)]
            generalize m.thread = t
            revert t
            decide +kernel⟩ rfl (.cons ⟨trivial, .inl rfl⟩ rfl (.nil _)))))
  exact ⟨_, hr, by decide +kernel, by decide +kernel, by decide +kernel,
    (run_affinity (booted_initial 2 _ _) rfl hcr hr).2⟩

/-- `balance_load` moves a thread to CPU 0, which is not in its mask. -/
theorem balanceLoad_leaves_mask :
    (exec [.addReady 0 0 8, .addReady 0 1 8, .addReady 0 2 8, .balanceLoad 0] threeCpus).map
        (fun s => (s.readyQueue 0 8, (s.threads 0).affinityMask.getLsbD 0,
          (s.threads 0).affinityMask.getLsbD 1, (s.prcb 1).isSome))
      = some (some [0], false, true, true) := by
  decide +kernel

end Nt61.Scheduler
