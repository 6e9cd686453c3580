/-
Priority — what `schedule` promises and what it does.

The queues are served in order and no thread gets lost in every case (`strict_taken`). The rest
depends on the state before: `schedule` takes the top of the queues without a look at the current
thread, keeps a blocked current thread if nothing is queued, and does nothing on the CPUs from 32
on, which have no dispatcher lock.
-/
import Nt61.Ke.Scheduler.Steps

namespace Nt61.Scheduler

open Function List

variable {n : Nat} {s s' : State n} {Q Q' : Queues n}

/-! ## Strict priority -/

def KThreadState.runnable : KThreadState → Bool
  | .ready => true
  | .running => true
  | .standby => true
  | _ => false

/-- The level a thread competes at: that of its queue, or of its priority if it is on none. -/
def HasLevel (s : State n) (t : Fin n) (p : Level) : Prop :=
  (∃ cpu, t ∈ s.queues (cpu, p)) ∨ (s.queues.Fresh t ∧ p = clampPriority (s.threads t).priority)

/-- What a call that leads from `s` to `s'` should have done for the CPU. -/
structure StrictPriority (s : State n) (cpu : Nat) (s' : State n) : Prop where
  /-- The current thread is runnable, and nothing of a higher level is queued. -/
  current : ∃ t p, s'.current cpu = some t ∧ (s'.threads t).state.runnable = true
    ∧ HasLevel s t p ∧ ∀ q, s'.queues (cpu, q) ≠ [] → q ≤ p
  /-- A queue loses at most its first thread, to the CPU, and gains at its end. -/
  inOrder : ∀ q, s.queues (cpu, q) <+: s'.queues (cpu, q)
    ∨ ∃ t l, s.queues (cpu, q) = t :: l ∧ s'.current cpu = some t ∧ l <+: s'.queues (cpu, q)
  /-- No thread is lost. -/
  kept : ∀ t, ((s.current cpu = some t ∧ (s.threads t).state = .running)
      ∨ ∃ q, t ∈ s.queues (cpu, q)) →
    s'.current cpu = some t ∨ ∃! q, t ∈ s'.queues (cpu, q)

variable {cpu : Nat} {t : Fin n}

lemma Ready.existsUnique (h : Ready s Q) {q : Level}
    (ht : t ∈ Q (cpu, q)) : ∃! q, t ∈ Q (cpu, q) := by
  refine ⟨q, ht, ?_⟩
  intro q' ht'
  exact congrArg Prod.snd (h.queues.apart ht' ht)

lemma strict_stay (h : Ready s Q) (cpu : Nat) : StrictPriority s cpu s
      ↔ ∃ t p, s.current cpu = some t ∧ (s.threads t).state.runnable = true
          ∧ HasLevel s t p ∧ ∀ q, s.queues (cpu, q) ≠ [] → q ≤ p := by
  constructor
  · intro hst
    exact hst.current
  intro hcn
  refine ⟨hcn, fun q => .inl (prefix_refl _), ?_⟩
  intro t ht
  rcases ht with ⟨hcr, _⟩ | ⟨q, hm⟩
  · exact .inl hcr
  · rw [h.queues_eq] at hm ⊢
    exact .inr (h.existsUnique hm)

/-- If the top thread is taken and `extra` is appended to the queues of the CPU, order and safe
keeping are certain, and what is left is about levels. -/
lemma strict_taken (h : Ready s Q) (h' : Ready s' Q') {cpu source : Nat} {p : Level}
    {l : List (Fin n)} (htp : Top Q source p t l) (hcn : s'.current cpu = some t)
    {extra : Level → List (Fin n)}
    (haf : ∀ q, Q' (cpu, q) = Function.update Q (source, p) l (cpu, q) ++ extra q)
    (hrq : ∀ u, s.current cpu = some u → (s.threads u).state = .running →
      u = t ∨ ∃ q, u ∈ extra q) : StrictPriority s cpu s'
      ↔ (s'.threads t).state.runnable = true ∧ (∀ q, Q (cpu, q) ≠ [] → q ≤ p)
          ∧ ∀ q, extra q ≠ [] → q ≤ p := by
  have hm : t ∈ Q (source, p) := by rw [htp.queue]; exact mem_cons_self
  -- a queue that is still there, or the one that has lost `t`
  have hqu : ∀ q, Function.update Q (source, p) l (cpu, q) = Q (cpu, q)
      ∨ (Q (cpu, q) = t :: l ∧ q = p ∧ Function.update Q (source, p) l (cpu, q) = l) := by
    intro q
    by_cases hk : (cpu, q) = (source, p)
    · right
      refine ⟨by rw [hk, htp.queue], congrArg Prod.snd hk, by rw [hk, update_self]⟩
    · left
      rw [update_of_ne hk]
  have hlv : ∀ p', HasLevel s t p' ↔ p' = p := by
    intro p'
    unfold HasLevel
    rw [h.queues_eq]
    constructor
    · rintro (⟨_, hc⟩ | ⟨hfr, _⟩)
      · exact congrArg Prod.snd (h.queues.apart hc hm)
      · exact absurd hm (hfr _)
    · rintro rfl
      exact .inl ⟨source, hm⟩
  constructor
  · intro hst
    obtain ⟨u, p', hu, hrb, hp', hhg⟩ := hst.current
    rw [hcn] at hu
    cases hu
    rw [(hlv p').mp hp', h'.queues_eq] at hhg
    refine ⟨hrb, ?_, ?_⟩
    · intro q hq
      rcases hqu q with hs | ⟨_, rfl, _⟩
      · apply hhg q
        rw [haf, hs]
        exact append_ne_nil_of_left_ne_nil hq _
      · exact le_refl q
    intro q hq
    apply hhg q
    rw [haf]
    exact append_ne_nil_of_right_ne_nil _ hq
  rintro ⟨hrb, hhi, hxt⟩
  refine ⟨⟨t, p, hcn, hrb, (hlv p).mpr rfl, ?_⟩, ?_, ?_⟩
  · intro q hq
    rw [h'.queues_eq, haf] at hq
    by_cases hq' : extra q = []
    · rw [hq', append_nil] at hq
      rcases hqu q with hs | ⟨_, rfl, _⟩
      · exact hhi q (hs ▸ hq)
      · exact le_refl q
    · exact hxt q hq'
  · intro q
    rw [h.queues_eq, h'.queues_eq, haf]
    rcases hqu q with hs | ⟨hta, _, hrs⟩
    · rw [hs]
      exact .inl (prefix_append _ _)
    · rw [hrs]
      exact .inr ⟨t, l, hta, hcn, prefix_append _ _⟩
  intro u hu
  rw [hcn, h'.queues_eq]
  by_cases hut : u = t
  · exact .inl (by rw [hut])
  right
  obtain ⟨q, hq⟩ : ∃ q, u ∈ Q' (cpu, q) := by
    rcases hu with ⟨hcr, hr⟩ | ⟨q, hq⟩
    · obtain ⟨q, hq⟩ := (hrq u hcr hr).resolve_left hut
      exact ⟨q, by rw [haf]; exact mem_append_right _ hq⟩
    refine ⟨q, ?_⟩
    rw [h.queues_eq] at hq
    rw [haf]
    apply mem_append_left
    rcases hqu q with hs | ⟨hta, _, hrs⟩
    · rw [hs]
      exact hq
    rw [hta] at hq
    rw [hrs]
    exact (mem_cons.mp hq).resolve_left hut
  exact h'.existsUnique hq

/-! ## `schedule` -/

lemma lockPrcb_eq (cpu : Nat) : lockPrcb cpu cpu = decide (cpu < MAX_PERCPU_LOCKS) := by
  unfold lockPrcb currentLockOwner
  by_cases hlt : cpu < MAX_PERCPU_LOCKS
  · have how : cpu < 255 := lt_trans hlt (by decide)
    simp [hlt, how]
  · simp [hlt]

lemma incoming (h : Ready s Q) (hg : ∃ prcb, s.prcb cpu = some prcb) (t : Fin n) :
    Ready ((s.setCurrent cpu t).setState t .running) Q
      ∧ ((s.setCurrent cpu t).setState t .running).current cpu = some t
      ∧ (((s.setCurrent cpu t).setState t .running).threads t).state.runnable = true := by
  obtain ⟨prcb, hg⟩ := hg
  refine ⟨(h.setCurrent cpu t).setState t .running, ?_, ?_⟩
  · show (s.setCurrent cpu t).current cpu = some t
    rw [setCurrent_current hg, update_self]
  · rw [setState_self]
    rfl

lemma requeue_running {cur : Fin n} (hg : ∃ prcb, s.prcb cpu = some prcb)
    (hlo : lockPrcb cpu cpu = true) (hr : (s.threads cur).state = .running) :
    s.requeue cpu cur
      = (s.link cpu (clampPriority (s.threads cur).priority) cur).setState cur .ready := by
  have hq := lockReadyQueue_of_lockPrcb hlo (lt_of_lockPrcb hlo)
    (clampPriority (s.threads cur).priority)
  have hso : (s.prcb cpu).isSome = true := Option.isSome_iff_exists.mpr hg
  unfold State.requeue
  simp [hr, hso, hq]

lemma requeue_stopped {cur : Fin n} (hst : (s.threads cur).state ≠ .running) :
    s.requeue cpu cur = s := by
  unfold State.requeue
  simp [hst]

/-- What a switch appends to the queues of the CPU: the outgoing thread, if it is still running. -/
def outgoing (s : State n) (cpu : Nat) (q : Level) : List (Fin n) :=
  match s.current cpu with
  | none => []
  | some cur =>
    if (s.threads cur).state = .running ∧ q = clampPriority (s.threads cur).priority then [cur] else []

lemma switchTo_ready {s1 : State n} {Q1 : Queues n} (h : Ready s1 Q1)
    (hfr : Frame s s1) (hg : ∃ prcb, s1.prcb cpu = some prcb) (hlo : lockPrcb cpu cpu = true)
    (hf : ∀ cur, s.current cpu = some cur → (s.threads cur).state = .running → Q1.Fresh cur) :
    ∃ Q', Ready (s1.switchTo cpu (s.current cpu) t) Q'
      ∧ (s1.switchTo cpu (s.current cpu) t).current cpu = some t
      ∧ ((s1.switchTo cpu (s.current cpu) t).threads t).state.runnable = true
      ∧ ∀ q, Q' (cpu, q) = Q1 (cpu, q) ++ outgoing s cpu q := by
  unfold State.switchTo outgoing
  cases hcr : s.current cpu with
  | none =>
    obtain ⟨hrd, hcn, hrb⟩ := incoming h hg t
    exact ⟨Q1, hrd, hcn, hrb, fun q => by simp⟩
  | some cur =>
    dsimp only
    by_cases hr : (s.threads cur).state = .running
    · have hrunning1 : (s1.threads cur).state = .running := by rw [hfr.threads]; exact hr
      obtain ⟨prcb, hpr⟩ := hg
      have hlk := (h.link hpr (clampPriority (s1.threads cur).priority)
        (hf cur hcr hr)).setState cur .ready
      have hs := (link_sameMachine s1 cpu (clampPriority (s1.threads cur).priority) cur).trans
        (setState_sameMachine _ cur .ready)
      rw [requeue_running ⟨prcb, hpr⟩ hlo hrunning1]
      obtain ⟨hrd, hcn, hrb⟩ := incoming hlk (hs.registered_of ⟨prcb, hpr⟩) t
      refine ⟨_, hrd, hcn, hrb, ?_⟩
      intro q
      rw [hfr.threads]
      unfold Queues.push
      by_cases hq : q = clampPriority (s.threads cur).priority
      · subst hq
        rw [update_self, if_pos ⟨hr, rfl⟩]
      have hne : (cpu, q) ≠ (cpu, clampPriority (s.threads cur).priority) :=
        fun heq => hq (congrArg Prod.snd heq)
      rw [update_of_ne hne, if_neg (fun hand => hq hand.2), append_nil]
    have hst : (s1.threads cur).state ≠ .running := by rw [hfr.threads]; exact hr
    rw [requeue_stopped hst]
    obtain ⟨hrd, hcn, hrb⟩ := incoming h hg t
    refine ⟨Q1, hrd, hcn, hrb, ?_⟩
    intro q
    rw [if_neg (fun hand => hr hand.1), append_nil]

/-- When a call of `schedule` leaves strict priority behind.

If the CPU has a dispatcher lock and there is a top thread: it is at least as high as the queues of
the CPU and as a running current thread, and runnable if it is the current thread itself.
Otherwise nothing is taken: the current thread is runnable and no lower than the queues. -/
def SchedulesStrictly (s : State n) (cpu : Nat) : Prop :=
  (cpu < MAX_PERCPU_LOCKS ∧ ∃ p t l, Top s.queues (s.sourceCpu cpu) p t l
      ∧ (∀ q, s.queues (cpu, q) ≠ [] → q ≤ p)
      ∧ (s.current cpu = some t → (s.threads t).state.runnable = true)
      ∧ ∀ cur, s.current cpu = some cur → cur ≠ t → (s.threads cur).state = .running →
          clampPriority (s.threads cur).priority ≤ p)
    ∨ ((MAX_PERCPU_LOCKS ≤ cpu ∨ ∀ p, s.queues (s.sourceCpu cpu, p) = [])
      ∧ ∃ t p, s.current cpu = some t ∧ (s.threads t).state.runnable = true
        ∧ HasLevel s t p ∧ ∀ q, s.queues (cpu, q) ≠ [] → q ≤ p)

lemma schedule_top_strict (hi : Inv s Q) {cpu irql : Nat} (hg : ∃ prcb, s.prcb cpu = some prcb)
    (hiq : irql ≤ DISPATCH_LEVEL) (hlo : lockPrcb cpu cpu = true) {p : Level}
    {l : List (Fin n)} (htp : Top Q (s.sourceCpu cpu) p t l) :
    StrictPriority s cpu (s.schedule cpu irql).2 ↔ (∀ q, Q (cpu, q) ≠ [] → q ≤ p)
          ∧ (s.current cpu = some t → (s.threads t).state.runnable = true)
          ∧ ∀ cur, s.current cpu = some cur → cur ≠ t → (s.threads cur).state = .running →
              clampPriority (s.threads cur).priority ≤ p := by
  obtain ⟨s1, hrun1, hready1⟩ := hi.ready.takeHead htp.queue
  have hfr := takeHead_frame s (s.sourceCpu cpu) p
  rw [hrun1] at hfr
  rw [schedule_top hi.ready hiq hlo htp, hrun1]
  by_cases hs : some t ≠ s.current cpu
  · rw [if_pos hs]
    have hreg1 := hfr.sameMachine.registered_of hg
    obtain ⟨_, hrd', hcn, hrb, haf⟩ := switchTo_ready hready1 hfr hreg1 hlo
      (t := t) (fun cur hcr hr k hk => hi.parked (Queues.mem_of_mem_take htp.queue hk) hr cpu hcr)
    have hot : ∀ q, outgoing s cpu q ≠ [] ↔ ∃ cur, s.current cpu = some cur
        ∧ (s.threads cur).state = .running ∧ q = clampPriority (s.threads cur).priority := by
      intro q
      unfold outgoing
      cases s.current cpu with
      | none => simp
      | some cur => simp
    rw [strict_taken hi.ready hrd' htp hcn haf]
    · constructor
      · rintro ⟨_, hhi, hxt⟩
        refine ⟨hhi, fun hcr => absurd hcr.symm hs, ?_⟩
        intro cur hcr _ hr
        exact hxt _ ((hot _).mpr ⟨cur, hcr, hr, rfl⟩)
      rintro ⟨hhi, _, hcr⟩
      refine ⟨hrb, hhi, ?_⟩
      intro q hq
      obtain ⟨cur, hcn', hr, rfl⟩ := (hot q).mp hq
      exact hcr cur hcn' (fun heq => hs (by rw [hcn', heq])) hr
    intro u hu hr
    right
    refine ⟨clampPriority (s.threads u).priority, ?_⟩
    unfold outgoing
    rw [hu]
    simp [hr]
  rw [if_neg hs]
  have hcr : s.current cpu = some t := (not_ne_iff.mp hs).symm
  have hcn : s1.current cpu = some t := by rw [hfr.current]; exact hcr
  have haf : ∀ q, Function.update Q (s.sourceCpu cpu, p) l (cpu, q)
      = Function.update Q (s.sourceCpu cpu, p) l (cpu, q) ++ (fun _ => []) q :=
    fun q => (append_nil _).symm
  rw [strict_taken hi.ready hready1 htp hcn haf, hfr.threads]
  · constructor
    · rintro ⟨hrb, hhi, _⟩
      refine ⟨hhi, fun _ => hrb, ?_⟩
      intro cur hcr' hne
      rw [hcr] at hcr'
      exact absurd (Option.some.inj hcr').symm hne
    · rintro ⟨hhi, hrb, _⟩
      exact ⟨hrb hcr, hhi, fun q hq => absurd rfl hq⟩
  intro u hu _
  rw [hcr] at hu
  exact .inl (Option.some.inj hu).symm

/-- **Strict priority.** At or below `DISPATCH_LEVEL`, on a registered CPU of a consistent state, a
call of `schedule` leaves strict priority behind if and only if `SchedulesStrictly` held before. -/
theorem schedule_strict_iff (hinv : Inv s s.queues) {cpu irql : Nat}
    (hreg : ∃ prcb, s.prcb cpu = some prcb) (hirql : irql ≤ DISPATCH_LEVEL) :
    StrictPriority s cpu (s.schedule cpu irql).2 ↔ SchedulesStrictly s cpu := by
  cases hlo : lockPrcb cpu cpu with
  | false =>
    have hge : MAX_PERCPU_LOCKS ≤ cpu := by
      rw [lockPrcb_eq, decide_eq_false_iff_not] at hlo
      omega
    rw [schedule_unlocked hirql hlo, strict_stay hinv.ready]
    constructor
    · intro hcr
      exact .inr ⟨.inl hge, hcr⟩
    rintro (⟨hlt, _⟩ | ⟨_, hcr⟩)
    · omega
    · exact hcr
  | true =>
    have hlt : cpu < MAX_PERCPU_LOCKS := by
      rw [lockPrcb_eq, decide_eq_true_eq] at hlo
      exact hlo
    rcases empty_or_top hinv.ready (s.sourceCpu cpu) with hem | ⟨p, t, l, htp⟩
    · rw [schedule_empty hinv.ready hirql hlo hem, strict_stay hinv.ready]
      constructor
      · intro hcr
        exact .inr ⟨.inr hem, hcr⟩
      rintro (⟨_, p, t, l, htp, _⟩ | ⟨_, hcr⟩)
      · have hnl := htp.queue
        rw [hem p] at hnl
        cases hnl
      · exact hcr
    rw [schedule_top_strict hinv hreg hirql hlo htp]
    constructor
    · intro hlv
      exact .inl ⟨hlt, p, t, l, htp, hlv⟩
    rintro (⟨_, _, _, _, htp', hlv⟩ | ⟨hge | hem, _⟩)
    · obtain ⟨rfl, rfl, rfl⟩ := htp.unique htp'
      exact hlv
    · omega
    have hnl := htp.queue
    rw [hem p] at hnl
    cases hnl

/-- CPU 0 runs thread 0 at priority 10, and thread 1 is ready. -/
def busyCpu : State 2 :=
  booted 1 (fun t => Kthread.new (if t = 0 then .running else .ready) 10 (BitVec.allOnes 64) 0)
    fun cpu => if cpu = 0 then some 0 else none

/-- CPU 40 runs thread 0 at priority 4, and thread 1 is at home there. -/
def lateCpu : State 2 :=
  booted 64 (fun t => Kthread.new (if t = 0 then .running else .ready) 4 (BitVec.allOnes 64) 40)
    fun cpu => if cpu = 40 then some 0 else none

theorem schedule_strict_preempt : (busyCpu.link 0 12 1).readyQueue 0 12 = some [1]
      ∧ StrictPriority (busyCpu.link 0 12 1) 0 ((busyCpu.link 0 12 1).schedule 0 0).2 := by
  have hvd : Valid busyCpu (.addReady 0 1 12) := ⟨by decide +kernel, nofun⟩
  have hr : Run Valid busyCpu [.addReady 0 1 12] (busyCpu.link 0 12 1) :=
    Run.cons hvd (by rfl) (Run.nil _)
  obtain ⟨_, hi⟩ := hr.inv (fun _ _ h => h) (booted_initial 1 _ _).inv
  have hg : ∃ prcb, (busyCpu.link 0 12 1).prcb 0 = some prcb :=
    Option.isSome_iff_exists.mp (by decide +kernel)
  have hem : ∀ q : Level, (busyCpu.link 0 12 1).queues (0, q) ≠ [] → q ≤ 12 := by decide +kernel
  have htp : Top (busyCpu.link 0 12 1).queues 0 12 1 [] := ⟨by decide +kernel, hem⟩
  refine ⟨by decide +kernel, (schedule_strict_iff hi.queues hg (by decide)).mpr
    (.inl ⟨by decide, 12, 1, [], htp, hem, ?_, ?_⟩)⟩
  · decide +kernel
  · decide +kernel

/-- A thread of level 4 takes the CPU from one of priority 10, which is queued. And CPU 40 keeps its
thread of priority 4 while one of level 10 is queued there. -/
theorem schedule_inverts_priority : (exec [.addReady 0 1 4, .schedule 0 0] busyCpu).map
        (fun s => (s.current 0, s.readyQueue 0 10)) = some (some 1, some [0])
      ∧ (exec [.addReady 0 1 10, .schedule 40 0] lateCpu).map
        (fun s => (s.current 40, s.readyQueue 40 10)) = some (some 0, some [1]) := by
  constructor
  · decide +kernel
  · decide +kernel

end Nt61.Scheduler
