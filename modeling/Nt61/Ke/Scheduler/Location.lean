/-
Location — where the threads are, and where they are recorded.

The recorded place of a thread is right until `ki_balance_processor` moves the thread: of the five
places that queue a thread it is the one that does not write the record (`Located.move`).
-/
import Nt61.Ke.Scheduler.Steps

namespace Nt61.Scheduler

variable {n : Nat} {s s' : State n} {Q Q' : Queues n} {ok : Placement n → Prop}

/-! ## Recorded places -/

def Located (s : State n) (Q : Queues n) (t : Fin n) : Prop :=
  ∀ cpu p, t ∈ Q (cpu, p) →
    (s.threads t).queuedCpu.toNat = cpu ∧ (s.threads t).queuedPriority.toNat = p.val

variable {t : Fin n}

lemma Located.of_fresh (h : Q.Fresh t) : Located s Q t := fun cpu p ht => absurd ht (h (cpu, p))

lemma Located.of_same (h : Located s Q t) (hc : (s'.threads t).queuedCpu = (s.threads t).queuedCpu)
    (hlv : (s'.threads t).queuedPriority = (s.threads t).queuedPriority)
    (hm : ∀ k, t ∈ Q' k → t ∈ Q k) : Located s' Q' t := by
  intro cpu p ht
  rw [hc, hlv]
  exact h cpu p (hm (cpu, p) ht)

variable {cpu : Nat}

lemma link_record (hlt : cpu < MAX_CPUS) (p : Level) (t : Fin n) :
    ((s.link cpu p t).threads t).queuedCpu.toNat = cpu
      ∧ ((s.link cpu p t).threads t).queuedPriority.toNat = p.val := by
  unfold State.link State.setLocation
  rw [modifyThread_self]
  have hc : cpu < 2 ^ 16 := lt_trans hlt (by decide)
  have hp : p.val < 2 ^ 8 := lt_trans p.isLt (by decide)
  constructor
  · rw [UInt16.toNat_ofNat', Nat.mod_eq_of_lt hc]
  · show (UInt8.ofNat p.val).toNat = p.val
    rw [UInt8.toNat_ofNat', Nat.mod_eq_of_lt hp]

lemma link_threads_of_ne {p : Level} {t u : Fin n} (h : u ≠ t) :
    (s.link cpu p t).threads u = s.threads u := by
  unfold State.link State.setLocation
  rw [modifyThread_of_ne h, (enqueue_frame s cpu p t).threads]

lemma Located.link {prcb : Prcb n} (hg : s.prcb cpu = some prcb) (p : Level)
    {t u : Fin n} (hfr : Q.Fresh t) (h : Located s Q u) :
    Located (s.link cpu p t) (Q.push cpu p t) u := by
  by_cases hut : u = t
  · subst hut
    intro c q hm
    rcases Queues.mem_push.mp hm with hold | ⟨_, hk⟩
    · exact absurd hold (hfr _)
    · cases hk
      exact link_record (lt_of_prcb hg) p u
  have hth : (s.link cpu p t).threads u = s.threads u := link_threads_of_ne hut
  apply h.of_same (by rw [hth]) (by rw [hth])
  intro k hm
  exact (Queues.mem_push.mp hm).resolve_right fun hw => hut hw.1

lemma Located.move {u : Fin n} (hst : ∀ cpu, ¬ ok (.moved u cpu))
    (h : Move ok (s, Q) (s', Q')) (hlc : Located s Q u) : Located s' Q' u := by
  cases h with
  | link p hg hfr _ _ => exact hlc.link hg p hfr
  | @requeue _ _ cpu _ p t hg hfr _ =>
    apply (hlc.link hg p hfr).of_same _ _ fun _ h => h
    · exact modifyThread_field Kthread.queuedCpu rfl u
    · exact modifyThread_field Kthread.queuedPriority rfl u
  | @steal _ _ cpu _ p t _ _ _ hok =>
    have hut : u ≠ t := fun hut => hst cpu (hut ▸ hok)
    have hth := (enqueue_frame s cpu p t).threads
    apply hlc.of_same (by rw [hth]) (by rw [hth])
    intro k hm
    exact (Queues.mem_push.mp hm).resolve_right fun hw => hut hw.1
  | @drop _ _ cpu p t _ =>
    have hth := (dequeue_frame s cpu p t).threads
    exact hlc.of_same (by rw [hth]) (by rw [hth]) fun _ => Queues.mem_of_mem_drop
  | @take _ _ cpu p t l hk =>
    have hth := (takeHead_frame s cpu p).threads
    exact hlc.of_same (by rw [hth]) (by rw [hth]) fun _ => Queues.mem_of_mem_take hk
  | edit t f _ _ hlt =>
    rcases hlt with hfr | ⟨hc, hlv⟩
    · by_cases hut : u = t
      · exact Located.of_fresh (hut ▸ hfr)
      · have hth := modifyThread_of_ne (s := s) hut f
        exact hlc.of_same (by rw [hth]) (by rw [hth]) fun _ h => h
    apply hlc.of_same _ _ fun _ h => h
    · exact modifyThread_field Kthread.queuedCpu hc u
    · exact modifyThread_field Kthread.queuedPriority hlv u
  | mark t state _ =>
    apply hlc.of_same _ _ fun _ h => h
    · exact modifyThread_field Kthread.queuedCpu rfl u
    · exact modifyThread_field Kthread.queuedPriority rfl u
  | @dispatch _ _ cpu _ t _ _ _ =>
    have hth := setCurrent_threads s cpu t
    exact hlc.of_same (by rw [hth]) (by rw [hth]) fun _ h => h
  | postpone _ _ cpu =>
    have hth := (requestReschedule_same s cpu).1
    exact hlc.of_same (by rw [hth]) (by rw [hth]) fun _ h => h

lemma Located.removeReady {p : Level} (h : Located s Q t) (hrd : Ready s Q)
    (ht : t ∈ Q (cpu, p)) {me : Nat} (hme : me < MAX_CPUS) :
    ∃ s', s.removeReady me (some t) = some (true, s') ∧ s'.queued t = false := by
  obtain ⟨hc, hlv⟩ := h cpu p ht
  obtain ⟨_, hg⟩ := hrd.registered ht
  have hlo : lockReadyQueue me cpu p = true := by
    have how : me < 255 := lt_trans hme (by decide)
    have hp : p.val < MAX_PRIORITY := p.isLt
    simp [lockReadyQueue, currentLockOwner, lt_of_prcb hg, hp, how]
  refine ⟨(s.dequeue cpu p t).setLocation t 0 0xFF, ?_, ?_⟩
  · rw [removeReady_eq hlv, hc, removeFrom_eq hrd hlo, if_pos ht]
  have haf : Ready ((s.dequeue cpu p t).setLocation t 0 0xFF) (Q.drop cpu p t) :=
    (hrd.dequeue ht).modifyThread t _
  exact (queued_eq_false_iff haf t).mpr (hrd.fresh_drop ht)

/-! ## Runs -/

/-- A call of `ki_balance_processor` that picks the thread. -/
def Steals (t : Fin n) (s : State n) : Op n → Prop
  | .kiBalanceProcessor _ _ => ∃ m, s.findMigration = some (some m) ∧ m.thread = t
  | _ => False

lemma not_explained_moved {op : Op n} (h : ¬ Steals t s op) (cpu : Nat) :
    ¬ Explained s Q op (.moved t cpu) := by
  intro hep
  cases op with
  | kiBalanceProcessor me targetCpu =>
    obtain ⟨m, hm, ht, _⟩ := hep
    exact h ⟨m, hm, ht.symm⟩
  | _ => exact hep

/-- **Ready queues.** In every state that the operations reach, the queues are disjoint doubly
linked lists that end in null. A thread that was on no queue at some point of the run, and that
`ki_balance_processor` has not moved since, is where its record says, and `remove_ready` removes it. -/
theorem run_ready_queues {s₀ s₁ s₂ : State n} {pre post : List (Op n)} (hinit : Initial s₀)
    (hpre : Run Valid s₀ pre s₁) (hpost : Run Valid s₁ post s₂) :
    Ready s₂ s₂.queues ∧ ∀ t, s₁.queued t = false → Run (fun s op => ¬ Steals t s op) s₁ post s₂ →
      ∀ cpu p, t ∈ s₂.queues (cpu, p) →
        ((s₂.threads t).queuedCpu.toNat = cpu ∧ (s₂.threads t).queuedPriority.toNat = p.val)
          ∧ ∀ me, me < MAX_CPUS →
            ∃ s₃, s₂.removeReady me (some t) = some (true, s₃) ∧ s₃.queued t = false := by
  obtain ⟨_, hinv1⟩ := hpre.inv (fun _ _ h => h) hinit.inv
  obtain ⟨_, hinv2⟩ := hpost.inv (fun _ _ h => h) hinv1
  constructor
  · rw [hinv2.ready.queues_eq]
    exact hinv2.ready
  intro t hqd hkp cpu p ht
  have hfr := (queued_eq_false_iff hinv1.ready t).mp hqd
  obtain ⟨Q, hi, hlc⟩ := (hpost.and hkp).keeps (J := fun s Q => Located s Q t) (fun _ _ h => h.1)
    (fun hi hal hlc hmv => hmv.keeps (J := fun s Q => Located s Q t)
      (fun _ hm h => h.move (not_explained_moved hal.2) hm) hi hlc)
    hinv1 (Located.of_fresh hfr)
  rw [hi.ready.queues_eq] at ht
  exact ⟨hlc cpu p ht, fun me hme => hlc.removeReady hi.ready ht hme⟩

/-- Two CPUs and three threads that may run on both. -/
def twoCpus : State 3 :=
  booted 2 (fun _ => Kthread.new .ready 8 (BitVec.allOnes 64) 0) fun _ => none

theorem run_ready_queues_one : twoCpus.queued 0 = false
      ∧ ∃ s₃, (twoCpus.link 0 8 0).removeReady 1 (some 0) = some (true, s₃) := by
  have hn : twoCpus.queued 0 = false := by decide +kernel
  have hvd : Valid twoCpus (.addReady 0 0 8) := ⟨hn, nofun⟩
  have hs : step (.addReady 0 0 8) twoCpus = some (twoCpus.link 0 8 0) := by rfl
  obtain ⟨_, hpl⟩ := run_ready_queues (booted_initial 2 _ _) (Run.nil twoCpus)
    (Run.cons hvd hs (Run.nil _))
  have hm : (0 : Fin 3) ∈ (twoCpus.link 0 8 0).queues (0, 8) := by decide +kernel
  obtain ⟨_, hrm⟩ := hpl 0 hn (Run.cons (fun h => h) hs (Run.nil _)) 0 8 hm
  obtain ⟨s₃, hr, _⟩ := hrm 1 (by decide)
  exact ⟨hn, s₃, hr⟩

/-- CPU 0 runs thread 0. -/
def runningCpu : State 3 :=
  booted 1 (fun _ => Kthread.new .running 8 (BitVec.allOnes 64) 0) fun _ => some 0

/-- A queue with one thread is no circle. And once `ki_balance_processor` has moved a thread,
`remove_ready` looks for it on the old CPU and returns false. A thread that is added while it runs is
queued once more when `schedule` takes the CPU from it. -/
theorem stolen_thread_stays :
    (exec [.addReady 0 0 8] twoCpus).map (fun s => (s.readyQueue 0 8, s.entries 0))
        = some (some [0], ⟨none, none⟩)
      ∧ (exec [.addReady 0 0 8, .addReady 0 1 8, .addReady 0 2 8, .kiBalanceProcessor 0 0] twoCpus).map
          (fun s => (s.readyQueue 1 8, (s.threads 0).queuedCpu,
            (s.removeReady 0 (some 0)).map Prod.fst)) = some (some [0], 0, some false)
      ∧ (exec [.addReady 0 0 4, .addReady 0 1 12, .schedule 0 0] runningCpu).map
          (fun s => (runningCpu.queued 0, s.readyQueue 0 4, s.readyQueue 0 8))
        = some (false, some [0], some [0]) := by
  refine ⟨?_, ?_, ?_⟩
  · decide +kernel
  · decide +kernel
  · decide +kernel

end Nt61.Scheduler
