/-
Steps — every operation is a sequence of moves.

`step_moved` is the one place where the operations are taken apart. It says which threads an
operation can place, and where (`Explained`); what the moves keep is kept by every run.
-/
import Nt61.Lib.Prog
import Nt61.Ke.Scheduler.Moves

namespace Nt61.Scheduler

open Relation (ReflTransGen)
open List Option

variable {n : Nat} {s s' : State n} {Q Q' : Queues n} {ok : Placement n → Prop}

/-! ## `add_ready` and `remove_ready` -/

/-- Where `add_ready` queues the thread, if it does: on the CPU it aims at, or on CPU 0 in
single-CPU mode and for a CPU that is not registered. -/
def Landing (s : State n) (t : Fin n) (cpu : Nat) : Prop :=
  ∃ target, s.targetCpu t = some target ∧ ((cpu = target ∧ s.smpInitialized = true)
      ∨ (cpu = 0 ∧ ¬ (s.smpInitialized = true ∧ (s.prcb target).isSome = true)))

variable {t : Fin n} {me : Nat}

lemma addReady_cases {priority : UInt8} (hrn : s.addReady me (some t) priority = some s') :
    s' = s ∨ ∃ cpu prcb, s.prcb cpu = some prcb ∧ Landing s t cpu
      ∧ s' = s.link cpu (levelOf priority) t := by
  obtain ⟨target, htg, rfl⟩ := map_eq_some_iff.mp hrn
  by_cases hlock : lockReadyQueue me target (levelOf priority) = true
  · rw [hlock]
    by_cases hsm : s.smpInitialized = true ∧ (s.prcb target).isSome = true
    · obtain ⟨prcb, hg⟩ := isSome_iff_exists.mp hsm.2
      have hlt := lt_of_prcb hg
      right
      refine ⟨target, prcb, hg, ⟨target, htg, .inl ⟨rfl, hsm.1⟩⟩, ?_⟩
      simp [hsm.1, hsm.2, hlt]
    have hcd : (s.smpInitialized && decide (target < MAX_CPUS) && (s.prcb target).isSome)
        = false := by
      cases hs : s.smpInitialized
      · simp
      cases hr : (s.prcb target).isSome
      · simp
      · exact absurd ⟨hs, hr⟩ hsm
    rw [hcd]
    cases h0 : s.prcb 0 with
    | none => exact .inl (by simp)
    | some prcb => exact .inr ⟨0, prcb, h0, ⟨target, htg, .inr ⟨rfl, hsm⟩⟩, by simp⟩
  · left
    simp [hlock]

variable {p : Level}

open State

lemma removeFrom_eq (h : Ready s Q) {me cpu : Nat}
    (hlock : lockReadyQueue me cpu p = true) (t : Fin n) : s.removeFrom me t cpu p
      = some (if t ∈ Q (cpu, p) then (true, (s.dequeue cpu p t).setLocation t 0 0xFF)
          else (false, s)) := by
  unfold removeFrom
  rw [hlock]
  cases hg : s.prcb cpu with
  | none =>
    have hnt : t ∉ Q (cpu, p) := by
      intro hm
      obtain ⟨prcb, hg'⟩ := h.registered hm
      rw [hg] at hg'
      cases hg'
    rw [if_neg hnt]
    rfl
  | some prcb =>
    have hfi := (h.linked hg p).find (fun entry => entry == t) (h.length_le _)
    have hfn : ((Q (cpu, p)).find? fun entry => entry == t).isSome = true ↔ t ∈ Q (cpu, p) := by
      simp
    show (DList.find s.entries (fun entry => entry == t) n (prcb.readyQueues p).head).map _ = _
    rw [hfi, map_some]
    simp only [hfn]

lemma removeReady_eq (hlv : (s.threads t).queuedPriority.toNat = p.val) :
    s.removeReady me (some t) = s.removeFrom me t (s.threads t).queuedCpu.toNat p := by
  have hlt : (s.threads t).queuedPriority.toNat < 32 := by rw [hlv]; exact p.isLt
  have hp : (⟨(s.threads t).queuedPriority.toNat, hlt⟩ : Level) = p := Fin.ext hlv
  unfold removeReady
  dsimp only
  rw [dif_pos hlt, hp]

lemma removeReady_cases (h : Ready s Q) {removed : Bool}
    (hr : s.removeReady me (some t) = some (removed, s')) : (removed = false ∧ s' = s)
      ∨ ∃ cpu p, removed = true ∧ t ∈ Q (cpu, p)
          ∧ s' = (s.dequeue cpu p t).setLocation t 0 0xFF := by
  by_cases hp : (s.threads t).queuedPriority.toNat < 32
  · rw [removeReady_eq (p := ⟨_, hp⟩) rfl] at hr
    by_cases hlock : lockReadyQueue me (s.threads t).queuedCpu.toNat
        (⟨(s.threads t).queuedPriority.toNat, hp⟩ : Level) = true
    · rw [removeFrom_eq h hlock] at hr
      by_cases hm : t ∈ Q ((s.threads t).queuedCpu.toNat, ⟨_, hp⟩)
      · rw [if_pos hm] at hr
        cases hr
        exact .inr ⟨_, _, rfl, hm, rfl⟩
      rw [if_neg hm] at hr
      cases hr
      exact .inl ⟨rfl, rfl⟩
    unfold removeFrom at hr
    rw [if_pos (by simp [hlock])] at hr
    cases hr
    exact .inl ⟨rfl, rfl⟩
  unfold removeReady at hr
  dsimp only at hr
  rw [dif_neg hp] at hr
  cases hr
  exact .inl ⟨rfl, rfl⟩

/-! ## `schedule` -/

structure Top (Q : Queues n) (cpu : Nat) (p : Level) (t : Fin n) (l : List (Fin n)) : Prop where
  queue : Q (cpu, p) = t :: l
  highest : ∀ q, Q (cpu, q) ≠ [] → q ≤ p

variable {cpu : Nat} {prcb : Prcb n}

lemma summary_eq_zero_iff (h : Ready s Q)
    (hg : s.prcb cpu = some prcb) : prcb.readySummary = 0 ↔ ∀ p, Q (cpu, p) = [] := by
  constructor
  · intro h0 p
    have hbt := h.summary hg p
    rw [h0] at hbt
    simpa using hbt
  intro hem
  apply BitVec.eq_of_getLsbD_eq
  intro i hi
  rw [h.summary hg ⟨i, hi⟩, hem]
  simp

lemma takeNext_empty (h : Ready s Q) (hem : ∀ p, Q (cpu, p) = []) (me : Nat) :
    takeNext me cpu s = some (none, s) := by
  unfold takeNext
  cases hg : s.prcb cpu with
  | none => rfl
  | some prcb =>
    dsimp only
    rw [if_pos ((summary_eq_zero_iff h hg).mpr hem)]

lemma highestLevel_top (h : Ready s Q) (hg : s.prcb cpu = some prcb)
    (hne : prcb.readySummary ≠ 0) : ∃ t l, Top Q cpu (highestLevel prcb.readySummary) t l := by
  obtain ⟨hst, hhi⟩ := highestLevel_spec hne
  rw [h.summary hg] at hst
  cases hq : Q (cpu, highestLevel prcb.readySummary) with
  | nil => rw [hq] at hst; cases hst
  | cons t l =>
    refine ⟨t, l, hq, ?_⟩
    intro q hne'
    apply hhi q
    rw [h.summary hg]
    cases hql : Q (cpu, q) with
    | nil => exact absurd hql hne'
    | cons _ _ => rfl

lemma Top.unique {p p' : Level} {t t' : Fin n} {l l' : List (Fin n)}
    (h : Top Q cpu p t l) (h' : Top Q cpu p' t' l') : p = p' ∧ t = t' ∧ l = l' := by
  have hp : p = p' := le_antisymm (h'.highest p (by rw [h.queue]; simp))
    (h.highest p' (by rw [h'.queue]; simp))
  subst hp
  have hq := h.queue.symm.trans h'.queue
  injection hq with ht hl
  exact ⟨rfl, ht, hl⟩

lemma takeNext_top (h : Ready s Q) {me cpu : Nat} {l : List (Fin n)}
    (htp : Top Q cpu p t l) (hlock : lockReadyQueue me cpu p = true) :
    takeNext me cpu s = some (some t, (s.takeHead cpu p).2) := by
  have hm : t ∈ Q (cpu, p) := by rw [htp.queue]; exact mem_cons_self
  obtain ⟨prcb, hg⟩ := h.registered hm
  have hne : prcb.readySummary ≠ 0 := by
    intro h0
    have hnl := (summary_eq_zero_iff h hg).mp h0 p
    rw [hnl] at hm
    cases hm
  obtain ⟨_, _, htp'⟩ := highestLevel_top h hg hne
  obtain ⟨hp, _, _⟩ := htp'.unique htp
  obtain ⟨_, hr, _⟩ := h.takeHead htp.queue
  unfold takeNext
  rw [hg]
  dsimp only
  rw [if_neg hne, hp, hlock, hr]
  rfl

lemma empty_or_top (h : Ready s Q) (cpu : Nat) :
    (∀ p, Q (cpu, p) = []) ∨ ∃ p t l, Top Q cpu p t l := by
  cases hg : s.prcb cpu with
  | none => exact .inl fun p => h.eq_nil hg
  | some prcb =>
    by_cases h0 : prcb.readySummary = 0
    · exact .inl ((summary_eq_zero_iff h hg).mp h0)
    · obtain ⟨t, l, htp⟩ := highestLevel_top h hg h0
      exact .inr ⟨_, t, l, htp⟩

lemma lockReadyQueue_of_lockPrcb {cpu c : Nat} (h : lockPrcb cpu cpu = true) (hc : c < MAX_CPUS)
    (p : Level) : lockReadyQueue cpu c p = true := by
  unfold lockPrcb at h
  unfold lockReadyQueue
  rw [Bool.and_eq_true] at h
  have hp : p.val < MAX_PRIORITY := p.isLt
  simp [hc, hp, h.2]

lemma lt_of_lockPrcb (h : lockPrcb cpu cpu = true) : cpu < MAX_CPUS := by
  unfold lockPrcb at h
  rw [Bool.and_eq_true, decide_eq_true_eq] at h
  have hlt : cpu < 32 := h.1
  show cpu < 64
  omega

lemma sourceCpu_lt (h : cpu < MAX_CPUS) : s.sourceCpu cpu < MAX_CPUS := by
  unfold sourceCpu
  by_cases hsm : (s.smpInitialized && decide (cpu < MAX_CPUS)) = true
  · rw [if_pos hsm]
    exact h
  · rw [if_neg hsm]
    decide

variable {cpu irql : Nat}

lemma schedule_above (hirql : irql > DISPATCH_LEVEL) :
    s.schedule cpu irql = (false, s.requestReschedule cpu) := by
  unfold schedule
  rw [if_pos hirql]

lemma schedule_unlocked (hirql : irql ≤ DISPATCH_LEVEL)
    (hlock : lockPrcb cpu cpu = false) : s.schedule cpu irql = (false, s) := by
  unfold schedule
  rw [if_neg (by omega), hlock]
  rfl

section

variable (h : Ready s Q) (hirql : irql ≤ DISPATCH_LEVEL) (hlock : lockPrcb cpu cpu = true)
include h hirql hlock

lemma schedule_empty (hem : ∀ p, Q (s.sourceCpu cpu, p) = []) :
    s.schedule cpu irql = (false, s) := by
  unfold schedule
  rw [if_neg (by omega), hlock, takeNext_empty h hem]
  rfl

lemma schedule_top {l : List (Fin n)} (htp : Top Q (s.sourceCpu cpu) p t l) : s.schedule cpu irql
      = if some t ≠ s.current cpu then
          (true, (s.takeHead (s.sourceCpu cpu) p).2.switchTo cpu (s.current cpu) t)
        else (false, (s.takeHead (s.sourceCpu cpu) p).2) := by
  have hq := lockReadyQueue_of_lockPrcb hlock (sourceCpu_lt (s := s) (lt_of_lockPrcb hlock)) p
  unfold schedule
  rw [if_neg (by omega), hlock, takeNext_top h htp hq]
  rfl

end

/-! ## The balancers -/

lemma findMigratableFrom_mem (h : Ready s Q) (hg : s.prcb cpu = some prcb) {levels : List Level}
    (hfn : s.findMigratableFrom prcb levels = some (some (t, p))) : t ∈ Q (cpu, p) := by
  induction levels with
  | nil => cases hfn
  | cons q levels ih =>
    unfold findMigratableFrom at hfn
    rw [(h.linked hg q).find s.migratable (h.length_le _)] at hfn
    cases hq : (Q (cpu, q)).find? s.migratable with rw [hq] at hfn
    | none => exact ih hfn
    | some u =>
      cases hfn
      exact mem_of_find?_eq_some hq

lemma foldlM_keeps {α β : Type} {f : β → α → Option β} {I : β → Prop}
    (hro : ∀ acc a acc', I acc → f acc a = some acc' → I acc') {l : List α} {acc r : β}
    (hac : I acc) (hr : l.foldlM f acc = some r) : I r := by
  induction l generalizing acc with
  | nil =>
    cases hr
    exact hac
  | cons a l ih =>
    obtain ⟨acc', hstep, hrest⟩ := bind_eq_some_iff.mp hr
    exact ih (hro acc a acc' hac hstep) hrest

lemma cpuLoads_min {loads : State.Loads} (hld : s.cpuLoads = some loads)
    (hmn : loads.minLoad < USIZE_MAX) : (s.prcb loads.minCpu).isSome = true := by
  have hkp := foldlM_keeps
    (I := fun acc : State.Loads => acc.minLoad < USIZE_MAX → (s.prcb acc.minCpu).isSome = true)
    ?_ (fun hlt => absurd hlt (Nat.lt_irrefl _)) hld
  · exact hkp hmn
  intro acc cpu acc' hac hstep
  cases hg : s.prcb cpu with rw [hg] at hstep
  | none =>
    cases hstep
    exact hac
  | some prcb =>
    obtain ⟨load, _, rfl⟩ := map_eq_some_iff.mp hstep
    unfold State.Loads.visit
    by_cases hle : load < acc.minLoad
    · simp [hle, hg]
    · simpa [hle] using hac

lemma findMigration_spec (h : Ready s Q) {m : State.Migration n}
    (hm : s.findMigration = some (some m)) :
    m.thread ∈ Q (m.maxCpu, m.priority) ∧ ∃ prcb, s.prcb m.minCpu = some prcb := by
  obtain ⟨loads, hld, hbo⟩ := bind_eq_some_iff.mp hm
  by_cases hov : loads.minLoad
      + calculateBalanceThreshold (loads.totalLoad / s.numCpus) > USIZE_MAX
  · rw [if_pos hov] at hbo
    cases hbo
  rw [if_neg hov] at hbo
  have hmn : loads.minLoad < USIZE_MAX := by
    have hp : 0 < calculateBalanceThreshold (loads.totalLoad / s.numCpus) := by
      unfold calculateBalanceThreshold
      by_cases hsm : loads.totalLoad / s.numCpus < 4
      · rw [if_pos hsm]; decide
      · rw [if_neg hsm]; decide
    omega
  split at hbo
  · cases hg : s.prcb loads.maxCpu with rw [hg] at hbo
    | none => cases hbo
    | some prcb =>
      obtain ⟨_, hfn, hmp⟩ := map_eq_some_iff.mp hbo
      obtain ⟨⟨_, _⟩, rfl, rfl⟩ := map_eq_some_iff.mp hmp
      exact ⟨findMigratableFrom_mem h hg hfn, isSome_iff_exists.mp (cpuLoads_min hld hmn)⟩
  · cases hbo

/-! ## Every operation is a sequence of moves -/

def State.readyQueue (s : State n) (cpu : Nat) (p : Level) : Option (List (Fin n)) :=
  (s.prcb cpu).bind fun prcb => DList.walk s.entries n (prcb.readyQueues p).head

def State.queues (s : State n) : Queues n := fun k => (s.readyQueue k.1 k.2).getD []

def State.queued (s : State n) (t : Fin n) : Bool :=
  (range MAX_CPUS).any fun cpu => (finRange 32).any fun p => (s.queues (cpu, p)).contains t

lemma Ready.queues_eq (h : Ready s Q) : s.queues = Q := by
  funext ⟨cpu, p⟩
  unfold State.queues State.readyQueue
  cases hg : s.prcb cpu with
  | none =>
    rw [h.eq_nil hg]
    rfl
  | some prcb =>
    rw [bind_some, (h.linked hg p).walk (h.length_le _)]
    rfl

lemma queued_eq_false_iff (h : Ready s Q) (t : Fin n) : s.queued t = false ↔ Q.Fresh t := by
  unfold queued
  rw [h.queues_eq, List.any_eq_false]
  constructor
  · rintro hn ⟨cpu, p⟩ hm
    obtain ⟨_, hg⟩ := h.registered hm
    apply hn cpu (mem_range.mpr (lt_of_prcb hg))
    rw [List.any_eq_true]
    exact ⟨p, mem_finRange p, contains_iff_mem.mpr hm⟩
  intro hfr cpu _ han
  obtain ⟨p, _, hm⟩ := List.any_eq_true.mp han
  exact hfr (cpu, p) (contains_iff_mem.mp hm)

/-- What the callers promise: a thread is made ready only if it is on no queue and no CPU is running
it, and `Running` is set by the scheduler alone. -/
def Valid (s : State n) : Op n → Prop
  | .addReady _ t _ => s.queued t = false ∧ Parked s t
  | .mark _ state => state ≠ .running
  | _ => True

def Explained (s : State n) (Q : Queues n) : Op n → Placement n → Prop
  | .addReady _ t _, .queued u cpu => u = t ∧ Landing s t cpu
  | .setPriority _ t _, .queued u cpu => u = t ∧ Landing s t cpu
  | .schedule cpu _, .queued u c => c = cpu ∧ s.current cpu = some u
  | .schedule cpu _, .dispatched u c => c = cpu ∧ cpu < MAX_CPUS ∧ ∃ p, u ∈ Q (s.sourceCpu cpu, p)
  | .balanceLoad _, .queued u c =>
    ∃ m, s.findMigration = some (some m) ∧ u = m.thread ∧ c = m.minCpu
  | .kiBalanceProcessor _ _, .moved u c =>
    ∃ m, s.findMigration = some (some m) ∧ u = m.thread ∧ c = m.minCpu
  | _, _ => False

/-- The moves of `(s, Q)` to `s'` and some lists. -/
def Moved (ok : Placement n → Prop) (s : State n) (Q : Queues n) (s' : State n) : Prop :=
  ∃ Q', ReflTransGen (Move ok) (s, Q) (s', Q')

lemma Moved.stay : Moved ok s Q s := ⟨Q, .refl⟩

lemma Moved.cons {s₁ : State n} {Q1 : Queues n} (h : Move ok (s, Q) (s₁, Q1))
    (h' : Moved ok s₁ Q1 s') : Moved ok s Q s' := by
  obtain ⟨Q', hrest⟩ := h'
  exact ⟨Q', .head h hrest⟩

open Moved

lemma Moved.one (h : Move ok (s, Q) (s', Q')) : Moved ok s Q s' := cons h stay

lemma addReady_moved {priority : UInt8}
    (hr : s.addReady me (some t) priority = some s') (hfr : Q.Fresh t) (hpk : Parked s t)
    (hok : ∀ cpu, Landing s t cpu → ok (.queued t cpu)) : Moved ok s Q s' := by
  rcases addReady_cases hr with rfl | ⟨cpu, _, hg, hld, rfl⟩
  · exact stay
  · exact one (Move.link _ hg hfr hpk (hok cpu hld))

lemma withdraw_moved (h : Ready s Q) (ht : t ∈ Q (cpu, p))
    (hrest : Moved ok ((s.dequeue cpu p t).setLocation t 0 0xFF) (Q.drop cpu p t) s') :
    Moved ok s Q s' := by
  apply cons (Move.drop ht)
  exact cons (Move.edit t _ rfl rfl (.inl (h.fresh_drop ht))) hrest

lemma Landing.of_same (hs : SameMachine s s')
    (hho : (s'.threads t).homeCpu = (s.threads t).homeCpu) (h : Landing s' t cpu) :
    Landing s t cpu := by
  have htg : s'.targetCpu t = s.targetCpu t := by
    unfold targetCpu
    rw [hho, hs.affinityMask, hs.currentCpu]
  obtain ⟨target, ht, hc⟩ := h
  refine ⟨target, htg ▸ ht, ?_⟩
  rw [← hs.smpInitialized, ← hs.registered]
  exact hc

lemma setPriority_moved (hinv : Inv s Q) {priority : Int8}
    (hr : s.setPriority me t priority = some s')
    (hok : ∀ cpu, Landing s t cpu → ok (.queued t cpu)) : Moved ok s Q s' := by
  unfold setPriority at hr
  have hed : Move ok (s, Q)
      (s.modifyThread t fun k => { k with basePriority := priority, priority := priority }, Q) :=
    Move.edit t _ rfl rfl (.inr ⟨rfl, rfl⟩)
  apply cons hed
  have hrd := (hinv.move hed).ready
  have hs := hed.sameMachine
  have hho : ((s.modifyThread t fun k =>
      { k with basePriority := priority, priority := priority }).threads t).homeCpu
        = (s.threads t).homeCpu := modifyThread_field Kthread.homeCpu rfl t
  generalize s.modifyThread t _ = s₁ at *
  dsimp only at hr
  by_cases hst : (s₁.threads t).state = .ready
  · rw [if_pos hst] at hr
    obtain ⟨⟨_, _⟩, hrm, had⟩ := bind_eq_some_iff.mp hr
    rcases removeReady_cases hrd hrm with ⟨rfl, rfl⟩ | ⟨cpu, p, rfl, ht, rfl⟩
    · cases had
      exact stay
    apply withdraw_moved hrd ht
    have hfr := dequeue_frame s₁ cpu p t
    apply addReady_moved had (hrd.fresh_drop ht)
    · -- the thread is `Ready`
      intro hrn
      rw [setLocation, modifyThread_field Kthread.state rfl, hfr.threads, hst] at hrn
      cases hrn
    intro c hld
    dsimp only at hld
    apply hok
    apply Landing.of_same hs hho
    apply Landing.of_same (hfr.sameMachine.trans (modifyThread_sameMachine rfl)) _ hld
    rw [modifyThread_field Kthread.homeCpu rfl, hfr.threads]
  rw [if_neg hst] at hr
  cases hr
  exact stay

lemma requeue_cases (s : State n) (cpu : Nat) (cur : Fin n) : s.requeue cpu cur = s
      ∨ ∃ prcb p, s.prcb cpu = some prcb ∧ (s.threads cur).state = .running
          ∧ s.requeue cpu cur = (s.link cpu p cur).setState cur .ready := by
  unfold requeue
  dsimp only
  split
  · rename_i hcd
    simp only [Bool.and_eq_true, decide_eq_true_eq] at hcd
    obtain ⟨prcb, hg⟩ := isSome_iff_exists.mp hcd.1.2
    exact .inr ⟨prcb, _, hg, hcd.1.1, rfl⟩
  · exact .inl rfl

lemma dispatch_moved (hfr : Q.Fresh t) (hok : ok (.dispatched t cpu)) :
    Moved ok s Q ((s.setCurrent cpu t).setState t .running) := by
  have hmk : ∀ s₁ : State n, Moved ok s₁ Q (s₁.setState t .running) :=
    fun s₁ => one (Move.mark t .running (.inr hfr))
  cases hg : s.prcb cpu with
  | none =>
    have hn : s.setCurrent cpu t = s := by unfold setCurrent; rw [hg]
    rw [hn]
    exact hmk s
  | some prcb => exact cons (Move.dispatch hg hfr hok) (hmk _)

lemma switchTo_moved {current : Option (Fin n)} (hfr : Q.Fresh t)
    (hcr : ∀ cur, current = some cur → cur ≠ t ∧ ((s.threads cur).state = .running → Q.Fresh cur))
    (hqd : ∀ cur, current = some cur → ok (.queued cur cpu)) (hok : ok (.dispatched t cpu)) :
    Moved ok s Q (s.switchTo cpu current t) := by
  unfold switchTo
  cases current with
  | none => exact dispatch_moved hfr hok
  | some cur =>
    obtain ⟨hne, hfs⟩ := hcr cur rfl
    rcases requeue_cases s cpu cur with hs | ⟨prcb, p, hg, hr, hlk⟩
    · dsimp only
      rw [hs]
      exact dispatch_moved hfr hok
    dsimp only
    rw [hlk]
    apply cons (Move.requeue p hg (hfs hr) (hqd cur rfl))
    apply dispatch_moved _ hok
    intro k hm
    rcases Queues.mem_push.mp hm with hold | ⟨heq, _⟩
    · exact hfr k hold
    · exact hne heq.symm

lemma schedule_moved (hinv : Inv s Q) (cpu irql : Nat)
    (hqd : ∀ t, s.current cpu = some t → ok (.queued t cpu))
    (hds : cpu < MAX_CPUS → ∀ t p, t ∈ Q (s.sourceCpu cpu, p) → ok (.dispatched t cpu)) :
    Moved ok s Q (s.schedule cpu irql).2 := by
  by_cases hirql : irql ≤ DISPATCH_LEVEL
  · cases hlock : lockPrcb cpu cpu with
    | false =>
      rw [schedule_unlocked hirql hlock]
      exact stay
    | true =>
      rcases empty_or_top hinv.ready (s.sourceCpu cpu) with hem | ⟨p, t, l, htp⟩
      · rw [schedule_empty hinv.ready hirql hlock hem]
        exact stay
      have hta : Move ok (s, Q) ((s.takeHead (s.sourceCpu cpu) p).2, _) := Move.take htp.queue
      have hf := hinv.ready.fresh_take htp.queue
      have hfr := takeHead_frame s (s.sourceCpu cpu) p
      have hm : t ∈ Q (s.sourceCpu cpu, p) := by rw [htp.queue]; exact mem_cons_self
      rw [schedule_top hinv.ready hirql hlock htp]
      by_cases hs : some t ≠ s.current cpu
      · rw [if_pos hs]
        apply cons hta
        apply switchTo_moved hf _ hqd (hds (lt_of_lockPrcb hlock) t p hm)
        intro cur hcr
        refine ⟨fun heq => hs (by rw [hcr, heq]), ?_⟩
        intro hr k hk
        rw [hfr.threads] at hr
        exact hinv.parked (Queues.mem_of_mem_take htp.queue hk) hr cpu hcr
      · rw [if_neg hs]
        exact one hta
  · rw [schedule_above (by omega)]
    exact one (Move.postpone s Q cpu)

def Rehomed (s s' : State n) (t : Fin n) : Prop :=
  s' = s ∨ ∃ home, s' = s.modifyThread t fun k => { k with homeCpu := home }

lemma migrateThreadLocked_rehomed (s : State n) (t : Fin n) (fromCpu toCpu : Nat) :
    Rehomed s (s.migrateThreadLocked t fromCpu toCpu) t := by
  unfold migrateThreadLocked
  dsimp only
  split
  · exact .inl rfl
  split
  · exact .inl rfl
  · exact .inr ⟨_, rfl⟩

section

variable (hinv : Inv s Q)
include hinv

lemma leave_moved (ht : t ∈ Q (cpu, p)) (hho : Rehomed (s.dequeue cpu p t) s' t) :
    ReflTransGen (Move ok) (s, Q) (s', Q.drop cpu p t) ∧ SameMachine s s' ∧ Parked s' t := by
  have hfr := dequeue_frame s cpu p t
  have hdr : ReflTransGen (Move ok) (s, Q) (s.dequeue cpu p t, Q.drop cpu p t) :=
    .single (Move.drop ht)
  have hpk : Parked (s.dequeue cpu p t) t :=
    (hinv.parked ht).of_same (by rw [hfr.threads]) hfr.current
  rcases hho with rfl | ⟨_, rfl⟩
  · exact ⟨hdr, hfr.sameMachine, hpk⟩
  refine ⟨hdr.tail (Move.edit t _ rfl rfl (.inr ⟨rfl, rfl⟩)),
    hfr.sameMachine.trans (modifyThread_sameMachine rfl), hpk.of_same ?_ rfl⟩
  exact modifyThread_field Kthread.state rfl t

lemma kiBalanceProcessor_moved {me targetCpu : Nat}
    (hr : s.kiBalanceProcessor me targetCpu = some s')
    (hok : ∀ m, s.findMigration = some (some m) → ok (.moved m.thread m.minCpu)) :
    Moved ok s Q s' := by
  unfold kiBalanceProcessor at hr
  split at hr
  · cases hr
    exact stay
  split at hr
  · cases hr
    exact stay
  obtain ⟨found, hfn, rfl⟩ := map_eq_some_iff.mp hr
  cases found with
  | none => exact stay
  | some m =>
    dsimp only
    split
    · exact stay
    obtain ⟨hm, hmn⟩ := findMigration_spec hinv.ready hfn
    obtain ⟨hlv, hs, hpk⟩ := leave_moved hinv hm (.inr ⟨UInt8.ofNat m.minCpu, rfl⟩)
    obtain ⟨_, hg⟩ := hs.registered_of hmn
    exact ⟨_, hlv.tail (Move.steal m.priority hg (hinv.ready.fresh_drop hm) hpk (hok m hfn))⟩

lemma balanceLoad_moved (hr : s.balanceLoad me = some s')
    (hok : ∀ m, s.findMigration = some (some m) → ok (.queued m.thread m.minCpu)) :
    Moved ok s Q s' := by
  unfold balanceLoad at hr
  split at hr
  · cases hr
    exact stay
  split at hr
  · cases hr
    exact stay
  obtain ⟨found, hfn, rfl⟩ := map_eq_some_iff.mp hr
  cases found with
  | none => exact stay
  | some m =>
    dsimp only
    split
    · exact stay
    obtain ⟨hm, hmn⟩ := findMigration_spec hinv.ready hfn
    obtain ⟨hlv, hs, hpk⟩ := leave_moved hinv hm
      (migrateThreadLocked_rehomed _ m.thread m.maxCpu m.minCpu)
    obtain ⟨_, hg⟩ := hs.registered_of hmn
    rw [if_pos (by rw [hg]; rfl)]
    exact ⟨_, hlv.tail (Move.link m.priority hg (hinv.ready.fresh_drop hm) hpk (hok m hfn))⟩

lemma step_moved {op : Op n} (hvd : Valid s op) (hstep : step op s = some s')
    (hok : ∀ place, Explained s Q op place → ok place) : Moved ok s Q s' := by
  cases op with
  | addReady me t priority =>
    exact addReady_moved hstep ((queued_eq_false_iff hinv.ready t).mp hvd.1) hvd.2
      fun cpu hld => hok _ ⟨rfl, hld⟩
  | removeReady me t =>
    obtain ⟨⟨_, _⟩, hrm, rfl⟩ := map_eq_some_iff.mp hstep
    rcases removeReady_cases hinv.ready hrm with ⟨_, rfl⟩ | ⟨cpu, p, _, ht, rfl⟩
    · exact stay
    · exact withdraw_moved hinv.ready ht stay
  | schedule cpu irql =>
    cases hstep
    exact schedule_moved hinv cpu irql (fun t ht => hok _ ⟨rfl, ht⟩)
      fun hlt t p ht => hok _ ⟨rfl, hlt, p, ht⟩
  | setPriority me t priority => exact setPriority_moved hinv hstep fun cpu hld => hok _ ⟨rfl, hld⟩
  | kiBalanceProcessor me targetCpu =>
    exact kiBalanceProcessor_moved hinv hstep fun m hm => hok _ ⟨m, hm, rfl, rfl⟩
  | balanceLoad me => exact balanceLoad_moved hinv hstep fun m hm => hok _ ⟨m, hm, rfl, rfl⟩
  | mark t state =>
    cases hstep
    exact one (Move.mark t state (.inl hvd))

end

/-! ## Runs -/

/-- A run of operations, with `allowed` before each of them. -/
inductive Run (allowed : State n → Op n → Prop) : State n → List (Op n) → State n → Prop where
  | nil (s : State n) : Run allowed s [] s
  | cons {s s₁ s' : State n} {op : Op n} {ops : List (Op n)} (hallowed : allowed s op)
      (hstep : step op s = some s₁) (hrest : Run allowed s₁ ops s') : Run allowed s (op :: ops) s'

variable {ops : List (Op n)}

lemma Run.and {allowed allowed' : State n → Op n → Prop}
    (h : Run allowed s ops s') (h' : Run allowed' s ops s') :
    Run (fun s op => allowed s op ∧ allowed' s op) s ops s' := by
  induction h with
  | nil s => exact Run.nil s
  | cons hallowed hstep hrest ih =>
    cases h' with
    | cons hal' hs' hr' =>
      rw [hstep] at hs'
      cases hs'
      exact Run.cons ⟨hallowed, hal'⟩ hstep (ih hr')

lemma Moved.keeps {J : State n → Queues n → Prop}
    (hmv : ∀ {s Q s' Q'}, Inv s Q → Move ok (s, Q) (s', Q') → J s Q → J s' Q')
    (h : Moved ok s Q s') (hinv : Inv s Q) (hJ : J s Q) : ∃ Q', Inv s' Q' ∧ J s' Q' := by
  obtain ⟨Q', hpa⟩ := h
  have hcl := Lib.Prog.closed_of_step (R := Move ok)
    (I := fun v : State n × Queues n => Inv v.1 v.2 ∧ J v.1 v.2)
    (fun v w hvw hv => ⟨hv.1.move hvw, hmv hv.1 hvw hv.2⟩) hpa ⟨hinv, hJ⟩
  exact ⟨Q', hcl⟩

lemma Run.keeps {allowed : State n → Op n → Prop} {J : State n → Queues n → Prop}
    (hvd : ∀ s op, allowed s op → Valid s op)
    (hop : ∀ {s Q s' op}, Inv s Q → allowed s op → J s Q → Moved (Explained s Q op) s Q s' →
      ∃ Q', Inv s' Q' ∧ J s' Q') (hr : Run allowed s ops s') (hinv : Inv s Q) (hJ : J s Q) :
    ∃ Q', Inv s' Q' ∧ J s' Q' := by
  induction hr generalizing Q with
  | nil s => exact ⟨Q, hinv, hJ⟩
  | cons hallowed hstep _ ih =>
    have hmv := step_moved hinv (hvd _ _ hallowed) hstep fun _ h => h
    obtain ⟨_, hinv1, hJ1⟩ := hop hinv hallowed hJ hmv
    exact ih hinv1 hJ1

lemma Run.inv {allowed : State n → Op n → Prop}
    (hvd : ∀ s op, allowed s op → Valid s op) (hr : Run allowed s ops s') (hinv : Inv s Q) :
    ∃ Q', Inv s' Q' := by
  obtain ⟨Q', hi', _⟩ := hr.keeps (J := fun _ _ => True) hvd
    (fun hinv _ _ hmv => hmv.keeps (J := fun _ _ => True) (fun _ _ h => h) hinv trivial)
    hinv trivial
  exact ⟨Q', hi'⟩

lemma Inv.queues (hinv : Inv s Q) : Inv s s.queues := by
  rw [hinv.ready.queues_eq]
  exact hinv

/-- Every queue of every registered CPU is empty. -/
def Initial (s : State n) : Prop :=
  ∀ cpu prcb, s.prcb cpu = some prcb →
    prcb.readySummary = 0 ∧ ∀ p, prcb.readyQueues p = DList.Head.new

lemma Initial.inv (h : Initial s) : Inv s fun _ => [] := by
  have hhe : s.heads = fun _ => DList.Head.new := by
    funext ⟨cpu, p⟩
    unfold heads
    cases hg : s.prcb cpu with
    | none => rfl
    | some prcb => exact (h cpu prcb hg).2 p
  refine ⟨⟨?_, ?_⟩, nofun⟩
  · rw [hhe]
    exact DList.Represents.empty s.entries
  intro cpu prcb hg p
  rw [(h cpu prcb hg).1]
  simp

def booted (count : Nat) (threads : Fin n → Kthread) (current : Nat → Option (Fin n)) : State n :=
  { threads := threads
    entries := fun _ => ⟨none, none⟩
    cpus := fun cpu => if cpu < count then some (Prcb.new (current cpu)) else none
    currentCpu := 0
    numCpus := min count MAX_CPUS
    smpInitialized := true
    pendingReschedule := fun _ => false
    numCpus_le := Nat.min_le_right _ _ }

lemma booted_prcb {count : Nat} {threads : Fin n → Kthread} {current : Nat → Option (Fin n)}
    (hg : (booted count threads current).prcb cpu = some prcb) :
    prcb = Prcb.new (current cpu) := by
  unfold State.prcb booted at hg
  by_cases hlt : cpu < MAX_CPUS
  · by_cases hcn : cpu < count
    · simp only [hlt, hcn] at hg
      cases hg
      rfl
    · simp only [hlt, hcn] at hg
      cases hg
  · simp only [hlt] at hg
    cases hg

lemma booted_initial (count : Nat) (threads : Fin n → Kthread) (current : Nat → Option (Fin n)) :
    Initial (booted count threads current) := by
  intro cpu prcb hg
  rw [booted_prcb hg]
  exact ⟨rfl, fun _ => rfl⟩

lemma booted_current {count : Nat} {threads : Fin n → Kthread} {current : Nat → Option (Fin n)}
    (h : (booted count threads current).current cpu = some t) :
    current cpu = some t := by
  obtain ⟨_, hg, hcr⟩ := bind_eq_some_iff.mp h
  rw [booted_prcb hg] at hcr
  exact hcr

def Kthread.new (state : KThreadState) (priority : Int8) (affinityMask : BitVec 64) (homeCpu : UInt8) :
    Kthread :=
  { state := state, priority := priority, basePriority := priority, affinityMask := affinityMask,
    affinitized := 0, homeCpu := homeCpu, queuedPriority := 0xFF, queuedCpu := 0 }

def exec (ops : List (Op n)) (s : State n) : Option (State n) :=
  ops.foldlM (fun s op => step op s) s

end Nt61.Scheduler
