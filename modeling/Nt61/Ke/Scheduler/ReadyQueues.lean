/-
ReadyQueues — the ready queues as lists.

`Ready s Q`: the pointers of `s` hold the lists `Q`, no thread is on two of them, and the summary
words are right. Each way to change a queue is a change of one list (`Ready.enqueue`,
`Ready.dequeue`, `Ready.takeHead`), and all else stays (`Frame`).
-/
import Nt61.Ke.Scheduler.Model

namespace Nt61.Scheduler

open Function

variable {n : Nat} {s : State n}

/-! ## Summary words -/

lemma getLsbD_levelBit (p q : Level) : (levelBit p).getLsbD q = decide (q = p) := by
  revert p q
  decide

lemma getLsbD_set (x : BitVec 32) (p q : Level) :
    (x ||| levelBit p).getLsbD q = (decide (q = p) || x.getLsbD q) := by
  rw [BitVec.getLsbD_or, getLsbD_levelBit, Bool.or_comm]

lemma getLsbD_clear (x : BitVec 32) (p q : Level) :
    (x &&& ~~~(levelBit p)).getLsbD q = (!decide (q = p) && x.getLsbD q) := by
  rw [BitVec.getLsbD_and, BitVec.getLsbD_not, getLsbD_levelBit, Bool.and_comm]
  simp

lemma highestLevel_spec {x : BitVec 32} (hx : x ≠ 0) :
    x.getLsbD (highestLevel x) = true ∧ ∀ q : Level, x.getLsbD q = true → q ≤ highestLevel x := by
  constructor
  · exact BitVec.getLsbD_true_clz_of_ne_zero (by decide) hx
  intro q hq
  have hge : 2 ^ q.val ≤ x.toNat := Nat.ge_two_pow_of_testBit hq
  have hlt : 2 ^ q.val < 2 ^ (32 - x.clz.toNat) := lt_of_le_of_lt hge BitVec.toNat_lt_two_pow_sub_clz
  have hep : q.val < 32 - x.clz.toNat := (Nat.pow_lt_pow_iff_right (by decide)).mp hlt
  show q.val ≤ 31 - x.clz.toNat
  omega

/-! ## Which lists the pointers hold -/

abbrev Queues (n : Nat) := Nat × Level → List (Fin n)

def State.heads (s : State n) (k : Nat × Level) : ListHead n :=
  match s.prcb k.1 with
  | some prcb => prcb.readyQueues k.2
  | none => DList.Head.new

/-- The pointers and summary words of `s` hold the lists `Q`. -/
structure Ready (s : State n) (Q : Queues n) : Prop where
  queues : DList.Represents s.entries s.heads Q
  summary : ∀ {cpu prcb}, s.prcb cpu = some prcb →
    ∀ p : Level, prcb.readySummary.getLsbD p = !(Q (cpu, p)).isEmpty

variable {Q : Queues n} {cpu : Nat} {prcb : Prcb n}

open State

lemma heads_eq (hg : s.prcb cpu = some prcb) (p : Level) :
    s.heads (cpu, p) = prcb.readyQueues p := by
  unfold heads
  rw [hg]

lemma Ready.linked (h : Ready s Q) (hg : s.prcb cpu = some prcb)
    (p : Level) : DList.Linked s.entries (prcb.readyQueues p) (Q (cpu, p)) :=
  heads_eq hg p ▸ h.queues.linked (cpu, p)

variable {p : Level} {t : Fin n}

lemma Ready.eq_nil (h : Ready s Q) (hg : s.prcb cpu = none) : Q (cpu, p) = [] := by
  have hl := (h.queues.linked (cpu, p)).head
  unfold heads at hl
  rw [hg] at hl
  exact List.head?_eq_none_iff.mp hl.symm

lemma Ready.registered (h : Ready s Q) (ht : t ∈ Q (cpu, p)) : ∃ prcb, s.prcb cpu = some prcb := by
  cases hg : s.prcb cpu with
  | some prcb => exact ⟨prcb, rfl⟩
  | none =>
    rw [h.eq_nil hg] at ht
    cases ht

lemma Ready.length_le (h : Ready s Q) (k : Nat × Level) : (Q k).length ≤ n := by
  have hcd := (h.queues.linked k).nodup.length_le_card
  rwa [Fintype.card_fin] at hcd

/-! ## Changing one queue -/

lemma lt_of_prcb (hg : s.prcb cpu = some prcb) : cpu < MAX_CPUS := by
  unfold State.prcb at hg
  by_contra hge
  rw [if_neg hge] at hg
  cases hg

variable {prcb prcb' : Prcb n}

lemma store_prcb (hg : s.prcb cpu = some prcb) (entries : Fin n → ListEntry n) (c : Nat) :
    (s.store cpu prcb' entries).prcb c = if c = cpu then some prcb' else s.prcb c := by
  have hlt := lt_of_prcb hg
  unfold State.store State.prcb
  dsimp only
  by_cases hc : c = cpu
  · subst hc
    rw [if_pos hlt, if_pos rfl, update_self]
  · rw [if_neg hc, update_of_ne hc]

variable {queue : ListHead n}

lemma store_heads (hg : s.prcb cpu = some prcb)
    (hqu : prcb'.readyQueues = update prcb.readyQueues p queue) (entries : Fin n → ListEntry n) :
    (s.store cpu prcb' entries).heads = update s.heads (cpu, p) queue := by
  funext ⟨c, q⟩
  unfold heads
  rw [store_prcb hg]
  by_cases hc : c = cpu
  · subst hc
    by_cases hq : q = p
    · subst hq
      simp [hqu]
    · simp [hqu, hq, hg]
  · have hne : (c, q) ≠ (cpu, p) := fun h => hc (congrArg Prod.fst h)
    rw [if_neg hc, update_of_ne hne]

variable {l : List (Fin n)}

lemma Ready.store (h : Ready s Q) (hg : s.prcb cpu = some prcb) {entries : Fin n → ListEntry n}
    (hqu : prcb'.readyQueues = update prcb.readyQueues p queue)
    (hrp : DList.Represents entries (update s.heads (cpu, p) queue) (update Q (cpu, p) l))
    (hbt : prcb'.readySummary.getLsbD p = !l.isEmpty)
    (hbi : ∀ q : Level, q ≠ p → prcb'.readySummary.getLsbD q = prcb.readySummary.getLsbD q) :
    Ready (s.store cpu prcb' entries) (update Q (cpu, p) l) := by
  constructor
  · rw [store_heads hg hqu]
    exact hrp
  intro c prcb'' hc q
  rw [store_prcb hg] at hc
  by_cases hcp : c = cpu
  · subst hcp
    rw [if_pos rfl] at hc
    cases hc
    by_cases hq : q = p
    · rw [hq, update_self, hbt]
    · have hne : (c, q) ≠ (c, p) := fun h => hq (congrArg Prod.snd h)
      rw [update_of_ne hne, hbi q hq, h.summary hg]
  have hne : (c, q) ≠ (cpu, p) := fun h => hcp (congrArg Prod.fst h)
  rw [if_neg hcp] at hc
  rw [update_of_ne hne, h.summary hc]

def Queues.push (Q : Queues n) (cpu : Nat) (p : Level) (t : Fin n) : Queues n :=
  update Q (cpu, p) (Q (cpu, p) ++ [t])

def Queues.drop (Q : Queues n) (cpu : Nat) (p : Level) (t : Fin n) : Queues n :=
  update Q (cpu, p) ((Q (cpu, p)).erase t)

def Queues.Fresh (Q : Queues n) (t : Fin n) : Prop := ∀ k, t ∉ Q k

variable {t u : Fin n}

lemma Queues.mem_push {k : Nat × Level} :
    u ∈ Q.push cpu p t k ↔ u ∈ Q k ∨ (u = t ∧ k = (cpu, p)) := by
  unfold Queues.push
  by_cases hk : k = (cpu, p)
  · subst hk
    simp
  · simp [hk]

lemma Queues.mem_of_mem_drop {k : Nat × Level} (h : u ∈ Q.drop cpu p t k) : u ∈ Q k := by
  unfold Queues.drop at h
  by_cases hk : k = (cpu, p)
  · subst hk
    rw [update_self] at h
    exact List.mem_of_mem_erase h
  · rwa [update_of_ne hk] at h

lemma shrink_bit (hem : queue.isEmpty = l.isEmpty) (hst : prcb.readySummary.getLsbD p = true) :
    (prcb.shrink p queue).readySummary.getLsbD p = !l.isEmpty := by
  unfold Prcb.shrink
  rw [hem]
  cases l.isEmpty
  · exact hst
  show (prcb.readySummary &&& ~~~(levelBit p)).getLsbD p = false
  rw [getLsbD_clear, decide_eq_true rfl]
  rfl

lemma shrink_bits {p q : Level} (hq : q ≠ p) (queue : ListHead n) :
    (prcb.shrink p queue).readySummary.getLsbD q = prcb.readySummary.getLsbD q := by
  unfold Prcb.shrink
  cases queue.isEmpty
  · rfl
  show (prcb.readySummary &&& ~~~(levelBit p)).getLsbD q = _
  rw [getLsbD_clear, decide_eq_false hq]
  rfl

lemma Ready.enqueue (h : Ready s Q) (hg : s.prcb cpu = some prcb)
    (p : Level) (hfr : Q.Fresh t) : Ready (s.enqueue cpu p t) (Q.push cpu p t) := by
  have hrp := h.queues.addTail (cpu, p) hfr
  rw [heads_eq hg] at hrp
  unfold State.enqueue
  rw [hg]
  apply h.store hg rfl hrp
  · show (prcb.readySummary ||| levelBit p).getLsbD p = _
    rw [getLsbD_set]
    simp
  intro q hq
  show (prcb.readySummary ||| levelBit p).getLsbD q = _
  rw [getLsbD_set, decide_eq_false hq]
  rfl

lemma Ready.dequeue (h : Ready s Q) (ht : t ∈ Q (cpu, p)) :
    Ready (s.dequeue cpu p t) (Q.drop cpu p t) := by
  obtain ⟨prcb, hg⟩ := h.registered ht
  have hrp := h.queues.unlink ht
  rw [heads_eq hg] at hrp
  have hem := (hrp.linked (cpu, p)).isEmpty
  rw [update_self, update_self] at hem
  have hst : prcb.readySummary.getLsbD p = true := by
    rw [h.summary hg]
    cases hl : Q (cpu, p) with
    | nil => rw [hl] at ht; cases ht
    | cons a l => rfl
  unfold State.dequeue
  rw [hg]
  exact h.store hg rfl hrp (shrink_bit hem hst) fun q hq => shrink_bits hq _

lemma Ready.takeHead (h : Ready s Q) (hk : Q (cpu, p) = t :: l) :
    ∃ s', s.takeHead cpu p = (some t, s') ∧ Ready s' (update Q (cpu, p) l) := by
  have ht : t ∈ Q (cpu, p) := by rw [hk]; exact List.mem_cons_self
  obtain ⟨prcb, hg⟩ := h.registered ht
  obtain ⟨queue, entries, hr, hrp⟩ := h.queues.removeHead hk
  rw [heads_eq hg] at hr
  have hem := (hrp.linked (cpu, p)).isEmpty
  rw [update_self, update_self] at hem
  have hst : prcb.readySummary.getLsbD p = true := by rw [h.summary hg, hk]; rfl
  refine ⟨s.store cpu (prcb.shrink p queue) entries, ?_, ?_⟩
  · unfold State.takeHead
    simp only [hg, hr]
  · exact h.store hg rfl hrp (shrink_bit hem hst) fun q hq => shrink_bits hq _

/-! ## What a queue operation leaves alone -/

/-- The two states differ in their queues only. -/
structure Frame (s s' : State n) : Prop where
  threads : s'.threads = s.threads
  current : s'.current = s.current
  registered : ∀ cpu, (s'.prcb cpu).isSome = (s.prcb cpu).isSome
  smpInitialized : s'.smpInitialized = s.smpInitialized
  currentCpu : s'.currentCpu = s.currentCpu
  numCpus : s'.numCpus = s.numCpus

lemma Frame.refl (s : State n) : Frame s s := ⟨rfl, rfl, fun _ => rfl, rfl, rfl, rfl⟩

lemma Frame.store (hg : s.prcb cpu = some prcb) (prcb' : Prcb n)
    (entries : Fin n → ListEntry n) (hcr : prcb'.currentThread = prcb.currentThread) :
    Frame s (s.store cpu prcb' entries) := by
  refine ⟨rfl, ?_, ?_, rfl, rfl, rfl⟩
  · funext c
    unfold State.current
    rw [store_prcb hg]
    by_cases hc : c = cpu
    · subst hc
      rw [if_pos rfl, hg]
      exact hcr
    · rw [if_neg hc]
  intro c
  rw [store_prcb hg]
  by_cases hc : c = cpu
  · subst hc
    rw [if_pos rfl, hg]
    rfl
  · rw [if_neg hc]

lemma enqueue_frame (s : State n) (cpu : Nat) (p : Level) (t : Fin n) :
    Frame s (s.enqueue cpu p t) := by
  unfold enqueue
  cases hg : s.prcb cpu with
  | none => exact Frame.refl s
  | some prcb => exact Frame.store hg _ _ rfl

lemma dequeue_frame (s : State n) (cpu : Nat) (p : Level) (t : Fin n) :
    Frame s (s.dequeue cpu p t) := by
  unfold dequeue
  cases hg : s.prcb cpu with
  | none => exact Frame.refl s
  | some prcb => exact Frame.store hg _ _ rfl

lemma takeHead_frame (s : State n) (cpu : Nat) (p : Level) : Frame s (s.takeHead cpu p).2 := by
  unfold takeHead
  cases hg : s.prcb cpu with
  | none => exact Frame.refl s
  | some prcb =>
    dsimp only
    cases DList.removeHead (prcb.readyQueues p) s.entries with
    | none => exact Frame.refl s
    | some taken => exact Frame.store hg _ _ rfl

/-! ## Threads -/

lemma modifyThread_self (s : State n) (t : Fin n) (f : Kthread → Kthread) :
    (s.modifyThread t f).threads t = f (s.threads t) :=
  update_self _ _ _

lemma modifyThread_of_ne (h : u ≠ t) (f : Kthread → Kthread) :
    (s.modifyThread t f).threads u = s.threads u :=
  update_of_ne h _ _

lemma modifyThread_field {α : Type} (field : Kthread → α) {f : Kthread → Kthread}
    (h : field (f (s.threads t)) = field (s.threads t)) (u : Fin n) :
    field ((s.modifyThread t f).threads u) = field (s.threads u) := by
  by_cases hu : u = t
  · subst hu
    rw [modifyThread_self, h]
  · rw [modifyThread_of_ne hu]

lemma setState_self (s : State n) (t : Fin n) (state : KThreadState) :
    (s.setState t state).threads t = { s.threads t with state := state } :=
  modifyThread_self s t _

lemma setState_of_ne (h : u ≠ t) (state : KThreadState) :
    (s.setState t state).threads u = s.threads u :=
  modifyThread_of_ne h _

/-! ## What leaves the queues alone -/

lemma Ready.modifyThread (h : Ready s Q) (t : Fin n) (f : Kthread → Kthread) :
    Ready (s.modifyThread t f) Q :=
  ⟨h.queues, h.summary⟩

lemma Ready.setState (h : Ready s Q) (t : Fin n) (state : KThreadState) :
    Ready (s.setState t state) Q :=
  ⟨h.queues, h.summary⟩

lemma requestReschedule_same (s : State n) (cpu : Nat) :
    (s.requestReschedule cpu).threads = s.threads ∧ (s.requestReschedule cpu).current = s.current := by
  unfold requestReschedule
  split
  · exact ⟨rfl, rfl⟩
  · exact ⟨rfl, rfl⟩

lemma Ready.requestReschedule (h : Ready s Q) (cpu : Nat) : Ready (s.requestReschedule cpu) Q := by
  unfold State.requestReschedule
  split
  · exact ⟨h.queues, h.summary⟩
  · exact h

lemma setCurrent_prcb (hg : s.prcb cpu = some prcb) (t : Fin n) (c : Nat) :
    (s.setCurrent cpu t).prcb c
      = if c = cpu then some { prcb with currentThread := some t } else s.prcb c := by
  unfold setCurrent
  rw [hg]
  exact store_prcb hg s.entries c

lemma setCurrent_threads (s : State n) (cpu : Nat) (t : Fin n) :
    (s.setCurrent cpu t).threads = s.threads := by
  unfold setCurrent
  cases s.prcb cpu <;> rfl

lemma setCurrent_current (hg : s.prcb cpu = some prcb) (t : Fin n) :
    (s.setCurrent cpu t).current = update s.current cpu (some t) := by
  funext c
  unfold current
  rw [setCurrent_prcb hg]
  by_cases hc : c = cpu
  · subst hc
    rw [if_pos rfl, update_self]
    rfl
  · rw [if_neg hc, update_of_ne hc]

lemma Ready.setCurrent (h : Ready s Q) (cpu : Nat) (t : Fin n) : Ready (s.setCurrent cpu t) Q := by
  cases hg : s.prcb cpu with
  | none =>
    unfold State.setCurrent
    rw [hg]
    exact h
  | some prcb =>
    have hhe : (s.setCurrent cpu t).heads = s.heads := by
      funext ⟨c, p⟩
      unfold heads
      rw [setCurrent_prcb hg]
      by_cases hc : c = cpu
      · subst hc
        rw [if_pos rfl, hg]
      · rw [if_neg hc]
    have hes : (s.setCurrent cpu t).entries = s.entries := by
      unfold State.setCurrent
      rw [hg]
      rfl
    constructor
    · rw [hhe, hes]
      exact h.queues
    intro c prcb' hc p
    rw [setCurrent_prcb hg] at hc
    by_cases hcp : c = cpu
    · subst hcp
      rw [if_pos rfl] at hc
      cases hc
      exact h.summary hg p
    · rw [if_neg hcp] at hc
      exact h.summary hc p

end Nt61.Scheduler
