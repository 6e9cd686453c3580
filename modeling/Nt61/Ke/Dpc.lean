/-
Dpc — `ke/dpc.rs`: deferred procedure calls.

`drain` marks the waiting slots as fired and copies what they hold, runs the copied routines without
the lock, and clears the marked slots; a routine may insert DPCs while it runs. The abstract queue
is a ledger: an insertion opens an entry for a slot, and a run or a removal of that very DPC closes
it (`run_dpcs`). `drain` ends by clearing `DPC_NEEDED`, also if a routine has inserted a DPC
meanwhile.
-/
import Nt61.Ke.Scheduler.Model
import Nt61.Lib.Run

namespace Nt61.DpcQueue

open Lib Scheduler Function List

/-! ## The table -/

def MAX_DPCS : Nat := 8

/-- The fields of `Dpc` that decide what runs. Context 0 is the null pointer. -/
structure Dpc (R : Type) where
  routine : Option R
  context : Nat
  deriving DecidableEq

structure Slot (R : Type) where
  dpc : Dpc R
  inserted : Bool
  fired : Bool
  deriving DecidableEq

def Slot.empty {R : Type} : Slot R := ⟨⟨none, 0⟩, false, false⟩

abbrev Index := Fin MAX_DPCS

/-- What has happened to the DPCs. -/
inductive Event (R : Type) where
  | inserted (i : Index) (dpc : Dpc R)
  | ran (i : Index) (dpc : Dpc R)
  | removed (i : Index) (dpc : Dpc R)

/-- The table, the flags and counters around it, how many routines have run, and the history. -/
structure Queue (R : Type) where
  slots : Index → Slot R
  needed : Bool
  insertCount : BitVec 32
  fireCount : BitVec 32
  routineActive : Bool
  interruptRequested : Bool
  runs : Nat
  log : List (Event R)

def Queue.new {R : Type} : Queue R :=
  { slots := fun _ => Slot.empty, needed := false, insertCount := 0, fireCount := 0,
    routineActive := false, interruptRequested := false, runs := 0, log := [] }

variable {R : Type} [DecidableEq R]

namespace Queue

variable (w : Queue R)

/-- Put a DPC into the first slot that is not in use. (A slot of zero bytes is not in use.) -/
def place (dpc : Dpc R) : Option Index × Queue R :=
  match (finRange MAX_DPCS).find? fun i => !(w.slots i).inserted with
  | none => (none, w)
  | some i =>
    (some i, { w with
      slots := update w.slots i ⟨dpc, true, false⟩
      insertCount := w.insertCount + 1
      needed := true
      log := w.log ++ [.inserted i dpc] })

def insert (routine : R) (context : Nat) : Option Index × Queue R := w.place ⟨some routine, context⟩

/-- A null pointer, and an IRQL above `DISPATCH_LEVEL`, are refused. -/
def keInsertQueueDpc (dpc : Option (Dpc R)) (irql : Nat) : Bool × Queue R :=
  match dpc with
  | none => (false, w)
  | some dpc =>
    if irql > DISPATCH_LEVEL then (false, w)
    else ((w.place dpc).1.isSome, (w.place dpc).2)

def removeDpc (dpc : Option (Dpc R)) : Bool × Queue R :=
  match dpc with
  | none => (false, w)
  | some dpc =>
    match (finRange MAX_DPCS).find? fun i =>
      (w.slots i).inserted && decide ((w.slots i).dpc = dpc) with
    | none => (false, w)
    | some i =>
      (true, { w with
        slots := update w.slots i ⟨⟨none, 0⟩, false, (w.slots i).fired⟩
        log := w.log ++ [.removed i dpc] })

end Queue

open Queue

inductive Request (R : Type) where
  | insert (routine : R) (context : Nat)
  | keInsertQueueDpc (dpc : Option (Dpc R)) (irql : Nat)

variable (w : Queue R)

def Queue.perform : Request R → Queue R
  | .insert routine context => (w.insert routine context).2
  | .keInsertQueueDpc dpc irql => (w.keInsertQueueDpc dpc irql).2

/-! ## Draining.

`env k` is what the `k`-th routine to run inserts. -/

def Slot.pending (slot : Slot R) : Option (Dpc R) :=
  if slot.inserted && !slot.fired && slot.dpc.routine.isSome then some slot.dpc else none

def Slot.mark (slot : Slot R) : Slot R :=
  if slot.inserted && !slot.fired then { slot with fired := true } else slot

namespace Queue

def collect : Queue R := { w with slots := fun i => (w.slots i).mark }

def runRoutine (env : Nat → List (Request R)) (w : Queue R) (i : Index) (dpc : Dpc R) : Queue R :=
  (env w.runs).foldl perform { w with runs := w.runs + 1, log := w.log ++ [.ran i dpc] }

def runPending (env : Nat → List (Request R)) (pending : Index → Option (Dpc R)) (is : List Index)
    (w : Queue R) : Queue R :=
  is.foldl (fun w i =>
    match pending i with
    | none => w
    | some dpc => w.runRoutine env i dpc) w

def clearPending (pending : Index → Option (Dpc R)) (w : Queue R) : Queue R :=
  { w with slots := fun i => if (pending i).isSome then Slot.empty else w.slots i }

def pending (i : Index) : Option (Dpc R) := (w.slots i).pending

def pendingCount : Nat := (finRange MAX_DPCS).countP fun i => (w.pending i).isSome

def drain (env : Nat → List (Request R)) (w : Queue R) : Nat × Queue R :=
  let w' := (w.collect.runPending env w.pending (finRange MAX_DPCS)).clearPending w.pending
  (w.pendingCount,
    { w' with needed := false, fireCount := w'.fireCount + BitVec.ofNat 32 w.pendingCount })

/-- The loop of `ki_retire_dpc_list`. `none`: it takes more than `fuel` rounds. -/
def retireLoop (env : Nat → List (Request R)) : Nat → Queue R → Option (Queue R)
  | 0, _ => none
  | fuel + 1, w =>
    if !w.needed then some w
    else
      let w := { (drain env { w with routineActive := true }).2 with routineActive := false }
      if !w.needed then some w else retireLoop env fuel w

/-- `ki_retire_dpc_list`. A round of its loop leaves nothing needed, so one round is enough. -/
def kiRetireDpcList (env : Nat → List (Request R)) (w : Queue R) : Option (Queue R) :=
  (retireLoop env 1 w).map fun w => { w with interruptRequested := false }

end Queue

inductive Op (R : Type) where
  | request (q : Request R)
  | removeDpc (dpc : Option (Dpc R))
  | drain
  | kiRetireDpcList

def step (env : Nat → List (Request R)) : Op R → Queue R → Option (Queue R)
  | .request q, w => some (w.perform q)
  | .removeDpc dpc, w => some (w.removeDpc dpc).2
  | .drain, w => some (w.drain env).2
  | .kiRetireDpcList, w => w.kiRetireDpcList env

/-! ## The ledger -/

/-- The DPC that each slot owes: inserted, and neither run nor removed. -/
abbrev Ledger (R : Type) := Index → Option (Dpc R)

/-- An insertion opens an entry; a run or a removal closes the entry of the same DPC. -/
def post (ledger : Ledger R) : Event R → Option (Ledger R)
  | .inserted i dpc => if ledger i = none then some (update ledger i (some dpc)) else none
  | .ran i dpc => if ledger i = some dpc then some (update ledger i none) else none
  | .removed i dpc => if ledger i = some dpc then some (update ledger i none) else none

/-- `none`: some event of the history does not fit. -/
def replay (log : List (Event R)) : Option (Ledger R) := log.foldlM post fun _ => none

lemma replay_snoc {log : List (Event R)} {ledger : Ledger R} (h : replay log = some ledger)
    (e : Event R) : replay (log ++ [e]) = post ledger e := by
  unfold replay at h ⊢
  rw [foldlM_append, h]
  simp

def Slot.unrun (slot : Slot R) : Option (Dpc R) :=
  if slot.inserted && !slot.fired then some slot.dpc else none

/-- What the slots owe while `drain` runs the DPCs of `pending`, with those of `done` behind it. -/
def owed (pending : Index → Option (Dpc R)) (done : List Index) (w : Queue R) : Ledger R := fun i =>
  if (pending i).isSome then (if i ∈ done then none else pending i) else (w.slots i).unrun

/-- The history is what the slots say, inside `drain` or, with nothing pending, outside. -/
structure Track (pending : Index → Option (Dpc R)) (done : List Index) (w : Queue R) : Prop where
  taken : ∀ i, (pending i).isSome = true → (w.slots i).inserted = true ∧ (w.slots i).fired = true
  clean : ∀ i, pending i = none → (w.slots i).inserted = true →
    (w.slots i).fired = false ∧ (w.slots i).dpc.routine.isSome = true
  ledger : replay w.log = some (owed pending done w)

/-- Outside `drain`. -/
def Settled : Prop := Track (fun _ => none) [] w

lemma new_settled : Settled (new : Queue R) where
  taken := nofun
  clean := nofun
  ledger := rfl

variable {w : Queue R} {pending : Index → Option (Dpc R)} {done : List Index}
  {env : Nat → List (Request R)}

variable {w' : Queue R}

lemma Settled.congr (h : Settled w) (hss : w'.slots = w.slots)
    (hlg : w'.log = w.log) : Settled w' := by
  refine Track.mk ?_ ?_ ?_
  · rw [hss]
    exact h.taken
  · rw [hss]
    exact h.clean
  rw [hlg, h.ledger]
  unfold owed
  rw [hss]

/-! ### Insertions and removals -/

omit [DecidableEq R] in
lemma place_cases (w : Queue R) (dpc : Dpc R) :
    (∀ i, (w.slots i).inserted = true) ∧ (w.place dpc) = (none, w)
      ∨ ∃ i, (w.slots i).inserted = false ∧ (w.place dpc) = (some i, { w with
          slots := update w.slots i ⟨dpc, true, false⟩
          insertCount := w.insertCount + 1
          needed := true
          log := w.log ++ [.inserted i dpc] }) := by
  unfold place
  cases hfi : (finRange MAX_DPCS).find? fun i => !(w.slots i).inserted with
  | none =>
    left
    refine ⟨?_, rfl⟩
    intro i
    have hn := find?_eq_none.mp hfi i (mem_finRange i)
    simpa using hn
  | some i =>
    right
    refine ⟨i, ?_, rfl⟩
    have hso := find?_some hfi
    simpa using hso

lemma Track.place {dpc : Dpc R} (h : Track pending done w)
    (hrt : dpc.routine.isSome = true) : Track pending done (w.place dpc).2 := by
  rcases place_cases w dpc with ⟨_, heq⟩ | ⟨i, hf, heq⟩
  · rw [heq]
    exact h
  have hpn : pending i = none := by
    cases hp : pending i with
    | none => rfl
    | some p =>
      have hin := (h.taken i (by rw [hp]; rfl)).1
      rw [hf] at hin
      cases hin
  rw [heq]
  refine ⟨?_, ?_, ?_⟩
  · intro j hj
    have hne : j ≠ i := by
      intro hji
      rw [hji, hpn] at hj
      cases hj
    show (update w.slots i _ j).inserted = true ∧ (update w.slots i _ j).fired = true
    rw [update_of_ne hne]
    exact h.taken j hj
  · intro j hj
    show (update w.slots i ⟨dpc, true, false⟩ j).inserted = true →
      (update w.slots i ⟨dpc, true, false⟩ j).fired = false
        ∧ (update w.slots i ⟨dpc, true, false⟩ j).dpc.routine.isSome = true
    by_cases hji : j = i
    · rw [hji, update_self]
      exact fun _ => ⟨rfl, hrt⟩
    · rw [update_of_ne hji]
      exact h.clean j hj
  rw [replay_snoc h.ledger]
  have hn : owed pending done w i = none := by simp [owed, hpn, Slot.unrun, hf]
  rw [post, if_pos hn]
  congr 1
  funext j
  by_cases hji : j = i
  · rw [hji]
    simp [owed, hpn, Slot.unrun]
  · simp [owed, update_of_ne hji]

def Request.dpc : Request R → Option (Dpc R)
  | .insert routine context => some ⟨some routine, context⟩
  | .keInsertQueueDpc dpc irql => if irql > DISPATCH_LEVEL then none else dpc

def Request.HasRoutine (q : Request R) : Prop := ∀ dpc, q.dpc = some dpc → dpc.routine.isSome = true

omit [DecidableEq R] in
lemma perform_eq (w : Queue R) (q : Request R) : w.perform q = match q.dpc with
      | none => w
      | some dpc => (w.place dpc).2 := by
  cases q with
  | insert routine context => rfl
  | keInsertQueueDpc dpc irql =>
    unfold perform keInsertQueueDpc Request.dpc
    cases dpc with
    | none => simp
    | some dpc =>
      by_cases hiq : irql > DISPATCH_LEVEL
      · simp [hiq]
      · simp [hiq]

lemma Track.perform (h : Track pending done w) {q : Request R} (hrt : q.HasRoutine) :
    Track pending done (w.perform q) := by
  rw [perform_eq]
  cases hq : q.dpc with
  | none => exact h
  | some dpc => exact h.place (hrt dpc hq)

lemma Settled.removeDpc (h : Settled w) (dpc : Option (Dpc R)) : Settled (w.removeDpc dpc).2 := by
  unfold Queue.removeDpc
  cases dpc with
  | none => exact h
  | some dpc =>
    dsimp only
    cases hfi : (finRange MAX_DPCS).find? fun i =>
      (w.slots i).inserted && decide ((w.slots i).dpc = dpc) with
    | none => exact h
    | some i =>
      have hfn := find?_some hfi
      simp only [Bool.and_eq_true, decide_eq_true_eq] at hfn
      obtain ⟨hin, hdp⟩ := hfn
      obtain ⟨hfr, _⟩ := h.clean i rfl hin
      let gone : Slot R := ⟨⟨none, 0⟩, false, (w.slots i).fired⟩
      refine Track.mk nofun ?_ ?_
      · intro j _
        show (update w.slots i gone j).inserted = true → (update w.slots i gone j).fired = false
            ∧ (update w.slots i gone j).dpc.routine.isSome = true
        by_cases hji : j = i
        · rw [hji, update_self]
          exact nofun
        · rw [update_of_ne hji]
          exact h.clean j rfl
      have hod : owed (fun _ => none) [] w i = some dpc := by simp [owed, Slot.unrun, hin, hfr, hdp]
      rw [replay_snoc h.ledger, post, if_pos hod]
      congr 1
      funext j
      by_cases hji : j = i
      · rw [hji]
        simp [owed, Slot.unrun]
      · simp [owed, update_of_ne hji]

/-! ### The phases of `drain` -/

lemma Settled.collect (h : Settled w) : Track w.pending [] w.collect := by
  have hmk : ∀ i, (w.slots i).inserted = true →
      w.pending i = some (w.slots i).dpc ∧ (w.slots i).mark = { w.slots i with fired := true } := by
    intro i hin
    obtain ⟨hfr, hrt⟩ := h.clean i rfl hin
    simp [pending, Slot.pending, Slot.mark, hin, hfr, hrt]
  have hid : ∀ i, (w.slots i).inserted = false →
      w.pending i = none ∧ (w.slots i).mark = w.slots i := by
    intro i ho
    simp [pending, Slot.pending, Slot.mark, ho]
  refine ⟨?_, ?_, ?_⟩
  · intro i hi
    show (w.slots i).mark.inserted = true ∧ (w.slots i).mark.fired = true
    cases hin : (w.slots i).inserted with
    | false =>
      rw [(hid i hin).1] at hi
      cases hi
    | true =>
      rw [(hmk i hin).2]
      exact ⟨hin, rfl⟩
  · intro i hi
    show (w.slots i).mark.inserted = true → (w.slots i).mark.fired = false ∧ _
    cases hin : (w.slots i).inserted with
    | false =>
      rw [(hid i hin).2, hin]
      exact nofun
    | true =>
      rw [(hmk i hin).1] at hi
      cases hi
  show replay w.log = _
  rw [h.ledger]
  congr 1
  funext i
  cases hin : (w.slots i).inserted with
  | false => simp [owed, hid i hin, Queue.collect]
  | true =>
    have hfr := (h.clean i rfl hin).1
    simp [owed, hmk i hin, Slot.unrun, hin, hfr]

lemma Track.requests (h : Track pending done w) {qs : List (Request R)}
    (hrt : ∀ q ∈ qs, q.HasRoutine) : Track pending done (qs.foldl Queue.perform w) := by
  induction qs generalizing w with
  | nil => exact h
  | cons q qs ih =>
    exact ih (h.perform (hrt q mem_cons_self)) fun q' hq' => hrt q' (mem_cons_of_mem q hq')

lemma Track.runRoutine {dpc : Dpc R} (h : Track pending done w) {i : Index}
    (hi : pending i = some dpc) (hw : i ∉ done) (hrt : ∀ q ∈ env w.runs, q.HasRoutine) :
    Track pending (i :: done) (w.runRoutine env i dpc) := by
  have hrn : Track pending (i :: done)
      { w with runs := w.runs + 1, log := w.log ++ [.ran i dpc] } := by
    refine ⟨h.taken, h.clean, ?_⟩
    have hod : owed pending done w i = some dpc := by simp [owed, hi, hw]
    rw [replay_snoc h.ledger, post, if_pos hod]
    congr 1
    funext j
    by_cases hji : j = i
    · rw [hji]
      simp [owed, hi]
    · simp [owed, hji]
  exact hrn.requests hrt

omit [DecidableEq R] in
lemma perform_runs (w : Queue R) (q : Request R) : (w.perform q).runs = w.runs := by
  rw [perform_eq]
  cases q.dpc with
  | none => rfl
  | some dpc =>
    rcases place_cases w dpc with ⟨_, heq⟩ | ⟨i, _, heq⟩
    · simp only [heq]
    · simp only [heq]

omit [DecidableEq R] in
lemma runRoutine_runs (env : Nat → List (Request R)) (w : Queue R) (i : Index) (dpc : Dpc R) :
    (w.runRoutine env i dpc).runs = w.runs + 1 := by
  have hrq : ∀ (qs : List (Request R)) (w : Queue R), (qs.foldl perform w).runs = w.runs := by
    intro qs
    induction qs with
    | nil => intro w; rfl
    | cons q qs ih =>
      intro w
      rw [foldl_cons, ih, perform_runs]
  exact hrq _ _

lemma Track.runPending (is : List Index) (h : Track pending done w) (hnd : is.Nodup)
    (hw : ∀ i ∈ is, i ∉ done) (hrt : ∀ k < is.countP (fun i => (pending i).isSome),
      ∀ q ∈ env (w.runs + k), q.HasRoutine) :
    ∃ done', (∀ i ∈ is, (pending i).isSome = true → i ∈ done')
      ∧ (∀ i ∈ done, i ∈ done') ∧ Track pending done' (w.runPending env pending is) := by
  induction is generalizing w done with
  | nil => exact ⟨done, nofun, fun i hi => hi, h⟩
  | cons i is ih =>
    obtain ⟨hi, hnd'⟩ := nodup_cons.mp hnd
    unfold runPending at ih ⊢
    rw [foldl_cons]
    cases hp : pending i with dsimp only
    | none =>
      rw [countP_cons_of_neg (by simp [hp])] at hrt
      obtain ⟨done', hdn, hkp, htr⟩ := ih h hnd' (fun j hj => hw j (mem_cons_of_mem i hj)) hrt
      refine ⟨done', ?_, hkp, htr⟩
      intro j hj hjp
      rcases mem_cons.mp hj with rfl | hj
      · rw [hp] at hjp
        cases hjp
      · exact hdn j hj hjp
    | some dpc =>
      rw [countP_cons_of_pos (by simp [hp])] at hrt
      have hfs := h.runRoutine hp (hw i mem_cons_self) (hrt 0 (by omega))
      have hr : ∀ k < is.countP (fun i => (pending i).isSome),
          ∀ q ∈ env ((w.runRoutine env i dpc).runs + k), q.HasRoutine := by
        intro k hk
        rw [runRoutine_runs, Nat.add_assoc, Nat.add_comm 1 k]
        exact hrt (k + 1) (by omega)
      have hfr : ∀ j ∈ is, j ∉ i :: done := by
        intro j hj hm
        rcases mem_cons.mp hm with rfl | hm
        · exact hi hj
        · exact hw j (mem_cons_of_mem i hj) hm
      obtain ⟨done', hdn, hkp, htr⟩ := ih hfs hnd' hfr hr
      refine ⟨done', ?_, fun j hj => hkp j (mem_cons_of_mem i hj), htr⟩
      intro j hj hjp
      rcases mem_cons.mp hj with rfl | hj
      · exact hkp j mem_cons_self
      · exact hdn j hj hjp

lemma Track.clearPending (h : Track pending done w)
    (hdn : ∀ i, (pending i).isSome = true → i ∈ done) : Settled (w.clearPending pending) := by
  refine Track.mk nofun ?_ ?_
  · intro i _
    show (if (pending i).isSome then Slot.empty else w.slots i).inserted = true →
      (if (pending i).isSome then Slot.empty else w.slots i).fired = false
        ∧ (if (pending i).isSome then Slot.empty else w.slots i).dpc.routine.isSome = true
    cases hp : pending i with
    | none => exact h.clean i hp
    | some dpc => exact nofun
  show replay w.log = _
  rw [h.ledger]
  congr 1
  funext i
  cases hp : pending i with
  | none => simp [owed, hp, Queue.clearPending]
  | some dpc =>
    have hm := hdn i (by rw [hp]; rfl)
    simp [owed, hp, hm, Queue.clearPending, Slot.empty, Slot.unrun]

/-- The insertions of the routines that `drain` runs. -/
def Nested (env : Nat → List (Request R)) (w : Queue R) (P : Request R → Prop) : Prop :=
  ∀ k < w.pendingCount, ∀ q ∈ env (w.runs + k), P q

lemma Settled.drain (h : Settled w) (hrt : Nested env w Request.HasRoutine) :
    Settled (w.drain env).2 := by
  obtain ⟨_, hdn, _, htr⟩ := h.collect.runPending (finRange MAX_DPCS) (nodup_finRange _) nofun hrt
  exact (htr.clearPending fun i => hdn i (mem_finRange i)).congr rfl rfl

/-! ## `ki_retire_dpc_list` -/

omit [DecidableEq R] in
lemma kiRetireDpcList_idle (hne : w.needed = false) :
    w.kiRetireDpcList env = some { w with interruptRequested := false } := by
  simp [kiRetireDpcList, retireLoop, hne]

omit [DecidableEq R] in
lemma kiRetireDpcList_needed (hne : w.needed = true) :
    w.kiRetireDpcList env = some { (drain env { w with routineActive := true }).2 with
      routineActive := false, interruptRequested := false } := by
  unfold kiRetireDpcList retireLoop
  rw [if_neg (by simp [hne])]
  rfl

/-- In every operation that drains, the routines that run insert DPCs with a routine only. -/
def WithRoutines (env : Nat → List (Request R)) (w : Queue R) : Op R → Prop
  | .request q => q.HasRoutine
  | .removeDpc _ => True
  | .drain => Nested env w Request.HasRoutine
  | .kiRetireDpcList => w.needed = true → Nested env w Request.HasRoutine

lemma Settled.step {op : Op R} (h : Settled w) (hrt : WithRoutines env w op)
    (hs : step env op w = some w') : Settled w' := by
  cases op with
  | request q =>
    cases hs
    exact Track.perform h hrt
  | removeDpc dpc =>
    cases hs
    exact h.removeDpc dpc
  | drain =>
    cases hs
    exact h.drain hrt
  | kiRetireDpcList =>
    have hs : w.kiRetireDpcList env = some w' := hs
    cases hne : w.needed with
    | false =>
      rw [kiRetireDpcList_idle hne] at hs
      cases hs
      exact h.congr rfl rfl
    | true =>
      rw [kiRetireDpcList_needed hne] at hs
      cases hs
      have hac : Settled { w with routineActive := true } := h.congr rfl rfl
      exact (hac.drain (hrt hne)).congr rfl rfl

/-! ### What stays behind -/

/-- Nothing is inserted while `drain` runs: the table is full, or the routines do not try to. -/
def Quiet (env : Nat → List (Request R)) (w : Queue R) : Op R → Prop
  | .drain => (∀ i, (w.slots i).inserted = true) ∨ Nested env w fun q => q.dpc = none
  | .kiRetireDpcList => w.needed = true →
      (∀ i, (w.slots i).inserted = true) ∨ Nested env w fun q => q.dpc = none
  | _ => True

omit [DecidableEq R] in
lemma perform_idle {q : Request R}
    (h : (∀ i, (w.slots i).inserted = true) ∨ q.dpc = none) : w.perform q = w := by
  rw [perform_eq]
  cases hq : q.dpc with
  | none => rfl
  | some dpc =>
    have hfl := h.resolve_right fun hn => by rw [hq] at hn; cases hn
    rcases place_cases w dpc with ⟨_, heq⟩ | ⟨i, hf, _⟩
    · simp only [heq]
    · rw [hfl i] at hf
      cases hf

omit [DecidableEq R] in
lemma requests_idle {qs : List (Request R)}
    (h : (∀ i, (w.slots i).inserted = true) ∨ ∀ q ∈ qs, q.dpc = none) : qs.foldl perform w = w := by
  induction qs with
  | nil => rfl
  | cons q qs ih =>
    rw [foldl_cons, perform_idle (h.imp id fun hq => hq q mem_cons_self)]
    exact ih (h.imp id fun hq q' hq' => hq q' (mem_cons_of_mem q hq'))

omit [DecidableEq R] in
lemma runPending_idle (is : List Index) (h : (∀ i, (w.slots i).inserted = true)
      ∨ ∀ k < is.countP (fun i => (pending i).isSome), ∀ q ∈ env (w.runs + k), q.dpc = none) :
    (w.runPending env pending is).slots = w.slots := by
  unfold runPending
  induction is generalizing w with
  | nil => rfl
  | cons i is ih =>
    rw [foldl_cons]
    cases hp : pending i with
    | none =>
      rw [countP_cons_of_neg (by simp [hp])] at h
      exact ih h
    | some dpc =>
      rw [countP_cons_of_pos (by simp [hp])] at h
      dsimp only
      have hr : w.runRoutine env i dpc
          = { w with runs := w.runs + 1, log := w.log ++ [.ran i dpc] } := by
        exact requests_idle (h.imp id fun hq => hq 0 (by omega))
      rw [hr, ih]
      refine h.imp id fun hq k hk => ?_
      dsimp only
      rw [Nat.add_assoc, Nat.add_comm 1 k]
      exact hq (k + 1) (by omega)

lemma Settled.drain_empty (h : Settled w)
    (hqt : (∀ i, (w.slots i).inserted = true) ∨ Nested env w fun q => q.dpc = none) (i : Index) :
    ((w.drain env).2.slots i).inserted = false := by
  have hmk : ∀ i, (w.slots i).mark.inserted = (w.slots i).inserted := by
    intro i
    unfold Slot.mark
    split
    · rfl
    · rfl
  have hs : (w.collect.runPending env w.pending (finRange MAX_DPCS)).slots = w.collect.slots := by
    apply runPending_idle
    rcases hqt with hfl | hns
    · exact Or.inl fun i => (hmk i).trans (hfl i)
    · exact Or.inr hns
  show (if (w.pending i).isSome then Slot.empty else
    (w.collect.runPending env w.pending (finRange MAX_DPCS)).slots i).inserted = false
  rw [hs]
  cases hin : (w.slots i).inserted with
  | false =>
    have hpn : w.pending i = none := by simp [pending, Slot.pending, hin]
    rw [hpn]
    exact (hmk i).trans hin
  | true =>
    obtain ⟨hfr, hrt⟩ := h.clean i rfl hin
    have hpn : w.pending i = some (w.slots i).dpc := by simp [pending, Slot.pending, hin, hfr, hrt]
    rw [hpn]
    rfl

/-- While the operations are quiet, a slot in use makes `DPC_NEEDED` true. -/
structure Inv (w : Queue R) : Prop where
  settled : Settled w
  needed : ∀ i, (w.slots i).inserted = true → w.needed = true

lemma Inv.retired (h : Inv w) (hqt : Quiet env w .kiRetireDpcList)
    (hr : w.kiRetireDpcList env = some w') (i : Index) : (w'.slots i).inserted = false := by
  cases hne : w.needed with
  | false =>
    rw [kiRetireDpcList_idle hne] at hr
    cases hr
    cases hin : (w.slots i).inserted with
    | false => rfl
    | true =>
      rw [h.needed i hin] at hne
      cases hne
  | true =>
    rw [kiRetireDpcList_needed hne] at hr
    cases hr
    have hac : Settled { w with routineActive := true } := h.settled.congr rfl rfl
    exact hac.drain_empty (hqt hne) i

lemma Inv.step {op : Op R} (h : Inv w)
    (hal : WithRoutines env w op ∧ Quiet env w op) (hs : step env op w = some w') :
    Inv w' := by
  refine ⟨h.settled.step hal.1 hs, ?_⟩
  intro i hin
  cases op with
  | request q =>
    cases hs
    rw [perform_eq] at hin ⊢
    cases hq : q.dpc with rw [hq] at hin
    | none => exact h.needed i hin
    | some dpc =>
      dsimp only at hin ⊢
      rcases place_cases w dpc with ⟨_, heq⟩ | ⟨j, _, heq⟩
      · rw [heq] at hin ⊢
        exact h.needed i hin
      · rw [heq]
  | removeDpc dpc =>
    cases hs
    unfold removeDpc at hin ⊢
    cases dpc with
    | none => exact h.needed i hin
    | some dpc =>
      dsimp only at hin ⊢
      split at hin
      · exact h.needed i hin
      rename_i j _
      have hin' : (update w.slots j ⟨⟨none, 0⟩, false, (w.slots j).fired⟩ i).inserted = true := hin
      by_cases hij : i = j
      · rw [hij, update_self] at hin'
        cases hin'
      · rw [update_of_ne hij] at hin'
        exact h.needed i hin'
  | drain =>
    cases hs
    rw [h.settled.drain_empty hal.2 i] at hin
    cases hin
  | kiRetireDpcList =>
    rw [h.retired hal.2 hs i] at hin
    cases hin

/-! ## Runs -/

/-- **DPCs.** If every DPC has a routine, the history of every run fits the ledger: no DPC has run
twice or without an insertion, and what is inserted and neither run nor removed still waits in its
slot. If, besides, nothing is inserted while `drain` runs, `ki_retire_dpc_list` leaves no DPC
behind. -/
theorem run_dpcs {env : Nat → List (Request R)} {ops : List (Op R)} {w : Queue R}
    (hrun : Run (step env) (WithRoutines env) new ops w) :
    replay w.log = some (fun i => (w.slots i).unrun)
      ∧ (Run (step env) (fun w op => WithRoutines env w op ∧ Quiet env w op) new ops w →
          WithRoutines env w .kiRetireDpcList → Quiet env w .kiRetireDpcList →
          ∃ w', step env .kiRetireDpcList w = some w' ∧ replay w'.log = some (fun _ => none)
            ∧ ∀ i, (w'.slots i).inserted = false) := by
  constructor
  · have hst : Settled w := hrun.keeps (fun h hal hs => Settled.step h hal hs) new_settled
    rw [hst.ledger]
    rfl
  intro hqt hrt hla
  have hnw : Inv (new : Queue R) := ⟨new_settled, nofun⟩
  have hi : Inv w := hqt.keeps (fun h hal hs => Inv.step h hal hs) hnw
  obtain ⟨w', hw'⟩ : ∃ w', w.kiRetireDpcList env = some w' := by
    cases hne : w.needed with
    | false => exact ⟨_, kiRetireDpcList_idle hne⟩
    | true => exact ⟨_, kiRetireDpcList_needed hne⟩
  have hem := hi.retired hla hw'
  refine ⟨w', hw', ?_, hem⟩
  have hs : step env .kiRetireDpcList w = some w' := hw'
  have hst : Settled w' := hi.settled.step hrt hs
  rw [hst.ledger]
  congr 1
  funext i
  simp [owed, Slot.unrun, hem i]

def firstInserts (qs : List (Request Nat)) : Nat → List (Request Nat)
  | 0 => qs
  | _ + 1 => []

/-- Two DPCs, the first of which inserts nothing but tries to queue a null pointer. -/
def twoRequests : List (Op Nat) :=
  [.request (.insert 5 16), .request (.keInsertQueueDpc (some ⟨some 6, 0⟩) 2)]

theorem run_dpcs_two : ∃ w w' : Queue Nat,
    execute (step (firstInserts [.keInsertQueueDpc none 0])) twoRequests new = some w
    ∧ step (firstInserts [.keInsertQueueDpc none 0]) .kiRetireDpcList w = some w'
    ∧ replay w.log = some (fun i => (w.slots i).unrun)
    ∧ replay w'.log = some (fun _ => none) ∧ ∀ i, (w'.slots i).inserted = false := by
  have hns : ∀ (w : Queue Nat), w.runs = 0 →
      Nested (firstInserts [.keInsertQueueDpc none 0]) w fun q => q.dpc = none := by
    intro w hrs k _ q hq
    rw [hrs] at hq
    cases k with
    | zero =>
      cases mem_singleton.mp hq
      rfl
    | succ k => cases hq
  have hrr : ∀ (w : Queue Nat), w.runs = 0 →
      WithRoutines (firstInserts [.keInsertQueueDpc none 0]) w .kiRetireDpcList := by
    intro w hrs _ k hk q hq dpc hdp
    rw [hns w hrs k hk q hq] at hdp
    cases hdp
  -- both insertions name a routine
  have hrt : ∀ (w : Queue Nat), ∀ op ∈ twoRequests,
      WithRoutines (firstInserts [.keInsertQueueDpc none 0]) w op
        ∧ Quiet (firstInserts [.keInsertQueueDpc none 0]) w op := by
    intro w op hop
    rcases mem_pair.mp hop with rfl | rfl
    · exact ⟨fun dpc hdp => (by cases hdp; rfl), trivial⟩
    · exact ⟨fun dpc hdp => (by cases hdp; rfl), trivial⟩
  have hr := run_dpcs (.cons (hrt _ _ mem_cons_self).1 rfl
      (.cons (hrt _ _ (mem_cons_of_mem _ mem_cons_self)).1 rfl (.nil _)))
  obtain ⟨w', hw', hlg, hem⟩ := hr.2 (.cons (hrt _ _ mem_cons_self) rfl
      (.cons (hrt _ _ (mem_cons_of_mem _ mem_cons_self)) rfl (.nil _)))
    (hrr _ rfl) (fun _ => Or.inr (hns _ rfl))
  exact ⟨_, w', rfl, hw', hr.1, hlg, hem⟩

/-- A DPC inserted by a running routine is left behind: no later `ki_retire_dpc_list` looks. A DPC
without a routine is marked fired and keeps its slot for good. -/
theorem kiRetireDpcList_leaves_dpc : ((execute (step (firstInserts [.insert 6 0]))
        [.request (.insert 5 0), .drain, .kiRetireDpcList] new).map
      fun w => ((w.slots ⟨1, by decide⟩).unrun, w.needed, w.runs))
        = some (some ⟨some 6, 0⟩, false, 1) ∧ ((execute (step (firstInserts [.insert 6 0]))
        [.request (.insert 5 0), .kiRetireDpcList] new).map
      fun w => ((w.slots ⟨1, by decide⟩).unrun, w.needed, w.runs))
        = some (some ⟨some 6, 0⟩, false, 1) ∧ ((execute (step (firstInserts []))
        [.request (.keInsertQueueDpc (some ⟨none, 0⟩) 0), .kiRetireDpcList] new).map
      fun w => (w.slots ⟨0, by decide⟩, w.runs)) = some (⟨⟨none, 0⟩, true, true⟩, 0) := by
  decide +kernel

end Nt61.DpcQueue
