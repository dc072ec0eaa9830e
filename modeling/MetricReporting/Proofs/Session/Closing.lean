import MetricReporting.Proofs.Session.StopTask

/-!
# The stop of a session

A session that stops moves its reporters into tasks that run side by side, takes each reporter back
as it hears of its task, and puts what it has back in order once no task is left. What becomes of a
reporter depends on the steps of its own task and on its own work alone; the session has each of
them again, whichever came back first.
-/
namespace MetricReporting

theorem Session.ordered_ascending (members : List Member) :
    ((ordered members).map fun member => member.reporter.metricType).Pairwise (· ≤ ·) := by
  have hsorted : (ordered members).Pairwise fun a b =>
      decide (a.reporter.metricType ≤ b.reporter.metricType) = true := by
    refine List.pairwise_mergeSort (fun a b c hab hbc => ?_) (fun a b => ?_) members
    · exact decide_eq_true (Std.le_trans (of_decide_eq_true hab) (of_decide_eq_true hbc))
    · rw [Bool.or_eq_true, decide_eq_true_eq, decide_eq_true_eq]
      exact Std.le_total
  exact List.pairwise_map.2 (hsorted.imp of_decide_eq_true)

structure Closing where
  tasks : List StopTask
  /-- The reporters that it has back, in the order in which it heard of their tasks. -/
  stopped : List Participant := []
  listed : Option (List Participant) := none

namespace Closing

inductive Act
  | one (number : Nat) (act : StopTask.Act)
  | list

def ordered (reporters : List Participant) : List Participant :=
  reporters.mergeSort fun a b => decide (a.metricType ≤ b.metricType)

def begin (reporters : List Participant) : Closing :=
  ⟨reporters.map (StopTask.mk · .spawned), [], none⟩

def stepTask (number : Nat) (act : StopTask.Act) (task : StopTask) : StopTask :=
  if task.number = number then task.act act else task

/-- What a step is to a reporter that the session has back: it can only work. -/
def stepBack (number : Nat) (act : StopTask.Act) (p : Participant) : Participant :=
  (stepTask number act ⟨p, .joined⟩).participant

def isJoined (task : StopTask) : Bool :=
  task.stage == .joined

def act (closing : Closing) : Act → Closing
  | .one number act =>
      let tasks := closing.tasks.map (stepTask number act)
      { tasks := tasks.filter fun task => !isJoined task
        stopped := closing.stopped.map (stepBack number act) ++
          (tasks.filter isJoined).map StopTask.participant
        listed := closing.listed.map (List.map (stepBack number act)) }
  | .list =>
      if closing.tasks.isEmpty && closing.listed.isNone then
        ⟨[], [], some (ordered closing.stopped)⟩
      else closing

def run (closing : Closing) (acts : List Act) : Closing :=
  acts.foldl act closing

/-- The steps of one reporter among those of all. -/
def trace (number : Nat) (acts : List Act) : List StopTask.Act :=
  acts.filterMap fun
    | .one other act => if number = other then some act else none
    | .list => none

def fate (p : Participant) (acts : List Act) : StopTask :=
  (StopTask.mk p .spawned).run (trace p.number acts)

/-! ## One step -/

section Step

variable {number : Nat} {act : StopTask.Act} {task : StopTask}

theorem isJoined_iff : isJoined task = true ↔ task.stage = .joined :=
  beq_iff_eq

theorem stepTask_number (number : Nat) (act : StopTask.Act) (task : StopTask) :
    (stepTask number act task).number = task.number := by
  unfold stepTask
  split
  · exact (task.moved act).same.number
  · rfl

theorem isJoined_stepTask (number : Nat) (act : StopTask.Act) (h : isJoined task = true) :
    isJoined (stepTask number act task) = true := by
  rw [isJoined_iff] at h ⊢
  unfold stepTask
  split
  · cases act with
    | poll => simp only [StopTask.act, StopTask.poll, h]
    | join => simp only [StopTask.act, StopTask.join, h]
    | work act =>
      simp only [StopTask.act, StopTask.work]
      split <;> exact h
  · exact h

theorem stepBack_participant (h : isJoined task = true) :
    stepBack number act task.participant = (stepTask number act task).participant := by
  obtain ⟨p, stage⟩ := task
  obtain rfl : stage = .joined := isJoined_iff.1 h
  rfl

theorem stepBack_metricType (number : Nat) (act : StopTask.Act) (p : Participant) :
    (stepBack number act p).metricType = p.metricType := by
  unfold stepBack stepTask
  split
  · exact (StopTask.moved _ act).same.metricType
  · rfl

end Step

/-! ## Each reporter once -/

/-- The tasks of all reporters of the session, as if none were ever taken back. -/
structure Mirrors (tasks : List StopTask) (closing : Closing) : Prop where
  waiting : closing.tasks = tasks.filter fun task => !isJoined task
  back : (closing.stopped ++ closing.listed.getD []).Perm
    ((tasks.filter isJoined).map StopTask.participant)
  finished : closing.listed.isSome = true → closing.tasks = [] ∧ closing.stopped = []

variable {tasks : List StopTask} {closing : Closing} {reporters listed : List Participant}

theorem mirrors_begin (reporters : List Participant) :
    Mirrors (reporters.map (StopTask.mk · .spawned)) (begin reporters) := by
  refine ⟨?_, ?_, nofun⟩
  · rw [List.filter_eq_self.2]
    · rfl
    · exact List.forall_mem_map.2 fun _ _ => rfl
  · rw [List.filter_eq_nil_iff.2]
    · exact .refl []
    · exact List.forall_mem_map.2 fun _ _ => Bool.false_ne_true

theorem filter_waiting (number : Nat) (act : StopTask.Act) (tasks : List StopTask) :
    ((tasks.filter fun task => !isJoined task).map (stepTask number act)).filter
        (fun task => !isJoined task) =
      (tasks.map (stepTask number act)).filter fun task => !isJoined task := by
  induction tasks with
  | nil => rfl
  | cons task tasks ih =>
    cases hjoined : isJoined task with
    | true =>
      have hstays := isJoined_stepTask number act hjoined
      simp only [List.filter_cons, List.map_cons, hjoined, hstays, Bool.not_true,
        Bool.false_eq_true, if_false, ih]
    | false =>
      simp only [List.filter_cons, List.map_cons, hjoined, Bool.not_false, if_true, ih]

theorem perm_joined (number : Nat) (act : StopTask.Act) (tasks : List StopTask) :
    (((tasks.filter isJoined).map StopTask.participant).map (stepBack number act) ++
      (((tasks.filter fun task => !isJoined task).map (stepTask number act)).filter isJoined).map
        StopTask.participant).Perm
      (((tasks.map (stepTask number act)).filter isJoined).map StopTask.participant) := by
  have hback : ((tasks.filter isJoined).map StopTask.participant).map (stepBack number act) =
      (((tasks.filter isJoined).map (stepTask number act)).filter isJoined).map
        StopTask.participant := by
    have hjoined : ∀ task ∈ tasks.filter isJoined, isJoined task = true := fun _ hmem =>
      (List.mem_filter.1 hmem).2
    have hself : ((tasks.filter isJoined).map (stepTask number act)).filter isJoined =
        (tasks.filter isJoined).map (stepTask number act) :=
      List.filter_eq_self.2
        (List.forall_mem_map.2 fun _ hmem => isJoined_stepTask _ _ (hjoined _ hmem))
    rw [hself, List.map_map, List.map_map]
    exact List.map_congr_left fun task hmem => stepBack_participant (hjoined task hmem)
  -- what was joined stays so, and what is joined now was not before
  rw [hback, ← List.map_append, ← List.filter_append, ← List.map_append]
  exact (((List.filter_append_perm isJoined tasks).map _).filter _).map _

theorem Mirrors.one (h : Mirrors tasks closing) (number : Nat) (act : StopTask.Act) :
    Mirrors (tasks.map (stepTask number act)) (closing.act (.one number act)) := by
  obtain ⟨hwaiting, hback, hfinished⟩ := h
  refine ⟨?_, ?_, fun hlisted => ?_⟩
  · show (closing.tasks.map _).filter _ = _
    rw [hwaiting, filter_waiting]
  · have hlisted : (closing.listed.map (List.map (stepBack number act))).getD [] =
        (closing.listed.getD []).map (stepBack number act) := by
      cases closing.listed <;> rfl
    have hmapped := hback.map (stepBack number act)
    rw [List.map_append] at hmapped
    show (closing.stopped.map _ ++ ((closing.tasks.map _).filter _).map _ ++
      (closing.listed.map (List.map (stepBack number act))).getD []).Perm _
    rw [hlisted, hwaiting]
    refine .trans ?_ (perm_joined number act tasks)
    refine .trans ?_ (hmapped.append_right _)
    rw [List.append_assoc, List.append_assoc]
    exact List.perm_append_comm.append_left _
  · have hsome : closing.listed.isSome = true := by
      rw [← hlisted]
      exact Option.isSome_map.symm
    obtain ⟨htasks, hstopped⟩ := hfinished hsome
    simp only [Closing.act, htasks, hstopped]
    exact ⟨rfl, rfl⟩

theorem Mirrors.list (h : Mirrors tasks closing) : Mirrors tasks (closing.act .list) := by
  simp only [Closing.act]
  split
  · rename_i hdone
    rw [Bool.and_eq_true, List.isEmpty_iff, Option.isNone_iff_eq_none] at hdone
    obtain ⟨htasks, hnone⟩ := hdone
    refine ⟨htasks ▸ h.waiting, ?_, fun _ => ⟨rfl, rfl⟩⟩
    have hback := h.back
    rw [hnone, Option.getD_none, List.append_nil] at hback
    exact (List.mergeSort_perm _ _).trans hback
  · exact h

theorem trace_cons_one (number other : Nat) (act : StopTask.Act) (acts : List Act) :
    trace number (.one other act :: acts) =
      if number = other then act :: trace number acts else trace number acts := by
  rw [trace, List.filterMap_cons]
  by_cases hnumber : number = other
  · simp only [hnumber, if_true]
    rfl
  · simp only [hnumber, if_false]
    rfl

theorem Mirrors.run (h : Mirrors tasks closing) (acts : List Act) :
    Mirrors (tasks.map fun task => task.run (trace task.number acts)) (closing.run acts) := by
  -- the invariant is over all tasks, in the session's hands or not, so each act is one map of them
  induction acts generalizing tasks closing with
  | nil =>
    have hsame : (tasks.map fun task => task.run (trace task.number [])) = tasks :=
      List.map_id'' (fun _ => rfl) tasks
    rw [hsame]
    exact h
  | cons act acts ih =>
    cases act with
    | list => exact ih h.list
    | one number act =>
      have hstep := ih (h.one number act)
      rw [List.map_map] at hstep
      have hsame : (tasks.map fun task => task.run (trace task.number (.one number act :: acts))) =
          tasks.map ((fun task => task.run (trace task.number acts)) ∘ stepTask number act) := by
        refine List.map_congr_left fun task _ => ?_
        rw [Function.comp_apply, stepTask_number, trace_cons_one, stepTask]
        split <;> rfl
      rw [hsame]
      exact hstep

theorem Mirrors.perm (h : Mirrors tasks closing) (hlisted : closing.listed = some listed) :
    (∀ task ∈ tasks, task.stage = .joined) ∧ listed.Perm (tasks.map StopTask.participant) := by
  obtain ⟨htasks, hstopped⟩ := h.finished (by rw [hlisted]; rfl)
  have hwaiting := h.waiting
  rw [htasks, eq_comm, List.filter_eq_nil_iff] at hwaiting
  have hjoined : ∀ task ∈ tasks, isJoined task = true := by simpa using hwaiting
  have hback := h.back
  rw [hstopped, hlisted, List.nil_append, Option.getD_some, List.filter_eq_self.2 hjoined] at hback
  exact ⟨fun task hmem => isJoined_iff.1 (hjoined task hmem), hback⟩

/-- The session has each reporter again, as what its own steps have made of it. -/
theorem listed_perm {acts : List Act}
    (hlisted : ((begin reporters).run acts).listed = some listed) :
    (∀ p ∈ reporters, (fate p acts).stage = .joined) ∧
      listed.Perm (reporters.map fun p => (fate p acts).participant) := by
  obtain ⟨hjoined, hperm⟩ := ((mirrors_begin reporters).run acts).perm hlisted
  rw [List.map_map] at hjoined hperm
  rw [List.map_map] at hperm
  exact ⟨fun p hmem => hjoined _ (List.mem_map_of_mem hmem), hperm⟩

/-! ## In order -/

def Ascending (reporters : List Participant) : Prop :=
  (reporters.map Participant.metricType).Pairwise (· ≤ ·)

theorem ordered_member (reporters : List Participant) :
    (ordered reporters).map Participant.member =
      Session.ordered (reporters.map Participant.member) :=
  List.map_mergeSort fun _ _ _ _ => rfl

theorem ordered_ascending (reporters : List Participant) : Ascending (ordered reporters) := by
  have hsorted := Session.ordered_ascending (reporters.map Participant.member)
  rw [← ordered_member, List.map_map] at hsorted
  exact hsorted

theorem Ascending.map (h : Ascending reporters) {change : Participant → Participant}
    (hsame : ∀ p, (change p).metricType = p.metricType) : Ascending (reporters.map change) := by
  rw [Ascending, List.map_map]
  exact (List.map_congr_left fun p _ => hsame p).symm ▸ h

theorem act_ascending (h : ∀ listed ∈ closing.listed, Ascending listed) (act : Act) :
    ∀ listed ∈ (closing.act act).listed, Ascending listed := by
  cases act with
  | one number act =>
    intro listed hmem
    obtain ⟨before, hbefore, rfl⟩ := Option.map_eq_some_iff.1 hmem
    exact (h before hbefore).map (stepBack_metricType number act)
  | list =>
    simp only [Closing.act]
    split
    · rintro listed ⟨⟩
      exact ordered_ascending _
    · exact h

theorem run_ascending (h : ∀ listed ∈ closing.listed, Ascending listed) (acts : List Act) :
    ∀ listed ∈ (closing.run acts).listed, Ascending listed := by
  induction acts generalizing closing with
  | nil => exact h
  | cons act acts ih => exact ih (act_ascending h act)

/-- There is one way to put things in ascending order whose keys differ. -/
theorem eq_of_perm_of_ascending {α : Type} (key : α → String) {first second : List α}
    (hperm : first.Perm second) (hdistinct : (first.map key).Nodup)
    (hfirst : (first.map key).Pairwise (· ≤ ·)) (hsecond : (second.map key).Pairwise (· ≤ ·)) :
    first = second := by
  refine hperm.eq_of_pairwise (fun a b ha hb hab hba => ?_) (List.pairwise_map.1 hfirst)
    (List.pairwise_map.1 hsecond)
  exact List.inj_on_of_nodup_map hdistinct ha (hperm.mem_iff.2 hb) (Std.le_antisymm hab hba)

/-! ## Once it is over -/

def after (p : Participant) (acts : List Act) : Participant :=
  ((StopTask.mk p .joined).run (trace p.number acts)).participant

theorem after_cons_one (p : Participant) (number : Nat) (act : StopTask.Act) (acts : List Act) :
    after p (.one number act :: acts) = after (stepBack number act p) acts := by
  have hnumber : (stepBack number act p).number = p.number :=
    stepTask_number number act ⟨p, .joined⟩
  have hstep : stepTask number act ⟨p, .joined⟩ = ⟨stepBack number act p, .joined⟩ := by
    have hjoined : isJoined (stepTask number act ⟨p, .joined⟩) = true :=
      isJoined_stepTask number act rfl
    exact congrArg (StopTask.mk (stepBack number act p)) (isJoined_iff.1 hjoined)
  rw [after, after, hnumber, ← hstep, trace_cons_one, stepTask]
  by_cases hsame : p.number = number
  · rw [if_pos hsame, if_pos (show StopTask.number ⟨p, .joined⟩ = number from hsame)]
    rfl
  · rw [if_neg hsame, if_neg (show StopTask.number ⟨p, .joined⟩ ≠ number from hsame)]

theorem run_listed (hlisted : closing.listed = some listed) (acts : List Act) :
    (closing.run acts).listed = some (listed.map (after · acts)) := by
  induction acts generalizing closing listed with
  | nil =>
    have hsame : listed.map (after · []) = listed := List.map_id'' (fun _ => rfl) listed
    rw [hsame]
    exact hlisted
  | cons act acts ih =>
    cases act with
    | one number act =>
      have hstep : (closing.act (.one number act)).listed =
          some (listed.map (stepBack number act)) := by
        simp only [Closing.act, hlisted, Option.map_some]
      rw [run, List.foldl_cons]
      refine (ih hstep).trans ?_
      rw [List.map_map]
      exact congrArg some (List.map_congr_left fun p _ => (after_cons_one p number act acts).symm)
    | list =>
      have hstep : closing.act .list = closing := by
        simp only [Closing.act, hlisted, Option.isNone_some, Bool.and_false, Bool.false_eq_true,
          if_false]
      rw [run, List.foldl_cons, hstep]
      exact ih hlisted

end Closing

end MetricReporting
