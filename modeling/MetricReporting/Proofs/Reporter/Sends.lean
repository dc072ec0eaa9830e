import MetricReporting.Proofs.Reporter.Drainage
import Mathlib.Data.List.Nodup

/-!
# Every payload submitted is sent once

A submitted payload has one task until its send is over. From the task's phase one can tell whether
the sender was called with the payload and whether it has answered; what has no task any more was
called and has answered. Submitting, stepping and forgetting tasks keep this.
-/
namespace MetricReporting

namespace SendTask.Phase

def hasCalled : Phase → Bool
  | .spawned | .counted => false
  | _ => true

def hasAnswer : Phase → Bool
  | .spawned | .counted | .calling => false
  | _ => true

end SendTask.Phase

theorem SendTask.Moment.step_isEnded (metricType : String) (answer : Option SendOutcome)
    {moment : SendTask.Moment} (h : moment.task.isEnded = true) :
    (moment.step metricType answer).task.isEnded = true := by
  have hphase : moment.task.phase = .ended := eq_of_beq h
  have hstay : moment.step metricType answer = moment := by
    simp only [SendTask.Moment.step, hphase]
  rw [hstay]
  exact h

namespace Journal

def callNumbers (journal : Journal) : List Nat :=
  journal.called.map Prod.fst

def answerNumbers (journal : Journal) : List Nat :=
  journal.answered.map Prod.fst

end Journal

structure Sends (journal : Journal) (tasks : List SendTask) : Prop where
  numbered : ∀ task ∈ tasks, journal.submitted[task.number]? = some task.payload
  ascending : (tasks.map SendTask.number).Pairwise (· < ·)
  called : ∀ call ∈ journal.called, journal.submitted[call.1]? = some call.2
  called_nodup : journal.callNumbers.Nodup
  answered_nodup : journal.answerNumbers.Nodup
  answered_called : journal.answerNumbers ⊆ journal.callNumbers
  calling : ∀ task ∈ tasks, task.number ∈ journal.callNumbers ↔ task.phase.hasCalled = true
  answering : ∀ task ∈ tasks, task.number ∈ journal.answerNumbers ↔ task.phase.hasAnswer = true
  gone : ∀ number < journal.submitted.length, number ∉ tasks.map SendTask.number →
    number ∈ journal.callNumbers ∧ number ∈ journal.answerNumbers

namespace Sends

variable {journal journal' : Journal} {tasks : List SendTask} {task task' : SendTask} {place : Nat}

theorem nil (h : journal.submitted = []) (h' : journal.called = []) (h'' : journal.answered = []) :
    Sends journal [] := by
  constructor <;> simp [Journal.callNumbers, Journal.answerNumbers, h, h', h'']

theorem frame (h : Sends journal tasks) (hsubmitted : journal'.submitted = journal.submitted)
    (hcalled : journal'.called = journal.called)
    (hanswered : journal'.answered = journal.answered) :
    Sends journal' tasks := by
  obtain ⟨encoded, submitted, called, answered, mark⟩ := journal
  obtain ⟨encoded', submitted', called', answered', mark'⟩ := journal'
  obtain ⟨rfl, rfl, rfl⟩ : submitted' = submitted ∧ called' = called ∧ answered' = answered :=
    ⟨hsubmitted, hcalled, hanswered⟩
  exact ⟨h.numbered, h.ascending, h.called, h.called_nodup, h.answered_nodup, h.answered_called,
    h.calling, h.answering, h.gone⟩

theorem number_lt (h : Sends journal tasks) (hmem : task ∈ tasks) :
    task.number < journal.submitted.length :=
  (List.getElem?_eq_some_iff.1 (h.numbered task hmem)).1

theorem callNumber_lt (h : Sends journal tasks) {number : Nat}
    (hmem : number ∈ journal.callNumbers) : number < journal.submitted.length := by
  obtain ⟨call, hcall, rfl⟩ := List.mem_map.1 hmem
  exact (List.getElem?_eq_some_iff.1 (h.called call hcall)).1

theorem called_or_waiting (h : Sends journal tasks) {number : Nat} {payload : Bytes}
    (hsubmitted : journal.submitted[number]? = some payload) :
    (number, payload) ∈ journal.called ∨ ∃ task ∈ tasks,
      task.number = number ∧ task.payload = payload ∧ task.phase.hasCalled = false := by
  by_cases hcalled : number ∈ journal.callNumbers
  · obtain ⟨⟨number', payload'⟩, hcall, hnumber⟩ := List.mem_map.1 hcalled
    obtain rfl : number' = number := hnumber
    obtain rfl : payload' = payload :=
      Option.some.inj ((h.called _ hcall).symm.trans hsubmitted)
    exact Or.inl hcall
  · have hlt := (List.getElem?_eq_some_iff.1 hsubmitted).1
    have htask : number ∈ tasks.map SendTask.number := by
      by_contra hgone
      exact hcalled (h.gone number hlt hgone).1
    obtain ⟨task, hmem, rfl⟩ := List.mem_map.1 htask
    have hpayload := Option.some.inj ((h.numbered task hmem).symm.trans hsubmitted)
    refine Or.inr ⟨task, hmem, rfl, hpayload, Bool.eq_false_iff.2 fun hphase => ?_⟩
    exact hcalled ((h.calling task hmem).2 hphase)

theorem spawn (h : Sends journal tasks) (payload : Bytes) (entries : Nat) :
    Sends { journal with submitted := journal.submitted ++ [payload] }
      (tasks ++ [⟨journal.submitted.length, payload, entries, .spawned⟩]) := by
  have hkeep : ∀ {number : Nat} {bytes : Bytes}, journal.submitted[number]? = some bytes →
      (journal.submitted ++ [payload])[number]? = some bytes := by
    intro number bytes hget
    have hlt := (List.getElem?_eq_some_iff.1 hget).1
    rw [List.getElem?_append_left hlt]
    exact hget
  have hnew : journal.submitted.length ∉ journal.callNumbers := fun hmem =>
    Nat.lt_irrefl _ (h.callNumber_lt hmem)
  have hnew' : journal.submitted.length ∉ journal.answerNumbers := fun hmem =>
    hnew (h.answered_called hmem)
  refine ⟨?_, ?_, fun call hcall => hkeep (h.called call hcall), h.called_nodup,
    h.answered_nodup, h.answered_called, ?_, ?_, ?_⟩
  · intro task hmem
    rcases List.mem_append.1 hmem with hold | hlast
    · exact hkeep (h.numbered task hold)
    · rw [List.mem_singleton.1 hlast]
      exact List.getElem?_concat_length
  · rw [List.map_append, List.pairwise_append]
    refine ⟨h.ascending, List.pairwise_singleton _ _, fun a ha b hb => ?_⟩
    obtain ⟨task, hmem, rfl⟩ := List.mem_map.1 ha
    rw [List.mem_singleton.1 hb]
    exact h.number_lt hmem
  · intro task hmem
    rcases List.mem_append.1 hmem with hold | hlast
    · exact h.calling task hold
    · rw [List.mem_singleton.1 hlast]
      exact iff_of_false hnew Bool.false_ne_true
  · intro task hmem
    rcases List.mem_append.1 hmem with hold | hlast
    · exact h.answering task hold
    · rw [List.mem_singleton.1 hlast]
      exact iff_of_false hnew' Bool.false_ne_true
  · intro number hlt hgone
    simp only [List.length_append, List.length_singleton] at hlt
    simp only [List.map_append, List.mem_append, not_or, List.map_cons, List.map_nil,
      List.mem_singleton] at hgone
    exact h.gone number (by omega) hgone.1

theorem reaped (h : Sends journal tasks) :
    Sends journal (tasks.filter fun task => !task.isEnded) := by
  refine ⟨fun task hmem => h.numbered task (List.mem_filter.1 hmem).1,
    h.ascending.sublist (List.filter_sublist.map _), h.called, h.called_nodup, h.answered_nodup,
    h.answered_called, fun task hmem => h.calling task (List.mem_filter.1 hmem).1,
    fun task hmem => h.answering task (List.mem_filter.1 hmem).1, ?_⟩
  intro number hlt hgone
  by_cases hold : number ∈ tasks.map SendTask.number
  · obtain ⟨task, hmem, rfl⟩ := List.mem_map.1 hold
    have hended : task.isEnded = true := by
      by_contra hrunning
      refine hgone (List.mem_map.2 ⟨task, List.mem_filter.2 ⟨hmem, ?_⟩, rfl⟩)
      simpa using hrunning
    have hphase : task.phase = .ended := by simpa [SendTask.isEnded] using hended
    exact ⟨(h.calling task hmem).2 (by rw [hphase]; rfl),
      (h.answering task hmem).2 (by rw [hphase]; rfl)⟩
  · exact h.gone number hlt hold

/-! ## Steps of one task -/

theorem mem_set (h : (tasks.map SendTask.number).Pairwise (· < ·))
    (hplace : tasks[place]? = some task) {other : SendTask} (hmem : other ∈ tasks.set place task') :
    other = task' ∨ other ∈ tasks ∧ other.number ≠ task.number := by
  obtain ⟨i, hi⟩ := List.mem_iff_getElem?.1 hmem
  rw [List.getElem?_set] at hi
  split at hi
  · split at hi
    · exact Or.inl (Option.some.inj hi).symm
    · cases hi
  · rename_i hne
    refine Or.inr ⟨List.mem_of_getElem? hi, fun hsame => hne ?_⟩
    have hlt : place < (tasks.map SendTask.number).length := by
      rw [List.length_map]
      exact (List.getElem?_eq_some_iff.1 hplace).1
    refine (List.getElem?_inj hlt (h.imp Nat.ne_of_lt)).1 ?_
    rw [List.getElem?_map, List.getElem?_map, hplace, hi, Option.map_some, Option.map_some, hsame]

theorem map_number_set (hplace : tasks[place]? = some task) (hnumber : task'.number = task.number) :
    (tasks.set place task').map SendTask.number = tasks.map SendTask.number := by
  obtain ⟨hlt, hget⟩ := List.getElem?_eq_some_iff.1 hplace
  apply List.ext_getElem?
  intro i
  rw [List.getElem?_map, List.getElem?_map, List.getElem?_set]
  split
  · rename_i hi
    subst hi
    simp [hlt, hget, hnumber]
  · rfl

theorem move (h : Sends journal tasks) (hplace : tasks[place]? = some task)
    (hnumber : task'.number = task.number) (hpayload : task'.payload = task.payload)
    (hsubmitted : journal'.submitted = journal.submitted)
    (hcalled : ∀ call, call ∈ journal'.called ↔
      call ∈ journal.called ∨
        call = (task.number, task.payload) ∧ task'.phase.hasCalled = true)
    (hcalled_nodup : journal'.callNumbers.Nodup)
    (hanswered : ∀ number, number ∈ journal'.answerNumbers ↔
      number ∈ journal.answerNumbers ∨ number = task.number ∧ task'.phase.hasAnswer = true)
    (hanswered_nodup : journal'.answerNumbers.Nodup)
    (hcalls : task.phase.hasCalled = true → task'.phase.hasCalled = true)
    (hanswers : task.phase.hasAnswer = true → task'.phase.hasAnswer = true)
    (horder : task'.phase.hasAnswer = true → task'.phase.hasCalled = true) :
    Sends journal' (tasks.set place task') := by
  have hmem : task ∈ tasks := List.mem_of_getElem? hplace
  have hnumbers := map_number_set hplace hnumber
  have hcallNumbers : ∀ number, number ∈ journal'.callNumbers ↔
      number ∈ journal.callNumbers ∨ number = task.number ∧ task'.phase.hasCalled = true := by
    intro number
    simp only [Journal.callNumbers, List.mem_map, hcalled]
    constructor
    · rintro ⟨call, hold | ⟨rfl, hphase⟩, rfl⟩
      · exact Or.inl ⟨call, hold, rfl⟩
      · exact Or.inr ⟨rfl, hphase⟩
    · rintro (⟨call, hold, rfl⟩ | ⟨rfl, hphase⟩)
      · exact ⟨call, Or.inl hold, rfl⟩
      · exact ⟨_, Or.inr ⟨rfl, hphase⟩, rfl⟩
  refine ⟨?_, hnumbers.symm ▸ h.ascending, ?_, hcalled_nodup, hanswered_nodup, ?_, ?_, ?_, ?_⟩
  · intro other hother
    rw [hsubmitted]
    rcases mem_set h.ascending hplace hother with rfl | ⟨hold, -⟩
    · rw [hnumber, hpayload]
      exact h.numbered task hmem
    · exact h.numbered other hold
  · intro call hcall
    rw [hsubmitted]
    rcases (hcalled call).1 hcall with hold | ⟨rfl, -⟩
    · exact h.called call hold
    · exact h.numbered task hmem
  · intro number hanswer
    refine (hcallNumbers number).2 ?_
    rcases (hanswered number).1 hanswer with hold | ⟨hself, hphase⟩
    · exact Or.inl (h.answered_called hold)
    · exact Or.inr ⟨hself, horder hphase⟩
  · intro other hother
    rw [hcallNumbers]
    rcases mem_set h.ascending hplace hother with rfl | ⟨hold, hne⟩
    · rw [hnumber, h.calling task hmem]
      exact ⟨fun hor => hor.elim hcalls And.right, fun hphase => Or.inr ⟨rfl, hphase⟩⟩
    · rw [← h.calling other hold]
      exact or_iff_left fun hself => hne hself.1
  · intro other hother
    rw [hanswered]
    rcases mem_set h.ascending hplace hother with rfl | ⟨hold, hne⟩
    · rw [hnumber, h.answering task hmem]
      exact ⟨fun hor => hor.elim hanswers And.right, fun hphase => Or.inr ⟨rfl, hphase⟩⟩
    · rw [← h.answering other hold]
      exact or_iff_left fun hself => hne hself.1
  · intro number hlt hgone
    rw [hnumbers] at hgone
    rw [hsubmitted] at hlt
    obtain ⟨hcall, hanswer⟩ := h.gone number hlt hgone
    exact ⟨(hcallNumbers number).2 (Or.inl hcall), (hanswered number).2 (Or.inl hanswer)⟩

theorem mem_called (h : Sends journal tasks) (hmem : task ∈ tasks)
    (hcalls : task.phase.hasCalled = true) : (task.number, task.payload) ∈ journal.called := by
  obtain ⟨⟨number, payload⟩, hcall, hnumber⟩ := List.mem_map.1 ((h.calling task hmem).2 hcalls)
  obtain rfl : number = task.number := hnumber
  obtain rfl : payload = task.payload :=
    Option.some.inj ((h.called _ hcall).symm.trans (h.numbered task hmem))
  exact hcall

theorem move_silent (h : Sends journal tasks) (hplace : tasks[place]? = some task)
    (hnumber : task'.number = task.number) (hpayload : task'.payload = task.payload)
    (hcalls : task'.phase.hasCalled = task.phase.hasCalled)
    (hanswers : task'.phase.hasAnswer = task.phase.hasAnswer) :
    Sends journal (tasks.set place task') := by
  have hmem : task ∈ tasks := List.mem_of_getElem? hplace
  refine h.move hplace hnumber hpayload rfl ?_ h.called_nodup ?_ h.answered_nodup
    (fun hphase => hcalls.trans hphase) (fun hphase => hanswers.trans hphase) ?_
  · rintro call
    rw [hcalls]
    refine (or_iff_left_of_imp ?_).symm
    rintro ⟨rfl, hphase⟩
    exact h.mem_called hmem hphase
  · intro number
    rw [hanswers]
    refine (or_iff_left_of_imp ?_).symm
    rintro ⟨rfl, hphase⟩
    exact (h.answering task hmem).2 hphase
  · intro hphase
    rw [hanswers] at hphase
    rw [hcalls]
    exact (h.calling task hmem).1 (h.answered_called ((h.answering task hmem).2 hphase))

theorem nodup_concat {numbers : List Nat} {number : Nat} (h : numbers.Nodup)
    (hnew : number ∉ numbers) : (numbers ++ [number]).Nodup :=
  List.nodup_append.2 ⟨h, List.nodup_singleton _, fun a ha b hb hab =>
    hnew (by rwa [hab, List.mem_singleton.1 hb] at ha)⟩

theorem move_calling (h : Sends journal tasks) (hplace : tasks[place]? = some task)
    (hphase : task.phase = .counted) :
    Sends { journal with called := journal.called ++ [(task.number, task.payload)] }
      (tasks.set place { task with phase := .calling }) := by
  have hmem : task ∈ tasks := List.mem_of_getElem? hplace
  have hnew : task.number ∉ journal.callNumbers := by
    rw [h.calling task hmem, hphase]
    exact Bool.false_ne_true
  refine h.move hplace rfl rfl rfl ?_ ?_ ?_ h.answered_nodup (fun _ => rfl) ?_ (fun _ => rfl)
  · intro call
    simp [SendTask.Phase.hasCalled]
  · rw [Journal.callNumbers, List.map_append]
    exact nodup_concat h.called_nodup hnew
  · intro number
    simp [SendTask.Phase.hasAnswer, Journal.answerNumbers]
  · intro hanswer
    rw [hphase] at hanswer
    cases hanswer

theorem move_answered (h : Sends journal tasks) (hplace : tasks[place]? = some task)
    (hphase : task.phase = .calling) (outcome : SendOutcome) {phase' : SendTask.Phase}
    (hanswer : phase'.hasAnswer = true) (hcalls : phase'.hasCalled = true) :
    Sends { journal with answered := journal.answered ++ [(task.number, outcome)] }
      (tasks.set place { task with phase := phase' }) := by
  have hmem : task ∈ tasks := List.mem_of_getElem? hplace
  have hnew : task.number ∉ journal.answerNumbers := by
    rw [h.answering task hmem, hphase]
    exact Bool.false_ne_true
  refine h.move hplace rfl rfl rfl ?_ h.called_nodup ?_ ?_ (fun _ => hcalls) (fun _ => hanswer)
    fun _ => hcalls
  · intro call
    refine (or_iff_left_of_imp ?_).symm
    rintro ⟨rfl, -⟩
    exact h.mem_called hmem (by rw [hphase]; rfl)
  · intro number
    simp [Journal.answerNumbers, hanswer]
  · rw [Journal.answerNumbers, List.map_append]
    exact nodup_concat h.answered_nodup hnew

theorem step (h : Sends journal tasks) (hplace : tasks[place]? = some task) (metricType : String)
    (answer : Option SendOutcome) (metrics : ReporterMetrics) (telemetry : Telemetry) :
    Sends (journal.heard task answer) (tasks.set place
      (SendTask.Moment.step metricType answer ⟨task, metrics, telemetry⟩).task) := by
  cases hphase : task.phase with
  | spawned =>
    simp only [Journal.heard, SendTask.Moment.step, hphase]
    exact h.move_silent hplace rfl rfl (by rw [hphase]; rfl) (by rw [hphase]; rfl)
  | counted =>
    simp only [Journal.heard, SendTask.Moment.step, hphase]
    exact h.move_calling hplace hphase
  | calling =>
    cases answer with
    | none =>
      simp only [Journal.heard, SendTask.Moment.step, hphase]
      exact h.move_silent hplace rfl rfl rfl rfl
    | some outcome =>
      cases outcome <;> simp only [Journal.heard, SendTask.Moment.step, hphase] <;>
        exact h.move_answered hplace hphase _ rfl rfl
  | returned outcome =>
    simp only [Journal.heard, SendTask.Moment.step, hphase]
    exact h.move_silent hplace rfl rfl (by rw [hphase]; rfl) (by rw [hphase]; rfl)
  | uncounted outcome =>
    cases outcome <;> simp only [Journal.heard, SendTask.Moment.step, hphase] <;>
      exact h.move_silent hplace rfl rfl (by rw [hphase]; rfl) (by rw [hphase]; rfl)
  | ended =>
    simp only [Journal.heard, SendTask.Moment.step, hphase]
    exact h.move_silent hplace rfl rfl rfl rfl

end Sends

end MetricReporting
