import MetricReporting.Proofs.Reporter.Throttle

/-!
# Permits of the sends

As long as the loop runs, held and free permits are as many as there were at the start. Nothing
closes them, so a loop that waits for one has no other way on than to get it, and the payload that
waits is the next one submitted.
-/
namespace MetricReporting

namespace Drainage

variable {parallel : Nat} {d d' : Drainage} {loop loop' : DrainLoop}

theorem Throttled.act_cases (h : d.Throttled parallel) (hloop : d.reporter.loop = some loop)
    (act : Act) : ∃ loop', (d.act act).reporter.loop = some loop' ∧
      (loop.Turn d.journal (d.act act).journal loop' ∨
        loop'.phase = loop.phase ∧ (d.act act).journal.submitted = d.journal.submitted) := by
  cases act with
  | loop now =>
    obtain ⟨loop', hloop', hturn, -, -⟩ := (loopMove d now).turn hloop
    exact ⟨loop', hloop', Or.inl hturn⟩
  | start now runtime =>
    cases hstart : d.reporter.start now runtime with
    | error error =>
      have hact : d.act (.start now runtime) = d := by simp only [Drainage.act, hstart]
      rw [hact]
      exact ⟨loop, hloop, Or.inr ⟨rfl, rfl⟩⟩
    | ok reporter =>
      rw [h.unstarted (start_eq_ok hstart).1] at hloop
      cases hloop
  | send place answer =>
    cases hplace : loop.tasks[place]? with
    | none =>
      have hact : d.act (.send place answer) = d := send_none hloop hplace answer
      rw [hact]
      exact ⟨loop, hloop, Or.inr ⟨rfl, rfl⟩⟩
    | some task =>
      have hact : d.act (.send place answer) = _ := send_eq hloop hplace answer
      rw [hact]
      exact ⟨_, rfl, Or.inr ⟨rfl, DrainLoop.heard_submitted _ _ _⟩⟩
  | stop =>
    refine ⟨loop, ?_, Or.inr ⟨rfl, rfl⟩⟩
    show d.reporter.requestStop.loop = some loop
    unfold Reporter.requestStop
    split <;> exact hloop
  | _ => exact ⟨loop, hloop, Or.inr ⟨rfl, rfl⟩⟩

theorem Throttled.waiting_act (h : d.Throttled parallel) (hloop : d.reporter.loop = some loop)
    {payload : Bytes} {entries : Nat} {next : DrainLoop.Next}
    (hcase : loop.phase = .submitting payload entries next) (act : Act) :
    ∃ loop', (d.act act).reporter.loop = some loop' ∧
      (loop'.phase.underWay = [payload] ∧ (d.act act).journal.submitted = d.journal.submitted ∨
        loop'.phase = next.phase ∧
          (d.act act).journal.submitted = d.journal.submitted ++ [payload]) := by
  obtain ⟨loop', hloop', hturn | ⟨hphase, hsubmitted⟩⟩ := h.act_cases hloop act
  on_goal 2 => exact ⟨loop', hloop', Or.inl ⟨by rw [hphase, hcase]; rfl, hsubmitted⟩⟩
  refine ⟨loop', hloop', ?_⟩
  generalize (d.act act).journal = journal' at hturn ⊢
  cases hturn with
  | quiet phase pending hunderWay hpanicked =>
    exact Or.inl ⟨hunderWay.trans (by rw [hcase]; rfl), rfl⟩
  | reap phase hunderWay hruns' hruns =>
    exact Or.inl ⟨hunderWay.trans (by rw [hcase]; rfl), rfl⟩
  | encode payload' next' hother => rw [hcase] at hother; cases hother
  | panic next' hother => rw [hcase] at hother; cases hother
  | refuse payload' entries' next' hsame hclosed =>
    rw [(h.loop loop hloop).opened] at hclosed
    cases hclosed
  | submit payload' entries' next' hsame hpermit =>
    rw [hcase] at hsame
    cases hsame
    exact Or.inr ⟨rfl, rfl⟩

theorem Throttled.waiting_loop (h : d.Throttled parallel) (hloop : d.reporter.loop = some loop)
    {payload : Bytes} {entries : Nat} {next : DrainLoop.Next}
    (hcase : loop.phase = .submitting payload entries next) (now : Nat) :
    (d.act (.loop now)).journal.submitted =
      if loop.held < parallel then d.journal.submitted ++ [payload] else d.journal.submitted := by
  obtain ⟨hpermits, -⟩ := (h.loop loop hloop).running (by rw [hcase]; rfl)
  have hact : d.act (.loop now) = d.step now loop := by
    simp only [Drainage.act, Drainage.loopAct, hloop, hcase]
  have hopen := (h.loop loop hloop).opened
  rw [hact]
  by_cases hfree : loop.permits = 0
  · rw [if_neg (by omega)]
    simp only [Drainage.step, MetricStream.loopStep, Journal.noted, hcase, hopen,
      Bool.false_eq_true, if_false, if_pos hfree]
  · rw [if_pos (by omega)]
    simp only [Drainage.step, MetricStream.loopStep, hcase, hopen, Bool.false_eq_true, if_false,
      if_neg hfree]
    cases next <;> simp only [Journal.noted, DrainLoop.Next.phase, hcase, hopen, Bool.false_eq_true,
      if_false]

theorem Throttled.submitted_act (h : d.Throttled parallel) (hloop : d.reporter.loop = some loop)
    {act : Act} (hnew : (d.act act).journal.submitted ≠ d.journal.submitted) :
    loop.held < parallel ∧ loop.phase.underWay ≠ [] ∧
      (d.act act).journal.submitted = d.journal.submitted ++ loop.phase.underWay ∧
      (parallel ≤ d.journal.submitted.length →
        ∃ number < d.journal.submitted.length, number ∈ d.journal.answerNumbers ∧
          ∀ task ∈ loop.tasks, task.number = number → task.isEnded = true) := by
  have hthrottled := h.loop loop hloop
  obtain ⟨loop', -, hturn | ⟨-, hsubmitted⟩⟩ := h.act_cases hloop act
  on_goal 2 => exact absurd hsubmitted hnew
  generalize (d.act act).journal = journal' at hturn hnew ⊢
  cases hturn with
  | submit payload entries next hcase hpermit =>
    have hruns : loop.phase.isPanicked = false := by rw [hcase]; rfl
    obtain ⟨hpermits, -⟩ := hthrottled.running hruns
    have hended := hthrottled.exists_ended hruns hpermit
    rw [hcase]
    exact ⟨by omega, nofun, rfl, hended⟩
  | quiet | reap | encode | panic | refuse => exact absurd rfl hnew

def answering (place : Nat) (outcome : SendOutcome) : List Act :=
  .send place (some outcome) :: match outcome with
    | .panicked => []
    | _ => [.send place none, .send place none]

theorem send_loop (hloop : d.reporter.loop = some loop) {place : Nat} {before : SendTask}
    (hplace : loop.tasks[place]? = some before) (answer : Option SendOutcome) {after : SendTask}
    (hstep : (SendTask.Moment.step d.reporter.metricType answer
      ⟨before, d.reporter.metrics, d.telemetry⟩).task = after) :
    (d.send place answer).reporter.loop = some { loop with
      tasks := loop.tasks.set place after
      permits := loop.permits + if after.isEnded && !before.isEnded then 1 else 0 } := by
  rw [send_eq hloop hplace, ← hstep]

theorem run_answering (hloop : d.reporter.loop = some loop) {place number entries : Nat}
    {payload : Bytes} (hplace : loop.tasks[place]? = some ⟨number, payload, entries, .calling⟩)
    (outcome : SendOutcome) :
    (d.run (answering place outcome)).reporter.loop = some { loop with
      tasks := loop.tasks.set place ⟨number, payload, entries, .ended⟩
      permits := loop.permits + 1 } := by
  have hlt := (List.getElem?_eq_some_iff.1 hplace).1
  -- An answer that is no panic takes the task over `.returned` and `.uncounted`.
  have hthrice : outcome ≠ .panicked →
      (d.run [.send place (some outcome), .send place none, .send place none]).reporter.loop =
        some { loop with
          tasks := loop.tasks.set place ⟨number, payload, entries, .ended⟩
          permits := loop.permits + 1 } := by
    intro hcalm
    have hstep : ∀ metrics telemetry, (SendTask.Moment.step d.reporter.metricType (some outcome)
        ⟨⟨number, payload, entries, .calling⟩, metrics, telemetry⟩).task =
          ⟨number, payload, entries, .returned outcome⟩ := by
      intro metrics telemetry
      cases outcome with
      | panicked => exact absurd rfl hcalm
      | _ => rfl
    have hsettle : ∀ metricType metrics telemetry, (SendTask.Moment.step metricType none
        ⟨⟨number, payload, entries, .uncounted outcome⟩, metrics, telemetry⟩).task =
          ⟨number, payload, entries, .ended⟩ := by
      intro metricType metrics telemetry
      cases outcome <;> rfl
    have hreturned := send_loop hloop hplace (some outcome) (hstep _ _)
    have huncounted := send_loop hreturned (List.getElem?_set_self hlt) none rfl
    have hended := send_loop huncounted (List.getElem?_set_self (by rwa [List.length_set])) none
      (hsettle _ _ _)
    simp only [List.set_set] at hended
    exact hended
  cases outcome with
  | panicked => exact send_loop hloop hplace (some .panicked) rfl
  | delivered => exact hthrice nofun
  | failed => exact hthrice nofun
  | cancelled => exact hthrice nofun

structure Metered (parallel : Nat) (d : Drainage) : Prop where
  /-- No permit is ever refused. -/
  opened : ∀ loop, d.reporter.loop = some loop → loop.closed = false
  outstanding : d.journal.outstanding.length ≤ parallel
  conserved : ∀ loop, d.reporter.loop = some loop → loop.phase.isPanicked = false →
    loop.permits + loop.held = parallel
  /-- The end of a loop that panicked is the end of its sends. -/
  torn : ∀ loop, d.reporter.loop = some loop → loop.phase.isPanicked = true →
    loop.tasks = []
  /-- No payload is lost or overtaken between its encoding and its submission. -/
  ordered : ∀ loop, d.reporter.loop = some loop →
    d.journal.encoded.map Prod.snd = d.journal.submitted ++ loop.phase.underWay
  /-- A payload that waits goes on waiting or is the next one submitted. -/
  waiting : ∀ loop payload entries next, d.reporter.loop = some loop →
    loop.phase = .submitting payload entries next → ∀ act : Act,
      ∃ loop', (d.act act).reporter.loop = some loop' ∧
        (loop'.phase.underWay = [payload] ∧ (d.act act).journal.submitted = d.journal.submitted ∨
          loop'.phase = next.phase ∧
            (d.act act).journal.submitted = d.journal.submitted ++ [payload])
  /-- It waits no longer than all permits are held. -/
  admitted : ∀ loop payload entries next, d.reporter.loop = some loop →
    loop.phase = .submitting payload entries next → ∀ now,
      (d.act (.loop now)).journal.submitted =
        if loop.held < parallel then d.journal.submitted ++ [payload] else d.journal.submitted
  /-- A payload beyond the first ones is submitted after the end of an earlier send. -/
  submitted : ∀ loop, d.reporter.loop = some loop → ∀ act : Act,
    (d.act act).journal.submitted ≠ d.journal.submitted →
      loop.held < parallel ∧ loop.phase.underWay ≠ [] ∧
        (d.act act).journal.submitted = d.journal.submitted ++ loop.phase.underWay ∧
        (parallel ≤ d.journal.submitted.length →
          ∃ number < d.journal.submitted.length, number ∈ d.journal.answerNumbers ∧
            ∀ task ∈ loop.tasks, task.number = number → task.isEnded = true)
  /-- No answer keeps the permit of its send. -/
  returned : ∀ loop place number payload entries, d.reporter.loop = some loop →
    loop.tasks[place]? = some ⟨number, payload, entries, .calling⟩ → ∀ outcome,
      (d.run (answering place outcome)).reporter.loop = some { loop with
        tasks := loop.tasks.set place ⟨number, payload, entries, .ended⟩
        permits := loop.permits + 1 }

theorem Throttled.metered (h : d.Throttled parallel) : d.Metered parallel where
  opened loop hloop := (h.loop loop hloop).opened
  outstanding := by
    cases hloop : d.reporter.loop with
    | none =>
      obtain ⟨-, -, hcalled, -⟩ := h.asleep hloop
      rw [Journal.outstanding, Journal.callNumbers, hcalled]
      exact Nat.zero_le _
    | some loop => exact (h.loop loop hloop).outstanding
  conserved loop hloop hruns := ((h.loop loop hloop).running hruns).1
  torn loop hloop := (h.loop loop hloop).panicked
  ordered loop hloop := (h.loop loop hloop).encoded
  waiting _ _ _ _ hloop hcase act := h.waiting_act hloop hcase act
  admitted _ _ _ _ hloop hcase now := h.waiting_loop hloop hcase now
  submitted _ hloop _ hnew := h.submitted_act hloop hnew
  returned _ _ _ _ _ hloop hplace outcome := run_answering hloop hplace outcome

/-- Held and free permits are always as many as there were at the start, and the permits are never
closed: whatever the sender answers, no permit is lost and no payload is dropped for want of one. -/
theorem permits_conserved (metricType : String) (settings : DrainSettings) (writer : PayloadWriter)
    (ring : Ring) (tags : TagTable) (acts : List Act) :
    ((ready metricType settings writer ring tags).run acts).Metered (max 1 settings.maxParallel) :=
  ((ready_throttled metricType settings writer ring tags).run acts).metered

/-- Two payloads share one permit: the second waits while the first is at the sender. -/
def crowding : List Act :=
  [.write 10 0, .write 20 0] ++ List.replicate 6 (.access 0 false) ++
    List.replicate 6 (.access 1 false) ++ [.start 0 true] ++ List.replicate 34 (.loop 0) ++
    [.send 0 none, .send 0 none]

theorem permits_conserved_panicking :
    let start := ready "Values" ⟨0, 0, 0, 0⟩ (.ofFormat .longValue) (Ring.startingAt 2 5 {}) {}
    let crowded := start.run crowding
    let relieved := crowded.run [.send 0 (some .panicked), .loop 0]
    crowded.reporter.loop.map (fun loop => (loop.permits, loop.held)) = some (0, 1) ∧
      crowded.journal.outstanding = [0] ∧ relieved.journal.submitted.length = 2 ∧
      crowded.Metered 1 ∧ relieved.Metered 1 := by
  intro start crowded relieved
  have hheld : crowded.reporter.loop.map (fun loop => (loop.permits, loop.held)) = some (0, 1) := by
    decide +kernel
  have houtstanding : crowded.journal.outstanding = [0] := by decide +kernel
  have hsubmitted : relieved.journal.submitted.length = 2 := by decide +kernel
  have hmetered : ∀ acts, (start.run acts).Metered 1 := fun acts =>
    permits_conserved "Values" ⟨0, 0, 0, 0⟩ (.ofFormat .longValue) (Ring.startingAt 2 5 {}) {} acts
  have hrelieved := hmetered (crowding ++ [.send 0 (some .panicked), .loop 0])
  rw [run, List.foldl_append] at hrelieved
  exact ⟨hheld, houtstanding, hsubmitted, hmetered crowding, hrelieved⟩

end Drainage

end MetricReporting
