import MetricReporting.Proofs.Reporter.Books

/-!
# Sends that end in every way

A send ends because its call returns, because the call panics, or because its loop is torn, by a
panic of its own or by the disposal of its reporter, and the call is dropped. A `Lifespan` is a
drainage that may be disposed of, with the sends that outlive their loop until they next wait. The
counter of sends in flight is moved by the task itself, around its call: it shows the open calls
and, for ever, the calls that did not return.
-/
namespace MetricReporting

/-- The loop has ended without waiting for its sends. -/
def DrainLoop.isTorn (loop : DrainLoop) : Bool :=
  match loop.phase with
  | .panicked | .aborted => true
  | _ => false

theorem Reporter.dispose_detached {reporter : Reporter} (h : reporter.attached = false) :
    reporter.dispose.loop = reporter.loop := by
  simp only [dispose, h, Bool.false_eq_true, if_false]

theorem Reporter.dispose_over {reporter : Reporter} {loop : DrainLoop}
    (hloop : reporter.loop = some loop) (hover : loop.isOver = true) :
    reporter.dispose.loop = reporter.loop := by
  simp only [dispose, hloop, Option.map_some, hover, if_true, ite_self]

structure Lifespan where
  drainage : Drainage
  /-- The sends whose loop is torn. -/
  orphans : List SendTask := []
  /-- The numbers of the payloads whose calls were dropped. -/
  aborted : List Nat := []

namespace Lifespan

inductive Act
  | own (act : Drainage.Act)
  | dispose
  /-- The orphan at this place goes on; `answer` is how the call of the sender ends, if it does. -/
  | linger (place : Nat) (answer : Option SendOutcome)
  /-- The orphan at this place is dropped, before it begins or in its call. -/
  | abort (place : Nat)

/-- The sends under way that the loop leaves behind as it is torn. -/
def leftBehind (before after : DrainLoop) : List SendTask :=
  if after.isTorn && !before.isTorn then before.tasks.filter fun task => !task.isEnded else []

def become (life : Lifespan) (drainage : Drainage) : Lifespan :=
  { life with
    drainage := drainage
    orphans := life.orphans ++ leftBehind life.drainage.loop drainage.loop }

def linger (life : Lifespan) (place : Nat) (answer : Option SendOutcome) : Lifespan :=
  match life.orphans[place]? with
  | none => life
  | some task =>
      let d := life.drainage
      let moment :=
        SendTask.Moment.step d.reporter.metricType answer ⟨task, d.reporter.metrics, d.telemetry⟩
      { life with
        drainage := { d with
          telemetry := moment.telemetry
          reporter := { d.reporter with metrics := moment.metrics }
          journal := d.journal.heard task answer }
        orphans := life.orphans.set place moment.task }

def abort (life : Lifespan) (place : Nat) : Lifespan :=
  match life.orphans[place]? with
  | none => life
  | some task =>
      match task.phase with
      | .spawned => { life with orphans := life.orphans.set place { task with phase := .ended } }
      | .calling =>
          { life with
            orphans := life.orphans.set place { task with phase := .ended }
            aborted := life.aborted ++ [task.number] }
      | _ => life

def act (life : Lifespan) : Act → Lifespan
  | .own act => life.become (life.drainage.act act)
  | .dispose => life.become { life.drainage with reporter := life.drainage.reporter.dispose }
  | .linger place answer => life.linger place answer
  | .abort place => life.abort place

def run (life : Lifespan) (acts : List Act) : Lifespan :=
  acts.foldl act life

/-- All sends that the reporter or its torn loop has. -/
def sends (life : Lifespan) : List SendTask :=
  life.drainage.loop.tasks ++ life.orphans

def metrics (life : Lifespan) : ReporterMetrics :=
  life.drainage.reporter.metrics

/-- How many calls of the sender were begun and have neither returned nor panicked nor been
dropped. -/
def openCalls (life : Lifespan) : Nat :=
  life.drainage.journal.called.length -
    (life.drainage.journal.answered.length + life.aborted.length)

/-- How many calls of the sender ended without returning. -/
def lost (life : Lifespan) : Nat :=
  (life.drainage.journal.answeredAs .panicked).length + life.aborted.length

end Lifespan

/-! ## One step of a send -/

namespace SendTask

variable {tasks : List SendTask} {task : SendTask} {i : Nat}

theorem inFlight_le_open (tasks : List SendTask) :
    inFlight tasks ≤ tasks.countP fun task => !task.isEnded := by
  refine List.countP_mono_left fun task _ hflight => ?_
  cases hended : task.isEnded with
  | false => rfl
  | true =>
    have hphase : task.phase = .ended := eq_of_beq hended
    rw [hphase] at hflight
    cases hflight

theorem open_set_le (hplace : tasks[i]? = some task) (task' : SendTask)
    (hstays : task.isEnded = true → task'.isEnded = true) :
    (tasks.set i task').countP (fun task => !task.isEnded) ≤
      tasks.countP fun task => !task.isEnded := by
  have hcount := countP_set_add (fun task : SendTask => !task.isEnded) hplace (b := task')
  cases hbefore : task.isEnded with
  | true =>
    rw [hbefore, hstays hbefore] at hcount
    omega
  | false =>
    rw [hbefore] at hcount
    simp only [Bool.not_false, if_true] at hcount
    split at hcount <;> omega

theorem reaped_counts (tasks : List SendTask) :
    inFlight (tasks.filter fun task => !task.isEnded) = inFlight tasks ∧
      (tasks.filter fun task => !task.isEnded).countP isCalling = tasks.countP isCalling := by
  have hended : ∀ task : SendTask, task.isEnded = true →
      task.phase.isInFlight = false ∧ task.isCalling = false := by
    intro task hended
    have hphase : task.phase = .ended := eq_of_beq hended
    rw [isCalling, hphase]
    exact ⟨rfl, rfl⟩
  constructor
  · rw [inFlight, List.countP_filter, inFlight]
    refine List.countP_congr fun task _ => ?_
    cases hcase : task.isEnded with
    | false => simp
    | true => simp [(hended task hcase).1]
  · rw [List.countP_filter]
    refine List.countP_congr fun task _ => ?_
    cases hcase : task.isEnded with
    | false => simp
    | true => simp [(hended task hcase).2]

/-- What a step of a send does to the counter of sends in flight, to the calls noted and to the
calls lost, which are `lost` more after it. -/
structure Accounted (moment : Moment) (journal : Journal) (moment' : Moment) (journal' : Journal)
    (lost : Nat) : Prop where
  panicked : (journal'.answeredAs .panicked).length =
    (journal.answeredAs .panicked).length + lost
  inFlight : moment'.metrics.inFlight + .ofNat (if moment.task.phase.isInFlight then 1 else 0) =
    moment.metrics.inFlight + .ofNat ((if moment'.task.phase.isInFlight then 1 else 0) + lost)
  calls : journal'.called.length + journal.answered.length +
      (if moment.task.isCalling then 1 else 0) =
    journal.called.length + journal'.answered.length + if moment'.task.isCalling then 1 else 0
  high : moment'.metrics.maxInFlight = moment.metrics.maxInFlight ∨
    moment'.metrics.maxInFlight = max moment.metrics.maxInFlight moment'.metrics.inFlight

theorem settle_counts (metricType : String) (moment : Moment) (outcome : SendOutcome) :
    (moment.settle metricType outcome).metrics.inFlight = moment.metrics.inFlight ∧
      (moment.settle metricType outcome).metrics.maxInFlight = moment.metrics.maxInFlight := by
  cases outcome <;> exact ⟨rfl, rfl⟩

theorem answeredAs_panicked_concat (journal : Journal) (number : Nat) (outcome : SendOutcome) :
    (Journal.answeredAs { journal with answered := journal.answered ++ [(number, outcome)] }
      .panicked).length =
      (journal.answeredAs .panicked).length + if outcome = .panicked then 1 else 0 := by
  simp only [Journal.answeredAs, List.filter_append, List.map_append, List.length_append]
  cases outcome <;> rfl

theorem step_accounted (metricType : String) (answer : Option SendOutcome) (moment : Moment)
    (journal : Journal) : ∃ lost, Accounted moment journal (moment.step metricType answer)
      (journal.heard moment.task answer) lost := by
  obtain ⟨⟨number, payload, entries, phase⟩, metrics, telemetry⟩ := moment
  cases phase with
  | spawned => exact ⟨0, rfl, UInt64.add_zero _, rfl, Or.inr rfl⟩
  | counted =>
    refine ⟨0, rfl, rfl, ?_, Or.inl rfl⟩
    simp [Journal.heard, Moment.step, Moment.enter, isCalling]
    omega
  | calling =>
    cases answer with
    | none => exact ⟨0, rfl, rfl, rfl, Or.inl rfl⟩
    | some outcome =>
      refine ⟨if outcome = .panicked then 1 else 0,
        answeredAs_panicked_concat journal number outcome, ?_, ?_, ?_⟩
      · cases outcome <;> rfl
      · cases outcome <;> simp [Journal.heard, Moment.step, Moment.enter, isCalling, Nat.add_assoc]
      · cases outcome <;> exact Or.inl rfl
  | returned outcome =>
    refine ⟨0, rfl, ?_, rfl, Or.inl rfl⟩
    exact (UInt64.sub_add_cancel _ _).trans (UInt64.add_zero _).symm
  | uncounted outcome =>
    obtain ⟨hflight, hhigh⟩ := settle_counts metricType
      ⟨⟨number, payload, entries, .uncounted outcome⟩, metrics, telemetry⟩ outcome
    exact ⟨0, rfl, congrArg (· + 0) hflight, rfl, Or.inl hhigh⟩
  | ended => exact ⟨0, rfl, rfl, rfl, Or.inl rfl⟩

end SendTask

namespace Lifespan

/-- The counter of sends in flight shows those in flight and those lost. -/
structure Account (parallel : Nat) (life : Lifespan) : Prop where
  room : life.sends.countP (fun task => !task.isEnded) ≤ parallel
  inFlight : life.metrics.inFlight = .ofNat (SendTask.inFlight life.sends + life.lost)
  calls : life.drainage.journal.called.length = life.drainage.journal.answered.length +
    life.aborted.length + life.sends.countP SendTask.isCalling
  high : life.metrics.maxInFlight.toNat ≤ parallel + life.lost

variable {parallel i : Nat} {life life' : Lifespan} {task : SendTask} {loop : DrainLoop}

theorem Account.inFlight_le (h : Account parallel life) :
    life.metrics.inFlight.toNat ≤ parallel + life.lost := by
  have hflight := SendTask.inFlight_le_open life.sends
  have hroom := h.room
  rw [h.inFlight, UInt64.toNat_ofNat']
  exact (Nat.mod_le _ _).trans (by omega)

theorem Account.frame (h : Account parallel life)
    (hinFlight : life'.metrics.inFlight = life.metrics.inFlight)
    (hhigh : life'.metrics.maxInFlight = life.metrics.maxInFlight)
    (hcalled : life'.drainage.journal.called = life.drainage.journal.called)
    (hanswered : life'.drainage.journal.answered = life.drainage.journal.answered)
    (haborted : life'.aborted = life.aborted)
    (hsends : SendTask.inFlight life'.sends = SendTask.inFlight life.sends ∧
      life'.sends.countP SendTask.isCalling = life.sends.countP SendTask.isCalling)
    (hroom : life'.sends.countP (fun task => !task.isEnded) ≤ parallel) :
    Account parallel life' := by
  have hlost : life'.lost = life.lost := by
    rw [lost, lost, Journal.answeredAs, Journal.answeredAs, hanswered, haborted]
  refine ⟨hroom, ?_, ?_, ?_⟩
  · rw [hinFlight, h.inFlight, hsends.1, hlost]
  · rw [hcalled, h.calls, hanswered, haborted, hsends.2]
  · rw [hhigh, hlost]
    exact h.high

theorem Account.step (h : Account parallel life) (answer : Option SendOutcome)
    (hplace : life.sends[i]? = some task) {moment : SendTask.Moment}
    (hmoment : moment = SendTask.Moment.step life.drainage.reporter.metricType answer
      ⟨task, life.metrics, life.drainage.telemetry⟩)
    (hsends : life'.sends = life.sends.set i moment.task)
    (hmetrics : life'.metrics = moment.metrics)
    (hjournal : life'.drainage.journal = life.drainage.journal.heard task answer)
    (haborted : life'.aborted = life.aborted) : Account parallel life' := by
  have hstays : task.isEnded = true → moment.task.isEnded = true := fun hended =>
    hmoment ▸ SendTask.Moment.step_isEnded _ _ hended
  obtain ⟨more, hstep⟩ := SendTask.step_accounted life.drainage.reporter.metricType answer
    ⟨task, life.metrics, life.drainage.telemetry⟩ life.drainage.journal
  rw [← hmoment, ← hjournal] at hstep
  obtain ⟨hpanicked, hinFlight, hcalls, hhigh⟩ := hstep
  rw [← hmetrics] at hinFlight hhigh
  have hlost : life'.lost = life.lost + more := by
    rw [lost, lost, hpanicked, haborted]
    omega
  have hflight : SendTask.inFlight life'.sends + (if task.phase.isInFlight then 1 else 0) =
      SendTask.inFlight life.sends + if moment.task.phase.isInFlight then 1 else 0 := by
    rw [hsends]
    exact countP_set_add _ hplace
  have hcalling : life'.sends.countP SendTask.isCalling + (if task.isCalling then 1 else 0) =
      life.sends.countP SendTask.isCalling + if moment.task.isCalling then 1 else 0 := by
    rw [hsends]
    exact countP_set_add _ hplace
  have hroom : life'.sends.countP (fun task => !task.isEnded) ≤ parallel := by
    rw [hsends]
    exact (SendTask.open_set_le hplace _ hstays).trans h.room
  -- the step says what the counter becomes as a sum of words, so no subtraction has to be undone
  have hword : life'.metrics.inFlight = .ofNat (SendTask.inFlight life'.sends + life'.lost) := by
    have hsum : SendTask.inFlight life.sends + life.lost +
        ((if moment.task.phase.isInFlight then 1 else 0) + more) =
        SendTask.inFlight life'.sends + life'.lost + if task.phase.isInFlight then 1 else 0 := by
      omega
    have hshown := congrArg UInt64.ofNat hsum
    rw [UInt64.ofNat_add, UInt64.ofNat_add _ (if task.phase.isInFlight then 1 else 0),
      ← h.inFlight] at hshown
    exact (UInt64.add_left_inj _).1 (hinFlight.trans hshown)
  refine ⟨hroom, hword, ?_, ?_⟩
  · have hbefore := h.calls
    simp only at hcalls
    rw [haborted]
    omega
  · have hle : life'.metrics.inFlight.toNat ≤ parallel + life'.lost := by
      have hopen := SendTask.inFlight_le_open life'.sends
      rw [hword, UInt64.toNat_ofNat']
      exact (Nat.mod_le _ _).trans (by omega)
    have hbefore := h.high
    rcases hhigh with hsame | hmax
    · rw [hsame]
      exact hbefore.trans (by omega)
    · rw [hmax, UInt64.max_def]
      split
      · exact hle
      · exact hbefore.trans (by omega)

theorem Account.abort_spawned (h : Account parallel life) (hplace : life.sends[i]? = some task)
    (hphase : task.phase = .spawned) (hdrainage : life'.drainage = life.drainage)
    (hsends : life'.sends = life.sends.set i { task with phase := .ended })
    (haborted : life'.aborted = life.aborted) : Account parallel life' := by
  have hflight := countP_set_add (fun task : SendTask => task.phase.isInFlight) hplace
    (b := { task with phase := .ended })
  have hcalling := countP_set_add SendTask.isCalling hplace (b := { task with phase := .ended })
  have hroom := SendTask.open_set_le hplace { task with phase := .ended } fun _ => rfl
  rw [hphase] at hflight
  rw [SendTask.isCalling, hphase] at hcalling
  refine h.frame ?_ ?_ ?_ ?_ haborted ⟨?_, ?_⟩ ?_
  · rw [metrics, hdrainage, metrics]
  · rw [metrics, hdrainage, metrics]
  · rw [hdrainage]
  · rw [hdrainage]
  · rw [hsends]
    exact hflight
  · rw [hsends]
    exact hcalling
  · rw [hsends]
    exact hroom.trans h.room

theorem Account.abort_calling (h : Account parallel life) (hplace : life.sends[i]? = some task)
    (hphase : task.phase = .calling) (hdrainage : life'.drainage = life.drainage)
    (hsends : life'.sends = life.sends.set i { task with phase := .ended })
    (haborted : life'.aborted = life.aborted ++ [task.number]) : Account parallel life' := by
  have hflight : SendTask.inFlight (life.sends.set i { task with phase := .ended }) + 1 =
      SendTask.inFlight life.sends := by
    have hcount := countP_set_add (fun task : SendTask => task.phase.isInFlight) hplace
      (b := { task with phase := .ended })
    rwa [hphase] at hcount
  have hcalling : (life.sends.set i { task with phase := .ended }).countP SendTask.isCalling + 1 =
      life.sends.countP SendTask.isCalling := by
    have hcount := countP_set_add SendTask.isCalling hplace (b := { task with phase := .ended })
    rwa [SendTask.isCalling, hphase] at hcount
  have hroom := SendTask.open_set_le hplace { task with phase := .ended } fun _ => rfl
  have hlost : life'.lost = life.lost + 1 := by
    rw [lost, lost, hdrainage, haborted, List.length_append, List.length_singleton, Nat.add_assoc]
  have hmetrics : life'.metrics = life.metrics := by rw [metrics, hdrainage, metrics]
  refine ⟨?_, ?_, ?_, ?_⟩
  · rw [hsends]
    exact hroom.trans h.room
  · rw [hmetrics, h.inFlight, hsends, hlost]
    congr 1
    omega
  · rw [hdrainage, h.calls, haborted, hsends, List.length_append, List.length_singleton]
    omega
  · rw [hmetrics, hlost]
    exact h.high.trans (Nat.le_succ _)

/-! ## Whole and torn loops -/

/-- What a loop that is not torn does to its sends: they stay, those that ended are forgotten, one
more is spawned, or the loop is torn. -/
inductive Rearranged (loop : DrainLoop) : DrainLoop → Prop
  | same {loop' : DrainLoop} :
      loop'.isTorn = false → loop'.tasks = loop.tasks → Rearranged loop loop'
  | reaped {loop' : DrainLoop} : loop'.isTorn = false → loop'.tasks = loop.reaped.tasks →
      Rearranged loop loop'
  | spawned {loop' : DrainLoop} (task : SendTask) : loop'.isTorn = false → task.phase = .spawned →
      loop'.tasks = loop.tasks ++ [task] → Rearranged loop loop'
  | torn {loop' : DrainLoop} : loop'.isTorn = true → loop'.tasks = [] → Rearranged loop loop'

theorem stepped_rearranged {stream stream' : MetricStream} {now : Nat} {journal journal' : Journal}
    {loop' : DrainLoop} (h : DrainLoop.Stepped stream now journal loop stream' journal' loop')
    (hwhole : loop.isTorn = false) : Rearranged loop loop' := by
  cases h with
  | pass phase hpasses =>
    refine .same ?_ rfl
    generalize loop.phase = before at hpasses
    cases hpasses <;> rfl
  | wake | rest | encode | finish => exact .reaped rfl rfl
  | panic next hcase hnone => exact .torn rfl rfl
  | refuse payload entries next hcase hclosed => exact .same (by cases next <;> rfl) rfl
  | submit payload entries next hcase hopen hpermit =>
    exact .spawned ⟨loop.submitted, payload, entries, .spawned⟩ (by cases next <;> rfl) rfl rfl
  | stay hready => exact .same hwhole rfl

structure SameCounts (d d' : Drainage) : Prop where
  inFlight : d'.reporter.metrics.inFlight = d.reporter.metrics.inFlight
  high : d'.reporter.metrics.maxInFlight = d.reporter.metrics.maxInFlight
  called : d'.journal.called = d.journal.called
  answered : d'.journal.answered = d.journal.answered

theorem noted_calls (journal : Journal) (before after : DrainLoop) :
    (journal.noted before after).called = journal.called ∧
      (journal.noted before after).answered = journal.answered := by
  unfold Journal.noted
  split
  · exact ⟨rfl, rfl⟩
  · exact ⟨rfl, rfl⟩
  · split <;> exact ⟨rfl, rfl⟩
  · exact ⟨rfl, rfl⟩

variable {d d' : Drainage} {now : Nat}

theorem move_rearranged (h : Drainage.LoopMove d now d') (hwhole : d.loop.isTorn = false) :
    Rearranged d.loop d'.loop ∧ SameCounts d d' := by
  cases h with
  | asleep hnone => exact ⟨.same hwhole rfl, rfl, rfl, rfl, rfl⟩
  | step loop hloop hdrained =>
    have hcurrent : d.loop = loop := by rw [Drainage.loop, hloop, Option.getD_some]
    have hstepped : loop.Stepped d.stream now d.journal _ _ _ := Drainage.step_stepped hdrained
    have hreporter : (d.stream.loopStep now loop).1.reporter = d.reporter := hstepped.kept.1
    have hmetrics := congrArg Reporter.metrics hreporter
    rw [hcurrent] at hwhole ⊢
    obtain ⟨hcalled, hanswered⟩ := noted_calls d.journal loop (d.stream.loopStep now loop).2
    exact ⟨stepped_rearranged hstepped hwhole, congrArg ReporterMetrics.inFlight hmetrics,
      congrArg ReporterMetrics.maxInFlight hmetrics, hcalled, hanswered⟩
  | begin loop target final hloop hcase => exact ⟨.same hwhole rfl, rfl, rfl, rfl, rfl⟩
  | consume loop target final hloop hcase =>
    have hcurrent : d.loop = loop := by rw [Drainage.loop, hloop, Option.getD_some]
    obtain ⟨phase, hdraining, hconsume⟩ := Drainage.consume_eq d hcase
    rw [hconsume, hcurrent]
    refine ⟨.same ?_ rfl, rfl, rfl, rfl, rfl⟩
    show DrainLoop.isTorn { loop with phase := phase, pending := _ } = false
    cases phase with
    | panicked | aborted => cases hdraining
    | _ => rfl

/-- A torn loop does nothing more, and has no sends that could. -/
structure Torn (d : Drainage) (loop : DrainLoop) : Prop where
  started : d.reporter.started = true
  loop_eq : d.reporter.loop = some loop
  isTorn : loop.isTorn = true
  tasks : loop.tasks = []

theorem loopAct_torn (h : Torn d loop) (now : Nat) : d.loopAct now = d := by
  obtain ⟨hstarted, hloop, htorn, htasks⟩ := h
  have hstay : d.put (d.stream, loop) = d := by
    simp only [Drainage.put, Drainage.stream, ← hloop]
  unfold DrainLoop.isTorn at htorn
  cases hphase : loop.phase with
  | panicked | aborted =>
    simp only [Drainage.loopAct, hloop, hphase, Drainage.step, MetricStream.loopStep, Journal.noted]
    exact hstay
  | _ =>
    rw [hphase] at htorn
    cases htorn

theorem act_torn (h : Torn d loop) (act : Drainage.Act) :
    Torn (d.act act) loop ∧ SameCounts d (d.act act) := by
  have hsame : Torn d loop ∧ SameCounts d d := ⟨h, rfl, rfl, rfl, rfl⟩
  have hcurrent := h.loop_eq
  cases act with
  | start now runtime =>
    have herror : d.reporter.start now runtime =
        .error (.start d.reporter.metricType .alreadyStarted) :=
      Reporter.start_twice h.started now runtime
    simp only [Drainage.act, herror]
    exact hsame
  | loop now =>
    rw [Drainage.act, loopAct_torn h now]
    exact hsame
  | send place answer =>
    have hnone : loop.tasks[place]? = none := by rw [h.tasks]; rfl
    rw [Drainage.act, Drainage.send_none hcurrent hnone]
    exact hsame
  | stop =>
    simp only [Drainage.act, Drainage.stop, Reporter.requestStop]
    split <;> exact ⟨⟨h.started, hcurrent, h.isTorn, h.tasks⟩, rfl, rfl, rfl, rfl⟩
  | _ => exact ⟨⟨h.started, hcurrent, h.isTorn, h.tasks⟩, rfl, rfl, rfl, rfl⟩

theorem isOver_of_isTorn (h : loop.isTorn = true) : loop.isOver = true := by
  unfold DrainLoop.isTorn at h
  unfold DrainLoop.isOver
  split at h
  · rename_i hphase
    rw [hphase]
  · rename_i hphase
    rw [hphase]
  · cases h

theorem Torn.act (h : Torn life.drainage loop) (act : Act) : Torn (life.act act).drainage loop := by
  cases act with
  | own act => exact (act_torn h act).1
  | dispose =>
    have hkept := Reporter.dispose_over h.loop_eq (isOver_of_isTorn h.isTorn)
    exact ⟨h.started, hkept.trans h.loop_eq, h.isTorn, h.tasks⟩
  | linger place answer =>
    simp only [Lifespan.act, linger]
    split
    · exact h
    · exact ⟨h.started, h.loop_eq, h.isTorn, h.tasks⟩
  | abort place =>
    simp only [Lifespan.act, abort]
    split
    · exact h
    · split <;> exact h

inductive Course (parallel : Nat) (life : Lifespan) : Prop
  | whole : life.orphans = [] → life.aborted = [] → life.drainage.loop.isTorn = false →
      life.drainage.Throttled parallel → Course parallel life
  | torn (loop : DrainLoop) : Torn life.drainage loop → Course parallel life

theorem room_of_throttled (h : d.Throttled parallel) (hwhole : d.loop.isTorn = false) :
    d.loop.tasks.countP (fun task => !task.isEnded) ≤ parallel := by
  cases hloop : d.reporter.loop with
  | none =>
    rw [Drainage.loop, hloop]
    exact Nat.zero_le _
  | some loop =>
    rw [Drainage.loop, hloop, Option.getD_some] at hwhole ⊢
    have hruns : loop.phase.isPanicked = false := by
      unfold DrainLoop.isTorn at hwhole
      cases hphase : loop.phase with
      | panicked => rw [hphase] at hwhole; cases hwhole
      | _ => rfl
    have hpermits := ((h.loop loop hloop).running hruns).1
    rw [← hpermits]
    exact Nat.le_add_left _ _

theorem leftBehind_of_whole {before after : DrainLoop} (h : after.isTorn = false) :
    leftBehind before after = [] := by
  rw [leftBehind, h]
  rfl

theorem leftBehind_of_torn {before after : DrainLoop} (h : before.isTorn = true) :
    leftBehind before after = [] := by
  rw [leftBehind, h, Bool.not_true, Bool.and_false]
  rfl

/-- The loop or its owner does something: whatever the loop leaves behind, nothing that is counted
is lost. -/
theorem become_kept (h : Account parallel life) (horphans : life.orphans = [])
    (haborted : life.aborted = []) (hwhole : life.drainage.loop.isTorn = false)
    (hloop : Rearranged life.drainage.loop d.loop) (hcounts : SameCounts life.drainage d)
    (hstarted : d.reporter.started = false → d.reporter.loop = none)
    (hthrottled : d.loop.isTorn = false → d.Throttled parallel) :
    Course parallel (life.become d) ∧ Account parallel (life.become d) := by
  have hbefore : life.sends = life.drainage.loop.tasks := by
    rw [sends, horphans, List.append_nil]
  have hframe : ∀ {tasks : List SendTask}, (life.become d).sends = tasks →
      SendTask.inFlight tasks = SendTask.inFlight life.drainage.loop.tasks ∧
        tasks.countP SendTask.isCalling = life.drainage.loop.tasks.countP SendTask.isCalling →
      tasks.countP (fun task => !task.isEnded) ≤ parallel → Account parallel (life.become d) := by
    rintro tasks rfl hsame hroom
    exact h.frame hcounts.inFlight hcounts.high hcounts.called hcounts.answered rfl
      (hbefore ▸ hsame) hroom
  have hkept : d.loop.isTorn = false → (life.become d).sends = d.loop.tasks := fun hafter => by
    rw [sends, become, leftBehind_of_whole hafter, horphans, List.append_nil, List.append_nil]
  have hcourse : d.loop.isTorn = false → Course parallel (life.become d) := fun hafter => by
    refine .whole ?_ haborted hafter (hthrottled hafter)
    rw [become, leftBehind_of_whole hafter, horphans, List.append_nil]
  have hroom : d.loop.isTorn = false → d.loop.tasks.countP (fun task => !task.isEnded) ≤ parallel :=
    fun hafter => room_of_throttled (hthrottled hafter) hafter
  cases hloop with
  | same hafter htasks =>
    refine ⟨hcourse hafter, hframe (hkept hafter) ?_ (hroom hafter)⟩
    rw [htasks]
    exact ⟨rfl, rfl⟩
  | reaped hafter htasks =>
    refine ⟨hcourse hafter, hframe (hkept hafter) ?_ (hroom hafter)⟩
    rw [htasks]
    exact SendTask.reaped_counts _
  | spawned task hafter hphase htasks =>
    refine ⟨hcourse hafter, hframe (hkept hafter) ?_ (hroom hafter)⟩
    rw [htasks, SendTask.inFlight, List.countP_append, List.countP_append]
    simp [SendTask.inFlight, SendTask.isCalling, SendTask.Phase.isInFlight, hphase]
  | torn hafter htasks =>
    -- what the loop held and had not ended is what it leaves behind
    have hsome : d.reporter.loop = some d.loop := by
      cases hloop : d.reporter.loop with
      | none =>
        rw [Drainage.loop, hloop] at hafter
        cases hafter
      | some loop => rw [Drainage.loop, hloop, Option.getD_some]
    refine ⟨.torn d.loop ⟨?_, hsome, hafter, htasks⟩, ?_⟩
    · by_contra hnew
      rw [hstarted (Bool.eq_false_iff.2 hnew)] at hsome
      cases hsome
    · have hleft : (life.become d).sends =
          life.drainage.loop.tasks.filter fun task => !task.isEnded := by
        rw [sends, become, leftBehind, hafter, hwhole, horphans]
        show d.loop.tasks ++ ([] ++ _) = _
        rw [htasks]
        rfl
      refine hframe hleft (SendTask.reaped_counts _) ?_
      exact (List.filter_sublist.countP_le).trans (hbefore ▸ h.room)

theorem become_torn (h : Account parallel life) (htorn : Torn life.drainage loop)
    (htorn' : Torn d loop)
    (hcounts : SameCounts life.drainage d) :
    Course parallel (life.become d) ∧ Account parallel (life.become d) := by
  have hloop : life.drainage.loop = loop := by rw [Drainage.loop, htorn.loop_eq, Option.getD_some]
  have hloop' : d.loop = loop := by rw [Drainage.loop, htorn'.loop_eq, Option.getD_some]
  have hsends : (life.become d).sends = life.sends := by
    rw [sends, become, leftBehind_of_torn (by rw [hloop]; exact htorn.isTorn), sends, hloop, hloop',
      List.append_nil]
  refine ⟨.torn loop htorn',
    h.frame hcounts.inFlight hcounts.high hcounts.called hcounts.answered rfl
    ?_ ?_⟩
  · rw [hsends]
    exact ⟨rfl, rfl⟩
  · rw [hsends]
    exact h.room

theorem send_kept (h : Account parallel life) (horphans : life.orphans = [])
    (haborted : life.aborted = []) (hwhole : life.drainage.loop.isTorn = false)
    (hthrottled : life.drainage.Throttled parallel) (place : Nat) (answer : Option SendOutcome) :
    Course parallel (life.act (.own (.send place answer))) ∧
      Account parallel (life.act (.own (.send place answer))) := by
  have hafter := hthrottled.send place answer
  have hsame : ∀ {d : Drainage}, d = life.drainage →
      Course parallel (life.become d) ∧ Account parallel (life.become d) := by
    rintro d rfl
    exact become_kept h horphans haborted hwhole (.same hwhole rfl) ⟨rfl, rfl, rfl, rfl⟩
      hthrottled.unstarted fun _ => hthrottled
  cases hloop : life.drainage.reporter.loop with
  | none => exact hsame (by simp only [Drainage.act, Drainage.send, hloop])
  | some loop =>
    have hcurrent : life.drainage.loop = loop := by rw [Drainage.loop, hloop, Option.getD_some]
    cases hplace : loop.tasks[place]? with
    | none => exact hsame (Drainage.send_none hloop hplace answer)
    | some task =>
      have hsend := Drainage.send_eq hloop hplace answer
      have hplace' : life.sends[place]? = some task := by
        rw [sends, hcurrent, horphans, List.append_nil]
        exact hplace
      have htorn : (life.drainage.send place answer).loop.isTorn = false := by
        rw [hsend]
        exact hcurrent ▸ hwhole
      have hleft :
          leftBehind life.drainage.loop (life.drainage.act (.send place answer)).loop = [] :=
        leftBehind_of_whole htorn
      refine ⟨.whole ?_ haborted htorn hafter, h.step answer hplace' rfl ?_ ?_ ?_ rfl⟩
      · show life.orphans ++ leftBehind _ _ = []
        rw [hleft, horphans]
        rfl
      · show (life.drainage.send place answer).loop.tasks ++ (life.orphans ++ leftBehind _ _) = _
        rw [hleft, sends, hcurrent, horphans, hsend, List.append_nil, List.append_nil,
          List.append_nil]
        rfl
      · show (life.drainage.send place answer).reporter.metrics = _
        rw [hsend]
        rfl
      · show (life.drainage.send place answer).journal = _
        rw [hsend]

theorem own_kept (hcourse : Course parallel life) (h : Account parallel life) (act : Drainage.Act) :
    Course parallel (life.act (.own act)) ∧ Account parallel (life.act (.own act)) := by
  cases hcourse with
  | torn loop htorn =>
    obtain ⟨htorn', hcounts⟩ := act_torn htorn act
    exact become_torn h htorn htorn' hcounts
  | whole horphans haborted hwhole hthrottled =>
    have hafter := hthrottled.act act
    have hbecome :=
      fun hloop hcounts => become_kept (d := life.drainage.act act) h horphans haborted
      hwhole hloop hcounts hafter.unstarted fun _ => hafter
    cases act with
    | loop now =>
      obtain ⟨hloop, hcounts⟩ := move_rearranged (Drainage.loopMove life.drainage now) hwhole
      exact hbecome hloop hcounts
    | send place answer => exact send_kept h horphans haborted hwhole hthrottled place answer
    | start now runtime =>
      cases hstart : life.drainage.reporter.start now runtime with
      | error error =>
        have hsame : life.drainage.act (.start now runtime) = life.drainage := by
          simp only [Drainage.act, hstart]
        rw [hsame] at hbecome
        rw [Lifespan.act, hsame]
        exact hbecome (.same hwhole rfl) ⟨rfl, rfl, rfl, rfl⟩
      | ok reporter =>
        obtain ⟨hnew, rfl⟩ := Drainage.start_eq_ok hstart
        have hnone := hthrottled.unstarted hnew
        refine hbecome (.same ?_ ?_) ?_
        · simp only [Drainage.act, hstart]
          rfl
        · simp only [Drainage.act, hstart, Drainage.loop, hnone]
          rfl
        · simp only [Drainage.act, hstart]
          exact ⟨rfl, rfl, rfl, rfl⟩
    | stop =>
      refine hbecome ?_ ?_
      · simp only [Drainage.act, Drainage.stop, Reporter.requestStop]
        split <;> exact .same hwhole rfl
      · simp only [Drainage.act, Drainage.stop, Reporter.requestStop]
        split <;> exact ⟨rfl, rfl, rfl, rfl⟩
    | _ => exact hbecome (.same hwhole rfl) ⟨rfl, rfl, rfl, rfl⟩

theorem dispose_kept (hcourse : Course parallel life) (h : Account parallel life) :
    Course parallel (life.act .dispose) ∧ Account parallel (life.act .dispose) := by
  cases hcourse with
  | torn loop htorn =>
    exact become_torn h htorn (htorn.act .dispose) ⟨rfl, rfl, rfl, rfl⟩
  | whole horphans haborted hwhole hthrottled =>
    have hbecome := fun hloop hstarted hthrottled' =>
      become_kept (d := { life.drainage with reporter := life.drainage.reporter.dispose }) h
        horphans haborted hwhole hloop ⟨rfl, rfl, rfl, rfl⟩ hstarted hthrottled'
    have hkept : life.drainage.reporter.dispose.loop = life.drainage.reporter.loop →
        Course parallel (life.act .dispose) ∧ Account parallel (life.act .dispose) := by
      intro hloop
      have hsame : Drainage.loop { life.drainage with reporter := life.drainage.reporter.dispose } =
          life.drainage.loop := by rw [Drainage.loop, hloop, Drainage.loop]
      exact hbecome (.same (hsame ▸ hwhole) (congrArg DrainLoop.tasks hsame))
        (fun hnew => hloop.trans (hthrottled.unstarted hnew)) fun _ =>
          ⟨hthrottled.parallel_eq, fun hnew => hloop.trans (hthrottled.unstarted hnew),
            fun hnone => hthrottled.asleep (hloop.symm.trans hnone),
            fun loop hsome => hthrottled.loop loop (hloop.symm.trans hsome)⟩
    cases hattached : life.drainage.reporter.attached with
    | false => exact hkept (Reporter.dispose_detached hattached)
    | true =>
      cases hloop : life.drainage.reporter.loop with
      | none => exact hkept (by simp only [Reporter.dispose, hloop, Option.map_none, ite_self])
      | some loop =>
        cases hover : loop.isOver with
        | true => exact hkept (Reporter.dispose_over hloop hover)
        | false =>
          have htorn : life.drainage.reporter.dispose.loop = some (loop.torn .aborted) := by
            simp only [Reporter.dispose, hattached, hloop, Option.map_some, hover, if_true,
              Bool.false_eq_true, if_false]
          have hafter :
              Drainage.loop { life.drainage with reporter := life.drainage.reporter.dispose } =
              loop.torn .aborted := by rw [Drainage.loop, htorn, Option.getD_some]
          refine hbecome (.torn (by rw [hafter]; rfl) (by rw [hafter]; rfl)) (fun hnew => ?_)
            fun hcase => ?_
          · rw [hthrottled.unstarted hnew] at hloop
            cases hloop
          · rw [hafter] at hcase
            cases hcase

theorem Course.torn_of_orphan (hcourse : Course parallel life) {place : Nat}
    (hplace : life.orphans[place]? = some task) : ∃ loop, Torn life.drainage loop := by
  cases hcourse with
  | whole horphans =>
    rw [horphans] at hplace
    cases hplace
  | torn loop htorn => exact ⟨loop, htorn⟩

theorem Torn.loop_tasks (h : Torn d loop) : d.loop.tasks = [] := by
  rw [Drainage.loop, h.loop_eq, Option.getD_some, h.tasks]

theorem Torn.sends_eq (h : Torn life.drainage loop) : life.sends = life.orphans := by
  rw [sends, h.loop_tasks, List.nil_append]

theorem Torn.sends_set (h : Torn life.drainage loop) (place : Nat) (task : SendTask) :
    life.drainage.loop.tasks ++ life.orphans.set place task = life.sends.set place task := by
  rw [h.sends_eq, h.loop_tasks, List.nil_append]

theorem linger_kept (hcourse : Course parallel life) (h : Account parallel life) (place : Nat)
    (answer : Option SendOutcome) :
    Course parallel (life.linger place answer) ∧ Account parallel (life.linger place answer) := by
  cases hplace : life.orphans[place]? with
  | none => simpa only [linger, hplace] using ⟨hcourse, h⟩
  | some task =>
    obtain ⟨loop, htorn⟩ := hcourse.torn_of_orphan hplace
    simp only [linger, hplace]
    exact ⟨.torn loop ⟨htorn.started, htorn.loop_eq, htorn.isTorn, htorn.tasks⟩,
      h.step answer (htorn.sends_eq ▸ hplace) rfl (htorn.sends_set _ _) rfl rfl rfl⟩

theorem abort_kept (hcourse : Course parallel life) (h : Account parallel life) (place : Nat) :
    Course parallel (life.abort place) ∧ Account parallel (life.abort place) := by
  cases hplace : life.orphans[place]? with
  | none => simpa only [abort, hplace] using ⟨hcourse, h⟩
  | some task =>
    obtain ⟨loop, htorn⟩ := hcourse.torn_of_orphan hplace
    have hsends : life.sends[place]? = some task := htorn.sends_eq ▸ hplace
    cases hphase : task.phase with
    | spawned =>
      simp only [abort, hplace, hphase]
      exact ⟨.torn loop htorn, h.abort_spawned hsends hphase rfl (htorn.sends_set _ _) rfl⟩
    | calling =>
      simp only [abort, hplace, hphase]
      exact ⟨.torn loop htorn, h.abort_calling hsends hphase rfl (htorn.sends_set _ _) rfl⟩
    | _ => simpa only [abort, hplace, hphase] using ⟨.torn loop htorn, h⟩

theorem act_kept (hcourse : Course parallel life) (h : Account parallel life) (act : Act) :
    Course parallel (life.act act) ∧ Account parallel (life.act act) := by
  cases act with
  | own act => exact own_kept hcourse h act
  | dispose => exact dispose_kept hcourse h
  | linger place answer => exact linger_kept hcourse h place answer
  | abort place => exact abort_kept hcourse h place

theorem run_kept (hcourse : Course parallel life) (h : Account parallel life) (acts : List Act) :
    Account parallel (life.run acts) := by
  induction acts generalizing life with
  | nil => exact h
  | cons act acts ih =>
    obtain ⟨hcourse', h'⟩ := act_kept hcourse h act
    exact ih hcourse' h'

/-! ## What the counter shows -/

def ready (metricType : String) (settings : DrainSettings) (writer : PayloadWriter) (ring : Ring)
    (tags : TagTable) : Lifespan where
  drainage := .ready metricType settings writer ring tags

theorem ready_course (metricType : String) (settings : DrainSettings) (writer : PayloadWriter)
    (ring : Ring) (tags : TagTable) :
    Course (max 1 settings.maxParallel) (ready metricType settings writer ring tags) :=
  .whole rfl rfl rfl (Drainage.ready_throttled metricType settings writer ring tags)

theorem ready_account (metricType : String) (settings : DrainSettings) (writer : PayloadWriter)
    (ring : Ring) (tags : TagTable) :
    Account (max 1 settings.maxParallel) (ready metricType settings writer ring tags) :=
  ⟨Nat.zero_le _, rfl, rfl, Nat.zero_le _⟩

theorem Account.openCalls_eq (h : Account parallel life) :
    life.openCalls = life.sends.countP SendTask.isCalling := by
  rw [openCalls, h.calls]
  omega

end Lifespan

/-- The send is between its call and the count that belongs to it: counted and not yet called, or
returned and not yet counted off. -/
def SendTask.isCounting (task : SendTask) : Bool :=
  task.phase.isInFlight && !task.isCalling

namespace Lifespan

variable {parallel : Nat} {life : Lifespan}

theorem inFlight_of_settled (h : ∀ task ∈ life.sends, task.isCounting = false) :
    SendTask.inFlight life.sends = life.sends.countP SendTask.isCalling := by
  refine List.countP_congr fun task hmem => ?_
  have hcounting := h task hmem
  unfold SendTask.isCounting at hcounting
  unfold SendTask.isCalling at hcounting ⊢
  cases hphase : task.phase with
  | counted | returned outcome => rw [hphase] at hcounting; cases hcounting
  | _ => exact Iff.rfl

theorem Account.quiet (h : Account parallel life)
    (hended : ∀ task ∈ life.sends, task.isEnded = true) :
    life.openCalls = 0 ∧ life.metrics.inFlight = .ofNat life.lost := by
  have hphase : ∀ task ∈ life.sends, task.phase = .ended :=
    fun task hmem => eq_of_beq (hended task hmem)
  have hcalling : life.sends.countP SendTask.isCalling = 0 := by
    refine List.countP_eq_zero.2 fun task hmem => ?_
    rw [SendTask.isCalling, hphase task hmem]
    exact Bool.false_ne_true
  have hflight : SendTask.inFlight life.sends = 0 := by
    refine List.countP_eq_zero.2 fun task hmem => ?_
    rw [hphase task hmem]
    exact Bool.false_ne_true
  refine ⟨h.openCalls_eq.trans hcalling, ?_⟩
  rw [h.inFlight, hflight, Nat.zero_add]

/-- The counter of sends in flight shows the calls that are open and, for ever, those that panicked
or were dropped; only where none did does it show the truth, fall to nothing with the last send and
stay within the sends that are let go at once. -/
theorem inFlight_counts_lost (metricType : String) (settings : DrainSettings)
    (writer : PayloadWriter)
    (ring : Ring) (tags : TagTable) (acts : List Act) :
    let life := (ready metricType settings writer ring tags).run acts
    life.openCalls = life.sends.countP SendTask.isCalling ∧
    ((∀ task ∈ life.sends, task.isCounting = false) →
      life.metrics.inFlight = .ofNat (life.openCalls + life.lost)) ∧
    ((∀ task ∈ life.sends, task.isEnded = true) →
      life.openCalls = 0 ∧ life.metrics.inFlight = .ofNat life.lost) ∧
    life.metrics.inFlight.toNat ≤ max 1 settings.maxParallel + life.lost ∧
    life.metrics.maxInFlight.toNat ≤ max 1 settings.maxParallel + life.lost := by
  intro life
  have h : Account (max 1 settings.maxParallel) life :=
    run_kept (ready_course metricType settings writer ring tags)
      (ready_account metricType settings writer ring tags) acts
  refine ⟨h.openCalls_eq, fun hsettled => ?_, h.quiet, h.inFlight_le, h.high⟩
  rw [h.inFlight, inFlight_of_settled hsettled, h.openCalls_eq]

/-- Two payloads and one permit: the call of the first panics, the second takes its permit, and the
reporter is disposed of while the second is in its call. -/
def mishaps : List Act :=
  let write (number : Nat) := List.replicate 6 (Act.own (.access number false))
  let loop (count : Nat) := List.replicate count (Act.own (.loop 0))
  let called (place : Nat) := [Act.own (.send place none), Act.own (.send place none)]
  [.own (.write 10 0), .own (.write 20 0)] ++ write 0 ++ write 1 ++ [.own (.start 0 true)] ++
    loop 33 ++ called 0 ++ [.own (.send 0 (some .panicked))] ++ loop 1 ++ called 1 ++
    [.dispose, .abort 0]

theorem inFlight_counts_lost_mishaps :
    let life := (ready "Values" ⟨1, 1, 1, 0⟩ (.ofFormat .longValue) (Ring.startingAt 2 5 {}) {}).run
      mishaps
    (life.sends.all fun task => task.isEnded) = true ∧ life.lost = 2 ∧ life.openCalls = 0 ∧
      life.metrics.inFlight = 2 := by
  intro life
  have hended : (life.sends.all fun task => task.isEnded) = true := by decide +kernel
  have hlost : life.lost = 2 := by decide +kernel
  obtain ⟨-, -, hquiet, -⟩ := inFlight_counts_lost "Values" ⟨1, 1, 1, 0⟩ (.ofFormat .longValue)
    (Ring.startingAt 2 5 {}) {} mishaps
  obtain ⟨hopen, hshown⟩ := hquiet fun task hmem => List.all_eq_true.1 hended task hmem
  refine ⟨hended, hlost, hopen, hshown.trans ?_⟩
  show UInt64.ofNat life.lost = 2
  rw [hlost]
  rfl

/-- The counter outlives the sends: none is left, and it shows two in flight, and two at once where
one was let go at a time. -/
theorem inFlight_outlives_sends :
    let life := (ready "Values" ⟨1, 1, 1, 0⟩ (.ofFormat .longValue) (Ring.startingAt 2 5 {}) {}).run
      mishaps
    (life.sends.all fun task => task.isEnded) = true ∧ life.openCalls = 0 ∧
      life.metrics.inFlight ≠ .ofNat life.openCalls ∧ max 1 1 < life.metrics.maxInFlight.toNat := by
  decide +kernel

end Lifespan

end MetricReporting
