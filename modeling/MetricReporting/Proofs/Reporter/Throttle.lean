import MetricReporting.Proofs.Reporter.Moves
import Mathlib.Data.List.Perm.Subperm

/-!
# The count of the permits

A send holds a permit from the submission of its payload to the end of its task, however the sender
answers. `DrainLoop.Throttled` counts held and free permits; `Turn` is all that a step of the loop
does to them.
-/
namespace MetricReporting

/-- The numbers of the calls that the sender has not answered. -/
def Journal.outstanding (journal : Journal) : List Nat :=
  journal.callNumbers.filter fun number => number ∉ journal.answerNumbers

/-- The numbers of the tasks that still hold a permit. -/
def SendTask.running (tasks : List SendTask) : List Nat :=
  (tasks.filter fun task => !task.isEnded).map SendTask.number

variable {tasks : List SendTask} {task : SendTask}

theorem SendTask.mem_running (hmem : task ∈ tasks) (hopen : task.isEnded = false) :
    task.number ∈ SendTask.running tasks :=
  List.mem_map.2 ⟨task, List.mem_filter.2 ⟨hmem, by rw [hopen]; rfl⟩, rfl⟩

theorem SendTask.running_length (tasks : List SendTask) :
    (SendTask.running tasks).length = tasks.countP fun task => !task.isEnded := by
  rw [running, List.length_map, List.countP_eq_length_filter]

theorem Sends.answered_of_isEnded {journal : Journal} (h : Sends journal tasks)
    (hmem : task ∈ tasks) (hended : task.isEnded = true) :
    task.number ∈ journal.answerNumbers := by
  have hphase : task.phase = .ended := eq_of_beq hended
  exact (h.answering task hmem).2 (by rw [hphase]; rfl)

theorem Sends.outstanding_le {journal : Journal} (h : Sends journal tasks) :
    journal.outstanding.length ≤ tasks.countP fun task => !task.isEnded := by
  have hsubset : journal.outstanding ⊆ SendTask.running tasks := by
    intro number hnumber
    obtain ⟨hcalled, hopen⟩ := List.mem_filter.1 hnumber
    have hopen : number ∉ journal.answerNumbers := of_decide_eq_true hopen
    -- a payload whose task is gone has been answered
    have htask : number ∈ tasks.map SendTask.number := by
      by_contra hgone
      exact hopen (h.gone number (h.callNumber_lt hcalled) hgone).2
    obtain ⟨task, hmem, rfl⟩ := List.mem_map.1 htask
    apply SendTask.mem_running hmem
    rw [Bool.eq_false_iff]
    exact fun hended => hopen (h.answered_of_isEnded hmem hended)
  have hnodup : journal.outstanding.Nodup := h.called_nodup.filter _
  have hlength := (hnodup.subperm hsubset).length_le
  rwa [SendTask.running_length] at hlength

namespace DrainLoop

def Phase.isPanicked : Phase → Bool
  | .panicked => true
  | _ => false

def held (loop : DrainLoop) : Nat :=
  loop.tasks.countP fun task => !task.isEnded

/-- What is known of a loop with so many permits in all. A loop that panicked has aborted its
sends. -/
structure Throttled (parallel : Nat) (journal : Journal) (loop : DrainLoop) : Prop where
  encoded : journal.encoded.map Prod.snd = journal.submitted ++ loop.phase.underWay
  count : loop.submitted = journal.submitted.length
  opened : loop.closed = false
  outstanding : journal.outstanding.length ≤ parallel
  running : loop.phase.isPanicked = false →
    loop.permits + loop.held = parallel ∧ Sends journal loop.tasks
  panicked : loop.phase.isPanicked = true → loop.tasks = []

/-- What a step of the loop does to its permits and tasks, and what is noted of it. -/
inductive Turn (journal : Journal) (loop : DrainLoop) : Journal → DrainLoop → Prop
  | quiet (phase : Phase) (pending : List Entry) : phase.underWay = loop.phase.underWay →
      phase.isPanicked = loop.phase.isPanicked →
      Turn journal loop journal { loop with phase := phase, pending := pending }
  | reap (phase : Phase) : phase.underWay = loop.phase.underWay →
      phase.isPanicked = false → loop.phase.isPanicked = false →
      Turn journal loop journal { loop.reaped with phase := phase }
  | encode (payload : Bytes) (next : Next) : loop.phase = .encoding next →
      Turn journal loop { journal with encoded := journal.encoded ++ [(loop.pending, payload)] }
        { loop.reaped with pending := [], phase := .submitting payload loop.pending.length next }
  | panic (next : Next) : loop.phase = .encoding next →
      Turn journal loop journal (loop.torn .panicked)
  | refuse (payload : Bytes) (entries : Nat) (next : Next) :
      loop.phase = .submitting payload entries next → loop.closed = true →
      Turn journal loop journal { loop with phase := next.phase }
  | submit (payload : Bytes) (entries : Nat) (next : Next) :
      loop.phase = .submitting payload entries next → 0 < loop.permits →
      Turn journal loop { journal with submitted := journal.submitted ++ [payload] }
        { loop with
          phase := next.phase
          permits := loop.permits - 1
          submitted := loop.submitted + 1
          tasks := loop.tasks ++ [⟨loop.submitted, payload, entries, .spawned⟩] }

variable {parallel : Nat} {journal journal' : Journal} {loop loop' : DrainLoop}
  {stream : MetricStream} {next : Next} {payload : Bytes} {entries : Nat}

theorem Turn.rfl : Turn journal loop journal loop :=
  .quiet loop.phase loop.pending (Eq.refl _) (Eq.refl _)

theorem held_reaped (loop : DrainLoop) : loop.reaped.held = loop.held := by
  rw [held, held, reaped, List.countP_filter]
  simp

/-! ## Steps of the loop -/

theorem Passes.runs {now : Nat} {pending : List Entry} {phase phase' : Phase}
    (h : Passes stream now pending phase phase') :
    phase.isPanicked = false ∧ phase'.isPanicked = false := by
  cases h <;> exact ⟨rfl, rfl⟩

theorem runs_of_isDraining {phase : Phase} (h : phase.isDraining = true) :
    phase.isPanicked = false := by
  cases phase with
  | panicked => cases h
  | _ => rfl

theorem Stepped.turn {now : Nat} {stream' : MetricStream}
    (hstep : Stepped stream now journal loop stream' journal' loop') :
    Turn journal loop journal' loop' := by
  cases hstep with
  | pass phase hpasses =>
    obtain ⟨hbefore, hafter⟩ := hpasses.underWay
    obtain ⟨hruns, hruns'⟩ := hpasses.runs
    exact .quiet phase loop.pending (hafter.trans hbefore.symm) (hruns'.trans hruns.symm)
  | wake since idle hcase hover =>
    exact .reap _ (by rw [hcase]; rfl) rfl (by rw [hcase]; rfl)
  | rest since idle hcase hwaits =>
    exact .reap _ (by rw [hcase]; rfl) rfl (by rw [hcase]; rfl)
  | encode payload next hcase hpayload => exact .encode payload next hcase
  | panic next hcase hnone => exact .panic next hcase
  | refuse payload entries next hcase hclosed => exact .refuse payload entries next hcase hclosed
  | submit payload entries next hcase hopen hpermit =>
    exact .submit payload entries next hcase hpermit
  | finish hcase hall =>
    exact .reap _ (by rw [hcase]; rfl) rfl (by rw [hcase]; rfl)
  | stay hready => exact .rfl

theorem Throttled.turn (h : loop.Throttled parallel journal)
    (hturn : Turn journal loop journal' loop') : loop'.Throttled parallel journal' := by
  cases hturn with
  | quiet phase pending hunderWay hpanicked =>
    refine ⟨?_, h.count, h.opened, h.outstanding,
      fun hruns => h.running (hpanicked.symm.trans hruns),
      fun hover => h.panicked (hpanicked.symm.trans hover)⟩
    show _ = _ ++ phase.underWay
    rw [hunderWay]
    exact h.encoded
  | reap phase hunderWay hruns' hruns =>
    obtain ⟨hpermits, hsends⟩ := h.running hruns
    refine ⟨?_, h.count, h.opened, h.outstanding, fun _ => ⟨?_, hsends.reaped⟩,
      fun hover => absurd hover (Bool.eq_false_iff.1 hruns')⟩
    · show _ = _ ++ phase.underWay
      rw [hunderWay]
      exact h.encoded
    · exact (congrArg (loop.permits + ·) (held_reaped loop)).trans hpermits
  | encode payload next hcase =>
    obtain ⟨hpermits, hsends⟩ := h.running (by rw [hcase]; rfl)
    have hencoded := h.encoded
    rw [hcase] at hencoded
    refine ⟨?_, h.count, h.opened, h.outstanding, fun _ => ⟨?_, hsends.reaped.frame rfl rfl rfl⟩,
      fun hover => by cases hover⟩
    · simp [hencoded, Phase.underWay]
    · exact (congrArg (loop.permits + ·) (held_reaped loop)).trans hpermits
  | panic next hcase =>
    have hencoded := h.encoded
    rw [hcase] at hencoded
    exact ⟨hencoded, h.count, h.opened, h.outstanding, (fun hruns => by cases hruns), fun _ => rfl⟩
  | refuse payload entries next hcase hclosed =>
    rw [h.opened] at hclosed
    cases hclosed
  | submit payload entries next hcase hpermit =>
    obtain ⟨hpermits, hsends⟩ := h.running (by rw [hcase]; rfl)
    have hencoded := h.encoded
    rw [hcase] at hencoded
    refine ⟨?_, ?_, h.opened, h.outstanding, fun _ => ⟨?_, ?_⟩, ?_⟩
    · show _ = (journal.submitted ++ [payload]) ++ next.phase.underWay
      rw [hencoded]
      cases next <;> simp [Phase.underWay, Next.phase]
    · simp [h.count]
    · have hone : [SendTask.mk loop.submitted payload entries .spawned].countP
          (fun task => !task.isEnded) = 1 := rfl
      unfold held at hpermits ⊢
      rw [List.countP_append, hone]
      show loop.permits - 1 + (_ + 1) = parallel
      omega
    · rw [h.count]
      exact hsends.spawn payload entries
    · intro hover
      cases next <;> cases hover

/-! ## Steps of the tasks -/

theorem held_set {place : Nat} {before after : SendTask} (hplace : loop.tasks[place]? = some before)
    (hstays : before.isEnded = true → after.isEnded = true) :
    (if after.isEnded && !before.isEnded then 1 else 0) +
      (loop.tasks.set place after).countP (fun task => !task.isEnded) = loop.held := by
  obtain ⟨hlt, hget⟩ := List.getElem?_eq_some_iff.1 hplace
  -- the count takes the old task off, so it must be at least that task's share
  have hshare := List.boole_getElem_le_countP (p := fun task : SendTask => !task.isEnded) hlt
  rw [held, List.countP_set hlt, hget]
  rw [hget] at hshare
  cases hbefore : before.isEnded with
  | true =>
    rw [hstays hbefore]
    simp
  | false =>
    rw [hbefore] at hshare
    cases hafter : after.isEnded with
    | true =>
      simp only [Bool.not_false, Bool.not_true, Bool.and_self, Bool.false_eq_true, ↓reduceIte]
        at hshare ⊢
      omega
    | false =>
      simp only [Bool.not_false, Bool.and_true, Bool.false_eq_true, ↓reduceIte] at hshare ⊢
      omega

theorem Throttled.send (h : loop.Throttled parallel journal) {place : Nat} {task : SendTask}
    (hplace : loop.tasks[place]? = some task) (metricType : String) (answer : Option SendOutcome)
    (metrics : ReporterMetrics) (telemetry : Telemetry) :
    let moment := SendTask.Moment.step metricType answer ⟨task, metrics, telemetry⟩
    Throttled parallel (journal.heard task answer) { loop with
      tasks := loop.tasks.set place moment.task
      permits := loop.permits + if moment.task.isEnded && !task.isEnded then 1 else 0 } := by
  intro moment
  have hruns : loop.phase.isPanicked = false := by
    rw [Bool.eq_false_iff]
    intro hover
    rw [h.panicked hover] at hplace
    cases hplace
  obtain ⟨hpermits, hsends⟩ := h.running hruns
  have hsends' := hsends.step hplace metricType answer metrics telemetry
  have hstays : task.isEnded = true → moment.task.isEnded = true := fun hended =>
    SendTask.Moment.step_isEnded metricType answer hended
  have hmoved := held_set hplace hstays
  have hconserved : (loop.permits + if moment.task.isEnded && !task.isEnded then 1 else 0) +
      (loop.tasks.set place moment.task).countP (fun task => !task.isEnded) = parallel := by
    rw [Nat.add_assoc, hmoved, hpermits]
  refine ⟨?_, ?_, h.opened, ?_, fun _ => ⟨hconserved, hsends'⟩,
    fun hover => absurd hover (Bool.eq_false_iff.1 hruns)⟩
  · rw [heard_encoded, heard_submitted]
    exact h.encoded
  · rw [heard_submitted]
    exact h.count
  · apply hsends'.outstanding_le.trans
    rw [← hconserved]
    exact Nat.le_add_left _ _

/-- As many payloads submitted as there are permits, and a free one: some earlier send is over. -/
theorem Throttled.exists_ended (h : loop.Throttled parallel journal)
    (hruns : loop.phase.isPanicked = false) (hpermit : 0 < loop.permits)
    (hmany : parallel ≤ journal.submitted.length) :
    ∃ number < journal.submitted.length, number ∈ journal.answerNumbers ∧
      ∀ task ∈ loop.tasks, task.number = number → task.isEnded = true := by
  obtain ⟨hpermits, hsends⟩ := h.running hruns
  -- fewer tasks are running than payloads were submitted
  obtain ⟨number, hlt, hover⟩ : ∃ number < journal.submitted.length,
      number ∉ SendTask.running loop.tasks := by
    by_contra hall
    have hsubset : List.range journal.submitted.length ⊆ SendTask.running loop.tasks := by
      intro number hmem
      by_contra hnot
      exact hall ⟨number, List.mem_range.1 hmem, hnot⟩
    have hle := (List.nodup_range.subperm hsubset).length_le
    rw [List.length_range, SendTask.running_length] at hle
    unfold held at hpermits
    omega
  have hended : ∀ task ∈ loop.tasks, task.number = number → task.isEnded = true := by
    rintro task hmem rfl
    by_contra hrunning
    exact hover (SendTask.mem_running hmem (Bool.eq_false_iff.2 hrunning))
  refine ⟨number, hlt, ?_, hended⟩
  by_cases htask : number ∈ loop.tasks.map SendTask.number
  · obtain ⟨task, hmem, rfl⟩ := List.mem_map.1 htask
    exact hsends.answered_of_isEnded hmem (hended task hmem rfl)
  · exact (hsends.gone number hlt htask).2

end DrainLoop

namespace Drainage

structure Throttled (parallel : Nat) (d : Drainage) : Prop where
  parallel_eq : d.reporter.settings.maxParallel = parallel
  unstarted : d.reporter.started = false → d.reporter.loop = none
  asleep : d.reporter.loop = none → d.journal.encoded = [] ∧ d.journal.submitted = [] ∧
    d.journal.called = [] ∧ d.journal.answered = []
  loop : ∀ loop, d.reporter.loop = some loop → loop.Throttled parallel d.journal

variable {parallel : Nat} {d d' : Drainage} {loop loop' : DrainLoop}

theorem ready_throttled (metricType : String) (settings : DrainSettings) (writer : PayloadWriter)
    (ring : Ring) (tags : TagTable) :
    (ready metricType settings writer ring tags).Throttled (max 1 settings.maxParallel) :=
  ⟨Nat.max_comm _ _, fun _ => rfl, fun _ => ⟨rfl, rfl, rfl, rfl⟩, nofun⟩

theorem Throttled.advance (h : d.Throttled parallel) (hloop : d.reporter.loop = some loop)
    (hsettings : d'.reporter.settings = d.reporter.settings)
    (hstarted : d'.reporter.started = d.reporter.started) (hloop' : d'.reporter.loop = some loop')
    (hthrottled : loop'.Throttled parallel d'.journal) : d'.Throttled parallel := by
  refine ⟨hsettings ▸ h.parallel_eq, fun hnew => ?_, fun hnone => ?_, fun other hother => ?_⟩
  · rw [h.unstarted (hstarted ▸ hnew)] at hloop
    cases hloop
  · rw [hloop'] at hnone
    cases hnone
  · obtain rfl : loop' = other := Option.some.inj (hloop'.symm.trans hother)
    exact hthrottled

theorem Throttled.start (h : d.Throttled parallel) (now : Nat) (runtime : Bool) :
    (d.act (.start now runtime)).Throttled parallel := by
  simp only [Drainage.act]
  cases hstart : d.reporter.start now runtime with
  | error error => exact h
  | ok reporter =>
    obtain ⟨hnew, rfl⟩ := start_eq_ok hstart
    obtain ⟨hencoded, hsubmitted, hcalled, hanswered⟩ := h.asleep (h.unstarted hnew)
    refine ⟨h.parallel_eq, (fun hstarted => by cases hstarted), (fun hnone => by cases hnone),
      fun loop hloop => ?_⟩
    obtain rfl := Option.some.inj hloop
    refine ⟨?_, ?_, rfl, ?_, fun _ => ⟨h.parallel_eq, Sends.nil hsubmitted hcalled hanswered⟩,
      fun hover => by cases hover⟩
    · show d.journal.encoded.map Prod.snd = d.journal.submitted ++ []
      rw [hencoded, hsubmitted]
      rfl
    · show 0 = d.journal.submitted.length
      rw [hsubmitted]
      rfl
    · show d.journal.outstanding.length ≤ parallel
      rw [Journal.outstanding, Journal.callNumbers, hcalled]
      exact Nat.zero_le _

theorem LoopMove.turn {now : Nat} (h : LoopMove d now d') (hloop : d.reporter.loop = some loop) :
    ∃ loop', d'.reporter.loop = some loop' ∧ loop.Turn d.journal d'.journal loop' ∧
      d'.reporter.settings = d.reporter.settings ∧ d'.reporter.started = d.reporter.started := by
  cases h with
  | asleep hnone =>
    rw [hnone] at hloop
    cases hloop
  | step current hcurrent hdrained =>
    obtain rfl : current = loop := Option.some.inj (hcurrent.symm.trans hloop)
    have hstep : current.Stepped d.stream now d.journal _ _ _ := step_stepped hdrained
    have hreporter : (d.stream.loopStep now current).1.reporter = d.reporter := hstep.kept.1
    have hsettings := congrArg Reporter.settings hreporter
    have hstarted := congrArg Reporter.started hreporter
    exact ⟨_, rfl, hstep.turn, hsettings, hstarted⟩
  | begin current target final hcurrent hcase => exact ⟨loop, hloop, .rfl, rfl, rfl⟩
  | consume current target final hcurrent hcase =>
    obtain rfl : current = loop := Option.some.inj (hcurrent.symm.trans hloop)
    obtain ⟨phase, hdraining, hconsume⟩ := consume_eq d hcase
    rw [hconsume]
    have hunderWay : phase.underWay = current.phase.underWay := by
      rw [DrainLoop.underWay_of_isDraining hdraining, hcase]
      rfl
    have hruns : phase.isPanicked = current.phase.isPanicked := by
      rw [DrainLoop.runs_of_isDraining hdraining, hcase]
      rfl
    exact ⟨_, rfl, .quiet phase _ hunderWay hruns, rfl, rfl⟩

theorem Throttled.move (h : d.Throttled parallel) {now : Nat} (hmove : LoopMove d now d') :
    d'.Throttled parallel := by
  cases hloop : d.reporter.loop with
  | none =>
    cases hmove with
    | asleep hnone => exact h
    | step loop hsome _ => rw [hloop] at hsome; cases hsome
    | begin loop target final hsome _ => rw [hloop] at hsome; cases hsome
    | consume loop target final hsome _ => rw [hloop] at hsome; cases hsome
  | some loop =>
    obtain ⟨loop', hloop', hturn, hsettings, hstarted⟩ := hmove.turn hloop
    exact h.advance hloop hsettings hstarted hloop' ((h.loop loop hloop).turn hturn)

theorem send_eq (hloop : d.reporter.loop = some loop) {place : Nat} {task : SendTask}
    (hplace : loop.tasks[place]? = some task) (answer : Option SendOutcome) :
    let moment := SendTask.Moment.step d.reporter.metricType answer
      ⟨task, d.reporter.metrics, d.telemetry⟩
    d.send place answer = { d with
      telemetry := moment.telemetry
      reporter := { d.reporter with
        metrics := moment.metrics
        loop := some { loop with
          tasks := loop.tasks.set place moment.task
          permits := loop.permits + if moment.task.isEnded && !task.isEnded then 1 else 0 } }
      journal := d.journal.heard task answer } := by
  simp only [Drainage.send, hloop, hplace]

theorem send_none (hloop : d.reporter.loop = some loop) {place : Nat}
    (hplace : loop.tasks[place]? = none) (answer : Option SendOutcome) :
    d.send place answer = d := by
  simp only [Drainage.send, hloop, hplace]

theorem Throttled.send (h : d.Throttled parallel) (place : Nat) (answer : Option SendOutcome) :
    (d.send place answer).Throttled parallel := by
  cases hloop : d.reporter.loop with
  | none => simpa only [Drainage.send, hloop] using h
  | some loop =>
    cases hplace : loop.tasks[place]? with
    | none => simpa only [send_none hloop hplace] using h
    | some task =>
      rw [send_eq hloop hplace]
      exact h.advance hloop rfl rfl rfl ((h.loop loop hloop).send hplace _ answer _ _)

theorem Throttled.stop (h : d.Throttled parallel) : d.stop.Throttled parallel := by
  have hmark : ∀ mark loop, d.reporter.loop = some loop →
      loop.Throttled parallel { d.journal with stopMark := mark } := by
    intro mark loop hloop
    have hthrottled := h.loop loop hloop
    exact ⟨hthrottled.encoded, hthrottled.count, hthrottled.opened, hthrottled.outstanding,
      fun hruns => (hthrottled.running hruns).imp_right fun hsends => hsends.frame rfl rfl rfl,
      hthrottled.panicked⟩
  unfold Drainage.stop Reporter.requestStop
  cases hattached : d.reporter.attached with
  | false => exact ⟨h.parallel_eq, h.unstarted, h.asleep, hmark _⟩
  | true => exact ⟨h.parallel_eq, h.unstarted, h.asleep, hmark _⟩

theorem Throttled.act (h : d.Throttled parallel) (act : Act) : (d.act act).Throttled parallel := by
  cases act with
  | start now runtime => exact h.start now runtime
  | loop now => exact h.move (loopMove d now)
  | send place answer => exact h.send place answer
  | stop => exact h.stop
  | write value tag => exact ⟨h.parallel_eq, h.unstarted, h.asleep, h.loop⟩
  | access number spurious => exact ⟨h.parallel_eq, h.unstarted, h.asleep, h.loop⟩
  | tick clock => exact ⟨h.parallel_eq, h.unstarted, h.asleep, h.loop⟩
  | retag tags => exact ⟨h.parallel_eq, h.unstarted, h.asleep, h.loop⟩
  | drop => exact ⟨h.parallel_eq, h.unstarted, h.asleep, h.loop⟩

theorem Throttled.run (h : d.Throttled parallel) (acts : List Act) :
    (d.run acts).Throttled parallel := by
  induction acts generalizing d with
  | nil => exact h
  | cons act acts ih => exact ih (h.act act)

end Drainage

end MetricReporting
