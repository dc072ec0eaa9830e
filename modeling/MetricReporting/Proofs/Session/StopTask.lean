import MetricReporting.Proofs.Session.Work

/-!
# The stop of one reporter of a session

To stop, a session moves each reporter into a task of its own, which asks the loop to stop and waits
until it is over; then the session disposes of the reporter and takes it back. Meanwhile writers,
loop and sends work on.
-/
namespace MetricReporting

structure Participant where
  number : Nat
  sender : Sender
  cycle : Lifecycle

namespace Participant

def life (p : Participant) : Lifespan :=
  p.cycle.life

def reporter (p : Participant) : Reporter :=
  p.life.drainage.reporter

def metricType (p : Participant) : String :=
  p.reporter.metricType

def member (p : Participant) : Session.Member :=
  ⟨p.number, p.sender, p.reporter⟩

def act (p : Participant) (act : Lifecycle.Act) : Participant :=
  { p with cycle := p.cycle.act act }

def loopIsOver (p : Participant) : Bool :=
  p.reporter.loop.any DrainLoop.isOver

def Reached (p : Participant) : Prop :=
  ∃ metricType settings writer requested position clock tags acts,
    p.cycle = (Lifecycle.ready metricType settings writer
      (Ring.startingAt requested position clock) tags).run acts

/-- Where a stop of a running reporter reaches: to all that is claimed, or, where it was disposed of
before its start, to what was claimed then. -/
def due (p : Participant) : Nat :=
  if .disposed ∈ p.cycle.before then p.cycle.begun.headD 0
  else p.life.drainage.traffic.ring.written

end Participant

inductive StopTask.Stage
  | spawned
  | waiting
  | returned
  /-- The session has heard of it and has its reporter again. -/
  | joined
deriving DecidableEq

structure StopTask where
  participant : Participant
  stage : StopTask.Stage := .spawned

namespace StopTask

def number (task : StopTask) : Nat :=
  task.participant.number

/-- Takes the task as far as it can go: a reporter without a loop at hand has nothing to wait
for. -/
def poll (task : StopTask) : StopTask :=
  match task.stage with
  | .spawned =>
      { participant := task.participant.act .sessionStop
        stage := if task.participant.reporter.attached then .waiting else .returned }
  | .waiting => if task.participant.loopIsOver then { task with stage := .returned } else task
  | _ => task

def join (task : StopTask) : StopTask :=
  match task.stage with
  | .returned => { participant := task.participant.act .sessionStopped, stage := .joined }
  | _ => task

def work (task : StopTask) (act : Lifespan.Act) : StopTask :=
  if act.isWork then { task with participant := task.participant.act (.life act) } else task

inductive Act
  | poll
  | join
  | work (act : Lifespan.Act)

def act (task : StopTask) : Act → StopTask
  | .poll => task.poll
  | .join => task.join
  | .work act => task.work act

def run (task : StopTask) (acts : List Act) : StopTask :=
  acts.foldl act task

end StopTask

namespace Lifespan

variable {life : Lifespan} {mark : Option Nat} {loop : DrainLoop}

theorem act_writer (life : Lifespan) (act : Act) :
    (life.act act).drainage.reporter.writer = life.drainage.reporter.writer := by
  cases act with
  | own act => exact Drainage.act_writer life.drainage act
  | dispose => rfl
  | linger place answer =>
    simp only [act, linger]
    split <;> rfl
  | abort place =>
    simp only [act, abort]
    split
    · rfl
    · split <;> rfl

def Panicked (life : Lifespan) : Prop :=
  ∃ loop, Torn life.drainage loop ∧ loop.phase = .panicked ∧
    ∃ tags, life.drainage.reporter.writer.encode? tags loop.pending = none

theorem Panicked.act (h : life.Panicked) (act : Act) : (life.act act).Panicked := by
  obtain ⟨loop, htorn, hphase, hwriter⟩ := h
  refine ⟨loop, htorn.act act, hphase, ?_⟩
  rwa [act_writer]

def Draining (mark : Option Nat) (life : Lifespan) : Prop :=
  life.Running mark ∨ life.Panicked

theorem Draining.work (h : life.Draining mark) {act : Act} (hwork : act.isWork = true) :
    (life.act act).Draining mark := by
  rcases h with hrunning | hpanicked
  · cases act with
    | dispose => cases hwork
    | linger place answer =>
      rw [Lifespan.act, linger_of_whole hrunning.orphans]
      exact Or.inl hrunning
    | abort place =>
      rw [Lifespan.act, abort_of_whole hrunning.orphans]
      exact Or.inl hrunning
    | own act =>
      refine (hrunning.work hwork).imp_right ?_
      rintro ⟨loop, htorn, hphase, hwriter⟩
      exact ⟨loop, htorn, hphase, act_writer life (.own act) ▸ hwriter⟩
  · exact Or.inr (hpanicked.act act)

theorem Draining.stop (h : life.Draining mark)
    (hattached : life.drainage.reporter.attached = true) :
    (life.act (.own .stop)).Draining
      (some (mark.getD life.drainage.traffic.ring.written)) :=
  h.imp (fun hrunning => (hrunning.stop hattached).1) (·.act _)

theorem Draining.dispose (h : life.Draining mark) (hasked : mark.isSome = true)
    (hdetached : life.drainage.reporter.attached = false) : (life.act .dispose).Draining mark :=
  h.imp (·.dispose hasked (Reporter.dispose_detached hdetached)) (·.act _)

def IsOver (life : Lifespan) : Prop :=
  ∃ loop, life.drainage.reporter.loop = some loop ∧ loop.isOver = true

theorem Panicked.isOver (h : life.Panicked) : life.IsOver := by
  obtain ⟨loop, htorn, -, -⟩ := h
  exact ⟨loop, htorn.loop_eq, isOver_of_isTorn htorn.isTorn⟩

theorem Draining.over (h : life.Draining mark) (hover : life.IsOver) :
    life.Running mark ∧ life.AtRest ∨ life.Panicked := by
  obtain ⟨loop, hloop, hover⟩ := hover
  exact h.imp_left fun hrunning => ⟨hrunning, hrunning.atRest hloop hover⟩

theorem Draining.isOver_work (h : life.Draining mark) (hover : life.IsOver) {act : Act}
    (hwork : act.isWork = true) : (life.act act).IsOver := by
  rcases h.over hover with ⟨-, hrest⟩ | hpanicked
  · rw [IsOver, (hrest.work hwork).1]
    exact hover
  · exact (hpanicked.act act).isOver

theorem isOver_dispose (h : life.IsOver) (hdetached : life.drainage.reporter.attached = false) :
    (life.act .dispose).IsOver := by
  obtain ⟨loop, hloop, hover⟩ := h
  exact ⟨loop, (Reporter.dispose_detached hdetached).trans hloop, hover⟩

end Lifespan

/-! ## What becomes of a running reporter -/

namespace Lifecycle

variable {cycle : Lifecycle} {writer : PayloadWriter}

/-- A reporter that runs has its loop at hand, and was asked to stop before its start or not at
all. -/
theorem Course.running_of_isRunning (h : cycle.Course writer)
    (hruns : cycle.life.drainage.reporter.isRunning = true) :
    cycle.life.drainage.reporter.attached = true ∧ ∃ mark, cycle.life.Running mark ∧
      (mark = none ∧ .disposed ∉ cycle.before ∨
        ∃ claimed, mark = some claimed ∧ cycle.begun = [claimed] ∧ .disposed ∈ cycle.before) := by
  rw [Reporter.isRunning, Bool.and_eq_true] at hruns
  obtain ⟨hattached, hloop⟩ := hruns
  refine ⟨hattached, ?_⟩
  cases h with
  | waiting _ _ _ hwaiting =>
    rw [hwaiting.attached] at hattached
    cases hattached
  | torn claimed loop _ htorn =>
    have hover := Lifespan.isOver_of_isTorn htorn.isTorn
    rw [htorn.loop_eq, Option.any_some, hover] at hloop
    cases hloop
  | running claimed mark hbegun hasked hrunning =>
    refine ⟨mark, hrunning, ?_⟩
    cases hasked with
    | live hbefore => exact Or.inl ⟨rfl, hbefore⟩
    | stopped mark _ _ hdetached =>
      rw [hdetached] at hattached
      cases hattached
    | late hbefore => exact Or.inr ⟨claimed, rfl, hbegun, hbefore⟩

end Lifecycle

namespace Participant

variable {p : Participant}

theorem loopIsOver_iff : p.loopIsOver = true ↔ p.life.IsOver := by
  rw [loopIsOver, Option.any_eq_true]
  rfl

theorem life_stop (p : Participant) : (p.act .sessionStop).life = p.life.act (.own .stop) :=
  Lifecycle.perform_life _ _

theorem life_stopped (p : Participant) : (p.act .sessionStopped).life = p.life.act .dispose :=
  Lifecycle.perform_life _ _

theorem life_work (p : Participant) (act : Lifespan.Act) :
    (p.act (.life act)).life = p.life.act act :=
  Lifecycle.perform_life _ _

theorem reporter_stop (p : Participant) :
    (p.act .sessionStop).reporter = p.reporter.requestStop :=
  congrArg (·.drainage.reporter) p.life_stop

theorem reporter_stopped (p : Participant) :
    (p.act .sessionStopped).reporter = p.reporter.dispose :=
  congrArg (·.drainage.reporter) p.life_stopped

theorem onward {act : Lifespan.Act} (hwork : act.isWork = true) :
    p.life.drainage.Onward (p.act (.life act)).life.drainage := by
  rw [p.life_work act]
  exact Lifespan.act_onward p.life hwork

end Participant

namespace StopTask

variable {task : StopTask} {due : Nat}

theorem work_idle {act : Lifespan.Act} (hidle : act.isWork = false) : task.work act = task := by
  rw [work, hidle]
  rfl

theorem work_eq {act : Lifespan.Act} (hwork : act.isWork = true) :
    task.work act = ⟨task.participant.act (.life act), task.stage⟩ := by
  rw [work, hwork, if_pos rfl]

/-- The stop of a reporter that ran when it was called: all up to `due` will be handed over. -/
inductive Led (due : Nat) (task : StopTask) : Prop
  | spawned (mark : Option Nat) : task.stage = .spawned →
      task.participant.reporter.attached = true → task.participant.life.Draining mark →
      due ≤ mark.getD task.participant.life.drainage.traffic.ring.written → Led due task
  | asked (mark : Nat) : task.stage ≠ .spawned →
      task.participant.reporter.attached = false → task.participant.life.Draining (some mark) →
      due ≤ mark → (task.stage = .waiting ∨ task.participant.life.IsOver) → Led due task

theorem Led.poll (h : Led due task) : Led due task.poll := by
  cases h with
  | spawned mark hstage hattached hdraining hdue =>
    have hpoll : task.poll = ⟨task.participant.act .sessionStop, .waiting⟩ := by
      simp only [StopTask.poll, hstage, hattached, if_true]
    have hasked : Stage.waiting ≠ .spawned := by decide
    rw [hpoll]
    refine .asked _ hasked ?_ ?_ hdue (Or.inl rfl)
    · rw [Participant.reporter_stop, Reporter.requestStop, hattached]
      rfl
    · -- the loop is asked at the position written now, at least as far as what is due
      rw [Participant.life_stop]
      exact hdraining.stop hattached
  | asked mark hstage hdetached hdraining hdue hover =>
    unfold StopTask.poll
    split
    · rename_i hspawned
      exact absurd hspawned hstage
    · split
      · rename_i hover'
        have hasked : Stage.returned ≠ .spawned := by decide
        exact .asked mark hasked hdetached hdraining hdue
          (Or.inr (Participant.loopIsOver_iff.1 hover'))
      · exact .asked mark hstage hdetached hdraining hdue hover
    · exact .asked mark hstage hdetached hdraining hdue hover

theorem Led.join (h : Led due task) : Led due task.join := by
  unfold StopTask.join
  split
  · rename_i hreturned
    cases h with
    | spawned mark hstage =>
      rw [hstage] at hreturned
      cases hreturned
    | asked mark hstage hdetached hdraining hdue hover =>
      -- the request took the loop out of the reporter's hands, so disposal aborts nothing
      have hover' := hover.resolve_left (by rw [hreturned]; nofun)
      have hasked : Stage.joined ≠ .spawned := by decide
      refine .asked mark hasked ?_ ?_ hdue (Or.inr ?_)
      · rw [Participant.reporter_stopped]
        rfl
      · rw [Participant.life_stopped]
        exact hdraining.dispose rfl hdetached
      · rw [Participant.life_stopped]
        exact Lifespan.isOver_dispose hover' hdetached
  · exact h

theorem Led.work (h : Led due task) (act : Lifespan.Act) : Led due (task.work act) := by
  cases hwork : act.isWork with
  | false => exact (work_idle hwork).symm ▸ h
  | true =>
    have hlife := task.participant.life_work act
    obtain ⟨hworked, hwritten⟩ := task.participant.onward hwork
    have hattached := hworked.attached
    rw [work_eq hwork]
    cases h with
    | spawned mark hstage hhandle hdraining hdue =>
      refine .spawned mark hstage (hattached.trans hhandle) ?_ ?_
      · rw [hlife]
        exact hdraining.work hwork
      · cases mark with
        | none => exact Nat.le_trans hdue hwritten
        | some mark => exact hdue
    | asked mark hstage hdetached hdraining hdue hover =>
      refine .asked mark hstage (hattached.trans hdetached) ?_ hdue (hover.imp_right ?_)
      · rw [hlife]
        exact hdraining.work hwork
      · intro hover
        rw [hlife]
        exact hdraining.isOver_work hover hwork

theorem Led.run (h : Led due task) (acts : List Act) : Led due (task.run acts) := by
  induction acts generalizing task with
  | nil => exact h
  | cons act acts ih =>
    refine ih ?_
    cases act with
    | poll => exact h.poll
    | join => exact h.join
    | work act => exact h.work act

theorem Led.over (h : Led due task) (hjoined : task.stage = .joined) :
    task.participant.life.IsOver := by
  cases h with
  | spawned mark hstage =>
    rw [hstage] at hjoined
    cases hjoined
  | asked mark hstage hdetached hdraining hdue hover =>
    exact hover.resolve_left (by rw [hjoined]; nofun)

theorem Led.hands_over (h : Led due task) (hjoined : task.stage = .joined) {writer : PayloadWriter}
    {origin : Nat} (hrooted : task.participant.life.drainage.Rooted writer origin) :
    task.participant.life.Panicked ∨ task.participant.life.AtRest ∧
      ∀ q, origin ≤ q → q < due → ∃! number, task.participant.life.drainage.Carries number q := by
  have hover := h.over hjoined
  cases h with
  | spawned mark hstage =>
    rw [hstage] at hjoined
    cases hjoined
  | asked mark hstage hdetached hdraining hdue =>
    rcases hdraining.over hover with ⟨hrunning, hrest⟩ | hpanicked
    · obtain ⟨loop, hloop, hover⟩ := hover
      exact Or.inr ⟨hrest, fun q hq hq' =>
        Lifecycle.handed_over hrunning hrooted hloop hover hq (Nat.lt_of_lt_of_le hq' hdue)⟩
    · exact Or.inl hpanicked

/-! ## What becomes of any reporter -/

end StopTask

structure Participant.Same (p p' : Participant) : Prop where
  number : p'.number = p.number
  sender : p'.sender = p.sender
  metricType : p'.metricType = p.metricType

theorem Participant.Same.refl (p : Participant) : p.Same p :=
  ⟨rfl, rfl, rfl⟩

theorem Participant.Same.trans {p p' p'' : Participant} (h : p.Same p') (h' : p'.Same p'') :
    p.Same p'' :=
  ⟨h'.number.trans h.number, h'.sender.trans h.sender, h'.metricType.trans h.metricType⟩

namespace StopTask

inductive Moved (task : StopTask) : StopTask → Prop
  | stays (stage : Stage) : (stage = .joined → task.stage = .joined) →
      Moved task ⟨task.participant, stage⟩
  | asks (stage : Stage) : stage ≠ .joined → Moved task ⟨task.participant.act .sessionStop, stage⟩
  | disposes : Moved task ⟨task.participant.act .sessionStopped, .joined⟩
  | works (act : Lifespan.Act) : act.isWork = true →
      Moved task ⟨task.participant.act (.life act), task.stage⟩

theorem moved (task : StopTask) (act : Act) : Moved task (task.act act) := by
  cases act with
  | poll =>
    simp only [StopTask.act, poll]
    split
    · refine .asks _ ?_
      split <;> nofun
    · split
      · exact .stays .returned nofun
      · exact .stays task.stage id
    · exact .stays task.stage id
  | join =>
    simp only [StopTask.act, join]
    split
    · exact .disposes
    · exact .stays task.stage id
  | work act =>
    cases hwork : act.isWork with
    | false =>
      rw [StopTask.act, work_idle hwork]
      exact .stays task.stage id
    | true =>
      rw [StopTask.act, work_eq hwork]
      exact .works act hwork

end StopTask

structure Reporter.Disposed (reporter : Reporter) : Prop where
  stopRequested : reporter.stopRequested = true
  sendsCancelled : reporter.sendsCancelled = true
  detached : reporter.attached = false

namespace Reporter

variable {reporter reporter' : Reporter}

theorem dispose_disposed (reporter : Reporter) : reporter.dispose.Disposed :=
  ⟨rfl, rfl, rfl⟩

theorem Disposed.requestStop (h : reporter.Disposed) : reporter.requestStop = reporter := by
  rw [Reporter.requestStop, h.detached]
  rfl

theorem Disposed.dispose (h : reporter.Disposed) : reporter.dispose = reporter := by
  obtain ⟨hstop, hcancelled, hdetached⟩ := h
  cases reporter
  cases hstop
  cases hcancelled
  cases hdetached
  rfl

theorem Worked.disposed (h : reporter.Worked reporter') (hdisposed : reporter.Disposed) :
    reporter'.Disposed := by
  obtain ⟨metrics, loop, rfl⟩ := h
  exact ⟨hdisposed.stopRequested, hdisposed.sendsCancelled, hdisposed.detached⟩

end Reporter

theorem Lifespan.act_dispose_of_disposed {life : Lifespan}
    (h : life.drainage.reporter.Disposed) : life.act .dispose = life := by
  rw [act, h.dispose, become_self]

namespace StopTask

variable {task task' : StopTask}

theorem run_keeps (kept : StopTask → Prop)
    (hstep : ∀ task task', Moved task task' → kept task → kept task') (h : kept task)
    (acts : List Act) : kept (task.run acts) := by
  induction acts generalizing task with
  | nil => exact h
  | cons act acts ih => exact ih (hstep _ _ (task.moved act) h)

theorem Moved.same (h : Moved task task') : task.participant.Same task'.participant := by
  cases h with
  | stays stage => exact ⟨rfl, rfl, rfl⟩
  | asks stage =>
    refine ⟨rfl, rfl, ?_⟩
    rw [Participant.metricType, Participant.reporter_stop, Reporter.requestStop]
    split <;> rfl
  | disposes =>
    refine ⟨rfl, rfl, ?_⟩
    rw [Participant.metricType, Participant.reporter_stopped]
    rfl
  | works act hwork =>
    exact ⟨rfl, rfl, (task.participant.onward hwork).reporter.metricType⟩

theorem run_same (task : StopTask) (acts : List Act) :
    task.participant.Same (task.run acts).participant :=
  run_keeps (fun task' => task.participant.Same task'.participant)
    (fun _ _ hmoved h => h.trans hmoved.same) (.refl _) acts

theorem Moved.disposed (h : Moved task task')
    (hdisposed : task.stage = .joined → task.participant.reporter.Disposed)
    (hjoined : task'.stage = .joined) : task'.participant.reporter.Disposed := by
  cases h with
  | stays stage hstays => exact hdisposed (hstays hjoined)
  | asks stage hstage => exact absurd hjoined hstage
  | disposes =>
    rw [Participant.reporter_stopped]
    exact Reporter.dispose_disposed _
  | works act hwork => exact (task.participant.onward hwork).reporter.disposed (hdisposed hjoined)

theorem disposed_of_joined (p : Participant) (acts : List Act)
    (hjoined : ((StopTask.mk p .spawned).run acts).stage = .joined) :
    ((StopTask.mk p .spawned).run acts).participant.reporter.Disposed := by
  refine run_keeps (fun task => task.stage = .joined → task.participant.reporter.Disposed)
    (fun _ _ hmoved => hmoved.disposed) (fun hspawned => ?_) acts hjoined
  cases hspawned

theorem Moved.atRest (h : Moved task task') (hrest : task.participant.life.AtRest) :
    task'.participant.life.AtRest := by
  cases h with
  | stays stage => exact hrest
  | asks stage =>
    rw [Participant.life_stop]
    exact hrest.stop
  | disposes =>
    rw [Participant.life_stopped]
    exact hrest.dispose
  | works act hwork =>
    rw [Participant.life_work]
    exact (hrest.work hwork).2

/-- A reporter that is disposed of and at rest stays as it is, also where it is stopped again. -/
theorem Moved.reporter_eq (h : Moved task task') (hdisposed : task.participant.reporter.Disposed)
    (hrest : task.participant.life.AtRest) :
    task'.participant.reporter = task.participant.reporter := by
  cases h with
  | stays stage => rfl
  | asks stage => exact (Participant.reporter_stop _).trans hdisposed.requestStop
  | disposes => exact (Participant.reporter_stopped _).trans hdisposed.dispose
  | works act hwork =>
    rw [Participant.reporter, Participant.life_work]
    exact (hrest.work hwork).1

theorem run_reporter (task : StopTask) (hdisposed : task.participant.reporter.Disposed)
    (hrest : task.participant.life.AtRest) (acts : List Act) :
    (task.run acts).participant.reporter = task.participant.reporter ∧
      (task.run acts).participant.life.AtRest := by
  refine run_keeps (fun task' => task'.participant.reporter = task.participant.reporter ∧
    task'.participant.life.AtRest) (fun before after hmoved h => ?_) ⟨rfl, hrest⟩ acts
  have hsame := hmoved.reporter_eq (h.1 ▸ hdisposed) h.2
  exact ⟨hsame.trans h.1, hmoved.atRest h.2⟩

/-- What goes on while a stop of a disposed reporter is under way. -/
def Act.worked (life : Lifespan) : Act → Lifespan
  | .work act => if act.isWork then life.act act else life
  | _ => life

theorem act_of_disposed (h : task.participant.reporter.Disposed) (act : Act) :
    (task.act act).participant.life = act.worked task.participant.life ∧
      (task.act act).participant.reporter.Disposed := by
  cases act with
  | poll =>
    simp only [StopTask.act, poll, Act.worked]
    split
    · rw [Participant.life_stop, Participant.reporter_stop, h.requestStop]
      exact ⟨Lifespan.act_stop_detached h.detached, h⟩
    · split <;> exact ⟨rfl, h⟩
    · exact ⟨rfl, h⟩
  | join =>
    simp only [StopTask.act, join, Act.worked]
    split
    · rw [Participant.life_stopped, Participant.reporter_stopped, h.dispose]
      exact ⟨Lifespan.act_dispose_of_disposed h, h⟩
    · exact ⟨rfl, h⟩
  | work act =>
    simp only [StopTask.act, work, Act.worked]
    split
    · rename_i hwork
      exact ⟨Participant.life_work _ act, (Participant.onward hwork).reporter.disposed h⟩
    · exact ⟨rfl, h⟩

theorem run_of_disposed (task : StopTask) (h : task.participant.reporter.Disposed)
    (acts : List Act) :
    (task.run acts).participant.life =
      acts.foldl (fun life act => act.worked life) task.participant.life := by
  induction acts generalizing task with
  | nil => rfl
  | cons act acts ih =>
    obtain ⟨hlife, hdisposed⟩ := act_of_disposed h act
    rw [List.foldl_cons, ← hlife]
    exact ih _ hdisposed

theorem Moved.rooted (h : Moved task task') {writer : PayloadWriter} {origin : Nat}
    (hrooted : task.participant.life.drainage.Rooted writer origin) :
    task'.participant.life.drainage.Rooted writer origin := by
  cases h with
  | stays stage => exact hrooted
  | asks stage =>
    rw [Participant.life_stop]
    exact Lifespan.rooted_act hrooted _
  | disposes =>
    rw [Participant.life_stopped]
    exact Lifespan.rooted_act hrooted _
  | works act =>
    rw [Participant.life_work]
    exact Lifespan.rooted_act hrooted _

end StopTask

namespace Participant

variable {p : Participant}

theorem Reached.known (h : p.Reached) : p.cycle.Course p.reporter.writer ∧
    p.life.drainage.Rooted p.reporter.writer p.life.drainage.traffic.origin := by
  obtain ⟨metricType, settings, writer, requested, position, clock, tags, acts, hcycle⟩ := h
  have hfresh := Ring.startingAt_fresh requested position clock
  obtain ⟨hcourse, hrooted⟩ :=
    (Lifecycle.ready_course metricType settings writer hfresh tags).run
      ⟨rfl, rfl⟩ acts
  rw [← hcycle] at hcourse hrooted
  have hwriter : p.reporter.writer = writer := hrooted.writer_eq
  have horigin : p.life.drainage.traffic.origin = _ := hrooted.origin_eq
  rw [hwriter, horigin]
  exact ⟨hcourse, hrooted⟩

theorem Reached.led (h : p.Reached) (hruns : p.reporter.isRunning = true) :
    StopTask.Led p.due ⟨p, .spawned⟩ := by
  -- it has not been asked so far, or was disposed of before its start and is asked by that
  obtain ⟨hattached, mark, hrunning, hcase⟩ := h.known.1.running_of_isRunning hruns
  refine .spawned mark rfl hattached (Or.inl hrunning) ?_
  rcases hcase with ⟨rfl, hnew⟩ | ⟨claimed, rfl, hbegun, hdisposed⟩
  · rw [due, if_neg hnew]
    exact Nat.le_refl _
  · rw [due, if_pos hdisposed, hbegun]
    exact Nat.le_refl _

end Participant

end MetricReporting
