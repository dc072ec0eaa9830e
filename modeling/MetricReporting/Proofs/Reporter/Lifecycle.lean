import MetricReporting.Proofs.Reporter.Views
import MetricReporting.Session

/-!
# The calls of an owner

The owner of a reporter, or the session it belongs to, starts it, asks it to stop and disposes of
it, in any order and as often as it likes, while others write. One start succeeds. The loop it
begins lives until the first call after it that ends one, and where that is a stop, all that was
claimed before it is handed over. Disposal leaves its marks even where there is nothing to dispose
of yet: a loop begun after it is begun in its last drain, and ends by itself.
-/
namespace MetricReporting

theorem Reporter.exists_start_iff (reporter : Reporter) (now : Nat) (runtime : Bool) :
    (∃ reporter', reporter.start now runtime = .ok reporter') ↔
      reporter.started = false ∧ runtime = true := by
  cases hstarted : reporter.started with
  | true => simp [start, hstarted]
  | false => cases runtime <;> simp [start, hstarted]

/-- A start of a session gives each reporter what its own start would, or leaves it as it was. -/
theorem Session.startMembers_reporter {now i : Nat} {members : List Member} {member : Member}
    (h : members[i]? = some member) :
    ∃ member', (startMembers now members).1[i]? = some member' ∧ (member' = member ∨
      ∃ reporter, member.reporter.start now = .ok reporter ∧
        member' = { member with reporter := reporter }) := by
  induction members generalizing i with
  | nil => cases h
  | cons head rest ih =>
    cases hstart : head.reporter.start now with
    | error error =>
      simp only [startMembers, hstart]
      exact ⟨member, h, Or.inl rfl⟩
    | ok reporter =>
      simp only [startMembers, hstart]
      cases i with
      | zero =>
        obtain rfl : head = member := Option.some.inj h
        exact ⟨_, rfl, Or.inr ⟨reporter, hstart, rfl⟩⟩
      | succ i => exact ih h

namespace Drainage

variable {d : Drainage} {marks : Marks}

theorem act_start (h : d.reporter.started = false) (now : Nat) :
    d.act (.start now true) = { d with reporter := { d.reporter with
      started := true
      attached := true
      loop := some { phase := .turning now, permits := d.reporter.settings.maxParallel } } } := by
  simp only [Drainage.act, Reporter.start, h, Bool.false_eq_true, if_false, Bool.not_true]

theorem dispose_under (h : d.reporter.dispose.loop = d.reporter.loop) :
    ({ d with reporter := d.reporter.dispose } : Drainage).under marks = d.under marks := by
  simp only [under, Reporter.under, h]
  rfl

structure Rooted (writer : PayloadWriter) (origin : Nat) (d : Drainage) : Prop where
  writer_eq : d.reporter.writer = writer
  origin_eq : d.traffic.origin = origin

theorem Rooted.act {writer : PayloadWriter} {origin : Nat} (h : d.Rooted writer origin)
    (act : Act) : (d.act act).Rooted writer origin :=
  ⟨(act_writer d act).trans h.writer_eq, (act_origin d act).trans h.origin_eq⟩

end Drainage

namespace Lifespan

variable {life : Lifespan} {d : Drainage} {loop : DrainLoop} {mark : Option Nat}

theorem become_self (life : Lifespan) : life.become life.drainage = life := by
  rw [become, leftBehind, Bool.and_not_self, if_neg Bool.false_ne_true, List.append_nil]

theorem act_refused {now : Nat} {runtime : Bool} {error : ReporterError}
    (h : life.drainage.reporter.start now runtime = .error error) :
    life.act (.own (.start now runtime)) = life := by
  have hsame : life.drainage.act (.start now runtime) = life.drainage := by
    simp only [Drainage.act, h]
  rw [act, hsame, become_self]

theorem act_stop_detached (h : life.drainage.reporter.attached = false) :
    life.act (.own .stop) = life := by
  have hsame : life.drainage.act .stop = life.drainage := Drainage.stop_detached h
  rw [act, hsame, become_self]

theorem become_orphans (h : life.orphans = []) (hwhole : d.loop.isTorn = false) :
    (life.become d).orphans = [] := by
  rw [become, leftBehind_of_whole hwhole, h]
  rfl

theorem linger_of_whole (h : life.orphans = []) (place : Nat) (answer : Option SendOutcome) :
    life.linger place answer = life := by
  rw [linger, h]
  rfl

theorem abort_of_whole (h : life.orphans = []) (place : Nat) : life.abort place = life := by
  rw [abort, h]
  rfl

theorem rooted_act {writer : PayloadWriter} {origin : Nat} (h : life.drainage.Rooted writer origin)
    (act : Act) : (life.act act).drainage.Rooted writer origin := by
  cases act with
  | own act => exact h.act act
  | dispose => exact ⟨h.writer_eq, h.origin_eq⟩
  | linger place answer =>
    simp only [act, linger]
    split
    · exact h
    · exact ⟨h.writer_eq, h.origin_eq⟩
  | abort place =>
    simp only [act, abort]
    split
    · exact h
    · split <;> exact h

/-! ## Before the start -/

structure Waiting (life : Lifespan) : Prop where
  orphans : life.orphans = []
  started : life.drainage.reporter.started = false
  attached : life.drainage.reporter.attached = false
  sound : (life.drainage.under .unstarted).Sound

theorem Waiting.asleep (h : Waiting life) : life.drainage.reporter.loop = none :=
  (h.sound.unstarted h.started).1

theorem Waiting.work (h : Waiting life) {act : Drainage.Act} (hwork : act.isWork = true) :
    Waiting (life.act (.own act)) := by
  have howner := Drainage.act_sameOwner (d := life.drainage) hwork
  have hasleep : (life.drainage.act act).reporter.loop = none := by
    rw [← Option.not_isSome_iff_eq_none, howner.awake, h.asleep]
    exact Bool.false_ne_true
  have hloop : (life.drainage.act act).loop = .dormant := by
    rw [Drainage.loop, hasleep, Option.getD_none]
  refine ⟨become_orphans h.orphans (by rw [hloop]; rfl), howner.started.trans h.started,
    howner.attached.trans h.attached, h.sound.work hwork (Or.inl h.asleep)⟩

theorem Waiting.dispose (h : Waiting life) : Waiting (life.act .dispose) := by
  have hloop := Reporter.dispose_detached h.attached
  refine ⟨become_orphans h.orphans ?_, h.started, rfl, ?_⟩
  · rw [Drainage.loop, hloop, h.asleep]
    rfl
  · exact (Drainage.dispose_under hloop).symm ▸ h.sound

/-! ## After it -/

structure Running (mark : Option Nat) (life : Lifespan) : Prop where
  orphans : life.orphans = []
  started : life.drainage.reporter.started = true
  awake : life.drainage.reporter.loop.isSome = true
  asked : life.drainage.reporter.stopRequested = mark.isSome
  runs : life.drainage.loop.phase ≠ .panicked
  sound : (life.drainage.under (.started mark)).Sound

theorem Waiting.start (h : Waiting life) (mark : Option Nat) (now : Nat)
    (hasked : life.drainage.reporter.stopRequested = mark.isSome)
    (hmark : ∀ position ∈ mark, position = life.drainage.traffic.ring.written) :
    Running mark (life.act (.own (.start now true))) ∧
      (life.act (.own (.start now true))).drainage.reporter.attached = true := by
  have hstart := Drainage.act_start h.started now
  have hsound := h.sound.begin h.started now
  have hdrainage : (life.act (.own (.start now true))).drainage =
      life.drainage.act (.start now true) := rfl
  have hruns : (life.drainage.act (.start now true)).loop.phase ≠ .panicked := by
    rw [hstart]
    nofun
  rw [hdrainage]
  refine ⟨⟨become_orphans h.orphans (hsound.whole hruns), ?_, ?_, ?_, hruns, ?_⟩, ?_⟩
  · rw [hdrainage, hstart]
  · rw [hdrainage, hstart]
    rfl
  · rw [hdrainage, hstart]
    exact hasked
  · cases mark with
    | none => exact hsound
    | some position =>
      have hask := hsound.ask
      have htraffic : (life.drainage.act (.start now true)).traffic = life.drainage.traffic := by
        rw [hstart]
      rw [htraffic, ← hmark position rfl] at hask
      exact hask
  · rw [hstart]

theorem Running.whole (h : Running mark life) : life.drainage.loop.isTorn = false :=
  h.sound.whole h.runs

theorem Running.exists_loop (h : Running mark life) :
    ∃ loop, life.drainage.reporter.loop = some loop ∧ loop.phase ≠ .panicked := by
  obtain ⟨loop, hloop⟩ := Option.isSome_iff_exists.1 h.awake
  exact ⟨loop, hloop, Drainage.loop_eq hloop ▸ h.runs⟩

theorem Running.work (h : Running mark life) {act : Drainage.Act} (hwork : act.isWork = true) :
    Running mark (life.act (.own act)) ∨ ∃ loop, Torn (life.act (.own act)).drainage loop ∧
      loop.phase = .panicked ∧
        ∃ tags, life.drainage.reporter.writer.encode? tags loop.pending = none := by
  have howner := Drainage.act_sameOwner (d := life.drainage) hwork
  have hstarted := howner.started.trans h.started
  have hawake := howner.awake.trans h.awake
  have hsound := h.sound.work hwork (Or.inr h.asked)
  by_cases hpanicked : (life.drainage.act act).loop.phase = .panicked
  · have htasks := hsound.tasks_of_panicked hpanicked
    obtain ⟨tags, hnone⟩ := hsound.panicked hpanicked
    obtain ⟨loop, hloop⟩ := Option.isSome_iff_exists.1 hawake
    have hcurrent := Drainage.loop_eq hloop
    rw [hcurrent] at hpanicked
    refine Or.inr ⟨loop, ⟨hstarted, hloop, ?_, hcurrent ▸ htasks⟩, hpanicked, tags, ?_⟩
    · rw [DrainLoop.isTorn, hpanicked]
    · rw [← Drainage.act_writer life.drainage act, ← hcurrent]
      exact hnone
  · exact Or.inl ⟨become_orphans h.orphans (hsound.whole hpanicked), hstarted, hawake,
      howner.stopRequested.trans h.asked, hpanicked, hsound⟩

theorem Running.stop (h : Running mark life) (hattached : life.drainage.reporter.attached = true) :
    Running (some (mark.getD life.drainage.traffic.ring.written)) (life.act (.own .stop)) ∧
      (life.act (.own .stop)).drainage.reporter.attached = false := by
  have hdrainage : (life.act (.own .stop)).drainage = life.drainage.stop := rfl
  have hreporter : life.drainage.stop.reporter =
      { life.drainage.reporter with attached := false, stopRequested := true } := by
    simp only [Drainage.stop, Reporter.requestStop, hattached, if_true]
  have hloop : life.drainage.stop.loop = life.drainage.loop := by
    rw [Drainage.loop, hreporter]
    rfl
  rw [hdrainage]
  refine ⟨⟨become_orphans h.orphans ?_, ?_, ?_, ?_, ?_, ?_⟩, ?_⟩
  · exact hloop ▸ h.whole
  · rw [hdrainage, hreporter]
    exact h.started
  · rw [hdrainage, hreporter]
    exact h.awake
  · rw [hdrainage, hreporter]
    rfl
  · rw [hdrainage, hloop]
    exact h.runs
  · rw [hdrainage, Drainage.stop_under]
    cases mark with
    | none => exact h.sound.ask
    | some position => exact h.sound
  · rw [hreporter]

theorem Running.not_over (h : Running none life) (hloop : life.drainage.reporter.loop = some loop) :
    loop.isOver = false := by
  by_contra hover
  have hloop' : (life.drainage.under (.started none)).reporter.loop = some loop := hloop
  obtain ⟨-, -, -, hmarked⟩ :=
    h.sound.ended hloop' (Drainage.loop_eq hloop ▸ h.runs) (Bool.of_not_eq_false hover)
  obtain ⟨position, hmark, -⟩ := hmarked rfl
  cases hmark

theorem Running.dispose (h : Running mark life) (hasked : mark.isSome = true)
    (hloop : life.drainage.reporter.dispose.loop = life.drainage.reporter.loop) :
    Running mark (life.act .dispose) := by
  refine ⟨become_orphans h.orphans ?_, h.started, ?_, hasked.symm, ?_, ?_⟩
  · rw [Drainage.loop, hloop]
    exact h.whole
  · exact hloop ▸ h.awake
  · show (life.drainage.reporter.dispose.loop.getD .dormant).phase ≠ .panicked
    rw [hloop]
    exact h.runs
  · exact (Drainage.dispose_under hloop).symm ▸ h.sound

theorem Running.dispose_torn (h : Running mark life)
    (hattached : life.drainage.reporter.attached = true)
    (hloop : life.drainage.reporter.loop = some loop) (hover : loop.isOver = false) :
    Torn (life.act .dispose).drainage (loop.torn .aborted) := by
  refine ⟨h.started, ?_, rfl, rfl⟩
  simp only [act, become, Reporter.dispose, hattached, hloop, Option.map_some, hover, if_true,
    Bool.false_eq_true, if_false]

end Lifespan

/-! ## The owner's view -/

/-- A call that ends the loop; a stop with the write position at its call. -/
inductive Ending
  | stopped (position : Nat)
  | disposed
deriving DecidableEq

/-- A reporter with a memory of its owner's calls, which nothing reads back. -/
structure Lifecycle where
  life : Lifespan
  /-- The write positions at the starts that succeeded. -/
  begun : List Nat := []
  before : List Ending := []
  since : List Ending := []

namespace Lifecycle

inductive Act
  | life (act : Lifespan.Act)
  /-- The session starts its reporters in turn; `reached` tells whether it gets to this one. -/
  | sessionStart (now : Nat) (reached : Bool)
  | sessionStop
  /-- The stop that its session asked for is over, and the session disposes of it. -/
  | sessionStopped

def Act.toLife : Act → Option Lifespan.Act
  | .life act => some act
  | .sessionStart now reached => if reached then some (.own (.start now true)) else none
  | .sessionStop => some (.own .stop)
  | .sessionStopped => some .dispose

def note (cycle : Lifecycle) (ending : Ending) : Lifecycle :=
  if cycle.begun.isEmpty then { cycle with before := cycle.before ++ [ending] }
  else { cycle with since := cycle.since ++ [ending] }

def perform (cycle : Lifecycle) (act : Lifespan.Act) : Lifecycle :=
  let written := cycle.life.drainage.traffic.ring.written
  let after := { cycle with life := cycle.life.act act }
  match act with
  | .own (.start now runtime) =>
      match cycle.life.drainage.reporter.start now runtime with
      | .ok _ => { after with begun := cycle.begun ++ [written] }
      | .error _ => after
  | .own .stop => after.note (.stopped written)
  | .dispose => after.note .disposed
  | _ => after

def act (cycle : Lifecycle) (act : Act) : Lifecycle :=
  match act.toLife with
  | none => cycle
  | some act => cycle.perform act

def run (cycle : Lifecycle) (acts : List Act) : Lifecycle :=
  acts.foldl act cycle

def ready (metricType : String) (settings : DrainSettings) (writer : PayloadWriter) (ring : Ring)
    (tags : TagTable) : Lifecycle where
  life := .ready metricType settings writer ring tags

/-- How a loop that was begun at `claimed` is asked to stop: not yet, by the first call after its
start, or before it. -/
inductive Asked (claimed : Nat) (before since : List Ending) (attached : Bool) : Option Nat → Prop
  | live : .disposed ∉ before → since = [] → attached = true →
      Asked claimed before since attached none
  | stopped (mark : Nat) : .disposed ∉ before → since.head? = some (.stopped mark) →
      attached = false → Asked claimed before since attached (some mark)
  | late : .disposed ∈ before → Asked claimed before since attached (some claimed)

inductive Course (writer : PayloadWriter) (cycle : Lifecycle) : Prop
  | waiting : cycle.begun = [] → cycle.since = [] →
      (cycle.life.drainage.reporter.stopRequested = true ↔ .disposed ∈ cycle.before) →
      cycle.life.Waiting → Course writer cycle
  | running (claimed : Nat) (mark : Option Nat) : cycle.begun = [claimed] →
      Asked claimed cycle.before cycle.since cycle.life.drainage.reporter.attached mark →
      cycle.life.Running mark → Course writer cycle
  | torn (claimed : Nat) (loop : DrainLoop) : cycle.begun = [claimed] →
      Lifespan.Torn cycle.life.drainage loop →
      (loop.phase = .panicked → ∃ tags, writer.encode? tags loop.pending = none) →
      .disposed ∈ cycle.before ∨ cycle.since.head? = some .disposed ∨ loop.phase = .panicked →
      Course writer cycle

variable {cycle : Lifecycle} {writer : PayloadWriter} {claimed origin : Nat} {ending : Ending}

theorem note_begun (h : cycle.begun = [claimed]) (life : Lifespan) :
    note { cycle with life := life } ending =
      { cycle with life := life, since := cycle.since ++ [ending] } := by
  rw [note, h]
  rfl

theorem note_waiting (h : cycle.begun = []) (life : Lifespan) :
    note { cycle with life := life } ending =
      { cycle with life := life, before := cycle.before ++ [ending] } := by
  rw [note, h]
  rfl

theorem head?_concat (h : cycle.since.head? = some ending) (more : Ending) :
    (cycle.since ++ [more]).head? = some ending := by
  rw [List.head?_append, h]
  rfl

theorem perform_work {act : Drainage.Act} (hwork : act.isWork = true) :
    cycle.perform (.own act) = { cycle with life := cycle.life.act (.own act) } := by
  cases act with
  | start now runtime => cases hwork
  | stop => cases hwork
  | _ => rfl

theorem perform_refused {now : Nat} {runtime : Bool} {error : ReporterError}
    (h : cycle.life.drainage.reporter.start now runtime = .error error) :
    cycle.perform (.own (.start now runtime)) = cycle := by
  simp only [perform, h, Lifespan.act_refused h]

theorem perform_life (cycle : Lifecycle) (act : Lifespan.Act) :
    (cycle.perform act).life = cycle.life.act act := by
  unfold perform
  dsimp only
  split
  · split <;> rfl
  · unfold note
    split <;> rfl
  · unfold note
    split <;> rfl
  · rfl

theorem Course.work (h : cycle.Course writer)
    (hwriter : cycle.life.drainage.reporter.writer = writer) {act : Drainage.Act}
    (hwork : act.isWork = true) : (cycle.perform (.own act)).Course writer := by
  have howner := Drainage.act_sameOwner (d := cycle.life.drainage) hwork
  subst hwriter
  rw [perform_work hwork]
  cases h with
  | waiting hbegun hsince hasked hwaiting =>
    exact .waiting hbegun hsince (howner.stopRequested.symm ▸ hasked) (hwaiting.work hwork)
  | running claimed mark hbegun hasked hrunning =>
    rcases hrunning.work hwork with hrunning' | ⟨loop, htorn, hpanicked, hwriter⟩
    · exact .running claimed mark hbegun (howner.attached.symm ▸ hasked) hrunning'
    · exact .torn claimed loop hbegun htorn (fun _ => hwriter) (Or.inr (Or.inr hpanicked))
  | torn claimed loop hbegun htorn hwriter hcause =>
    exact .torn claimed loop hbegun (htorn.act _) hwriter hcause

theorem Course.waiting_or_started (h : cycle.Course writer) :
    (cycle.begun = [] ∧ cycle.since = [] ∧
      (cycle.life.drainage.reporter.stopRequested = true ↔ .disposed ∈ cycle.before) ∧
      cycle.life.Waiting) ∨
    (∃ claimed, cycle.begun = [claimed]) ∧ cycle.life.drainage.reporter.started = true := by
  cases h with
  | waiting hbegun hsince hasked hwaiting => exact Or.inl ⟨hbegun, hsince, hasked, hwaiting⟩
  | running claimed mark hbegun hasked hrunning =>
    exact Or.inr ⟨⟨claimed, hbegun⟩, hrunning.started⟩
  | torn claimed loop hbegun htorn hwriter hcause =>
    exact Or.inr ⟨⟨claimed, hbegun⟩, htorn.started⟩

theorem Course.start (h : cycle.Course writer) (now : Nat) (runtime : Bool) :
    (cycle.perform (.own (.start now runtime))).Course writer := by
  cases hstart : cycle.life.drainage.reporter.start now runtime with
  | error error => rwa [perform_refused hstart]
  | ok reporter =>
    obtain ⟨hnew, rfl⟩ := (Reporter.exists_start_iff _ now runtime).1 ⟨reporter, hstart⟩
    rcases h.waiting_or_started with ⟨hbegun, hsince, hasked, hwaiting⟩ | ⟨-, hstarted⟩
    · simp only [perform, hstart, hbegun, List.nil_append]
      cases hstop : cycle.life.drainage.reporter.stopRequested with
      | false =>
        obtain ⟨hrunning, hattached⟩ := hwaiting.start none now hstop (fun _ hmem => nomatch hmem)
        have hnew : Ending.disposed ∉ cycle.before := by
          rw [← hasked, hstop]
          exact Bool.false_ne_true
        exact .running _ none rfl (.live hnew hsince hattached) hrunning
      | true =>
        obtain ⟨hrunning, -⟩ := hwaiting.start (some _) now hstop
          fun _ hmem => (Option.some.inj hmem).symm
        exact .running _ _ rfl (.late (hasked.1 hstop)) hrunning
    · rw [hstarted] at hnew
      cases hnew

theorem Course.stop (h : cycle.Course writer) : (cycle.perform (.own .stop)).Course writer := by
  show (note { cycle with life := cycle.life.act (.own .stop) } _).Course writer
  cases h with
  | waiting hbegun hsince hasked hwaiting =>
    rw [Lifespan.act_stop_detached hwaiting.attached, note_waiting hbegun]
    refine .waiting hbegun hsince (hasked.trans ?_) hwaiting
    simp only [List.mem_append, List.mem_singleton, reduceCtorEq, or_false]
  | torn claimed loop hbegun htorn hwriter hcause =>
    rw [note_begun hbegun]
    exact .torn claimed loop hbegun (htorn.act _) hwriter
      (hcause.imp_right (Or.imp_left (head?_concat · _)))
  | running claimed mark hbegun hasked hrunning =>
    rw [note_begun hbegun]
    cases hasked with
    | live hbefore hsince hattached =>
      obtain ⟨hrunning', hdetached⟩ := hrunning.stop hattached
      rw [hsince]
      exact .running claimed _ hbegun (.stopped _ hbefore rfl hdetached) hrunning'
    | stopped mark hbefore hsince hdetached =>
      rw [Lifespan.act_stop_detached hdetached]
      exact .running claimed _ hbegun (.stopped mark hbefore (head?_concat hsince _) hdetached)
        hrunning
    | late hbefore =>
      cases hattached : cycle.life.drainage.reporter.attached with
      | true => exact .running claimed _ hbegun (.late hbefore) (hrunning.stop hattached).1
      | false =>
        rw [Lifespan.act_stop_detached hattached]
        exact .running claimed _ hbegun (.late hbefore) hrunning

theorem Course.dispose (h : cycle.Course writer) : (cycle.perform .dispose).Course writer := by
  show (note { cycle with life := cycle.life.act .dispose } .disposed).Course writer
  cases h with
  | waiting hbegun hsince hasked hwaiting =>
    rw [note_waiting hbegun]
    have hmem : Ending.disposed ∈ cycle.before ++ [.disposed] :=
      List.mem_append_right _ (List.mem_singleton_self _)
    exact .waiting hbegun hsince ⟨fun _ => hmem, fun _ => rfl⟩ hwaiting.dispose
  | torn claimed loop hbegun htorn hwriter hcause =>
    rw [note_begun hbegun]
    exact .torn claimed loop hbegun (htorn.act _) hwriter
      (hcause.imp_right (Or.imp_left (head?_concat · _)))
  | running claimed mark hbegun hasked hrunning =>
    obtain ⟨loop, hloop, -⟩ := hrunning.exists_loop
    rw [note_begun hbegun]
    have htorn : ∀ {since}, .disposed ∈ cycle.before ∨ since.head? = some Ending.disposed →
        cycle.life.drainage.reporter.attached = true → loop.isOver = false →
        Course writer { cycle with life := cycle.life.act .dispose, since := since } :=
      fun hcause hattached hover => .torn claimed _ hbegun
        (hrunning.dispose_torn hattached hloop hover) (fun hpanicked => nomatch hpanicked)
        (hcause.imp_right Or.inl)
    cases hasked with
    | live hbefore hsince hattached =>
      rw [hsince]
      exact htorn (Or.inr rfl) hattached (hrunning.not_over hloop)
    | stopped mark hbefore hsince hdetached =>
      exact .running claimed _ hbegun (.stopped mark hbefore (head?_concat hsince _) rfl)
        (hrunning.dispose rfl (Reporter.dispose_detached hdetached))
    | late hbefore =>
      cases hattached : cycle.life.drainage.reporter.attached with
      | false =>
        exact .running claimed _ hbegun (.late hbefore)
          (hrunning.dispose rfl (Reporter.dispose_detached hattached))
      | true =>
        cases hover : loop.isOver with
        | true =>
          exact .running claimed _ hbegun (.late hbefore)
            (hrunning.dispose rfl (Reporter.dispose_over hloop hover))
        | false => exact htorn (Or.inl hbefore) hattached hover

theorem Course.orphan (h : cycle.Course writer) {life : Lifespan}
    (hwhole : cycle.life.orphans = [] → life = cycle.life)
    (htorn : ∀ loop, Lifespan.Torn cycle.life.drainage loop → Lifespan.Torn life.drainage loop) :
    Course writer { cycle with life := life } := by
  cases h with
  | waiting hbegun hsince hasked hwaiting =>
    rw [hwhole hwaiting.orphans]
    exact .waiting hbegun hsince hasked hwaiting
  | running claimed mark hbegun hasked hrunning =>
    rw [hwhole hrunning.orphans]
    exact .running claimed mark hbegun hasked hrunning
  | torn claimed loop hbegun htorn' hwriter hcause =>
    exact .torn claimed loop hbegun (htorn loop htorn') hwriter hcause

theorem Course.perform (h : cycle.Course writer)
    (hwriter : cycle.life.drainage.reporter.writer = writer) (act : Lifespan.Act) :
    (cycle.perform act).Course writer := by
  cases act with
  | own act =>
    cases act with
    | start now runtime => exact h.start now runtime
    | stop => exact h.stop
    | _ => exact h.work hwriter rfl
  | dispose => exact h.dispose
  | linger place answer =>
    exact h.orphan (fun hwhole => Lifespan.linger_of_whole hwhole place answer)
      fun _ htorn => htorn.act (.linger place answer)
  | abort place =>
    exact h.orphan (fun hwhole => Lifespan.abort_of_whole hwhole place)
      fun _ htorn => htorn.act (.abort place)

theorem ready_course (metricType : String) (settings : DrainSettings) (writer : PayloadWriter)
    {ring : Ring} (hfresh : ring.Fresh) (tags : TagTable) :
    (ready metricType settings writer ring tags).Course writer := by
  refine .waiting rfl rfl ⟨(fun hasked => nomatch hasked), (fun hmem => nomatch hmem)⟩
    ⟨rfl, rfl, rfl, ?_⟩
  exact Drainage.ready_sound metricType settings writer hfresh tags

theorem Course.run (h : cycle.Course writer) (hrooted : cycle.life.drainage.Rooted writer origin)
    (acts : List Act) :
    (cycle.run acts).Course writer ∧ (cycle.run acts).life.drainage.Rooted writer origin := by
  induction acts generalizing cycle with
  | nil => exact ⟨h, hrooted⟩
  | cons act acts ih =>
    have hstep : (cycle.act act).Course writer ∧
        (cycle.act act).life.drainage.Rooted writer origin := by
      unfold Lifecycle.act
      split
      · exact ⟨h, hrooted⟩
      · rename_i own _
        refine ⟨h.perform hrooted.writer_eq own, ?_⟩
        rw [perform_life]
        exact Lifespan.rooted_act hrooted own
    exact ih hstep.1 hstep.2

/-- Where the last drain is over, what was claimed when it was asked for is handed over. -/
theorem handed_over {loop : DrainLoop} {mark p : Nat} (h : cycle.life.Running (some mark))
    (hrooted : cycle.life.drainage.Rooted writer origin)
    (hloop : cycle.life.drainage.reporter.loop = some loop) (hover : loop.isOver = true)
    (hp : origin ≤ p) (hp' : p < mark) : ∃! number, cycle.life.drainage.Carries number p := by
  let d := cycle.life.drainage.under (.started (some mark))
  have hloop' : d.reporter.loop = some loop := hloop
  exact h.sound.hands_over hloop' (Drainage.loop_eq hloop ▸ h.runs) hover rfl
    (hrooted.origin_eq.le.trans hp) hp'

/-- One start succeeds, and every other leaves all as it was. If nothing was disposed of before it,
its loop lives until the first call that ends one, and a stop that is this call hands over what was
claimed before it; only a writer that panics ends the loop otherwise. A loop begun after a disposal
hands over what was claimed before its start. -/
theorem started_loop_lives (metricType : String) (settings : DrainSettings) (writer : PayloadWriter)
    (requested position : Nat) (clock : Clock) (tags : TagTable) (acts : List Act) :
    let cycle :=
      (ready metricType settings writer (Ring.startingAt requested position clock) tags).run acts
    let d := cycle.life.drainage
    cycle.begun.length ≤ 1 ∧
    (∀ now runtime, (∃ reporter, d.reporter.start now runtime = .ok reporter) ↔
      cycle.begun = [] ∧ runtime = true) ∧
    (∀ now runtime error, d.reporter.start now runtime = .error error →
      cycle.act (.life (.own (.start now runtime))) = cycle) ∧
    ∀ claimed ∈ cycle.begun, ∃ loop, d.reporter.loop = some loop ∧
      (loop.phase = .panicked → ∃ tags, writer.encode? tags loop.pending = none) ∧
      (.disposed ∉ cycle.before → cycle.since = [] →
        d.reporter.isRunning = true ∨ loop.phase = .panicked) ∧
      (.disposed ∉ cycle.before → ∀ mark, cycle.since.head? = some (.stopped mark) →
        loop.isOver = true → loop.phase = .panicked ∨
          ∀ p, position ≤ p → p < mark → ∃! number, d.Carries number p) ∧
      (.disposed ∈ cycle.before → loop.isOver = true → loop.isTorn = true ∨
        ∀ p, position ≤ p → p < claimed → ∃! number, d.Carries number p) := by
  intro cycle d
  have hfresh := Ring.startingAt_fresh requested position clock
  obtain ⟨hcourse, hrooted⟩ : cycle.Course writer ∧ d.Rooted writer position :=
    (ready_course metricType settings writer hfresh tags).run
      ⟨rfl, rfl⟩ acts
  refine ⟨?_, fun now runtime => ?_, fun now runtime error => perform_refused, ?_⟩
  · rcases hcourse.waiting_or_started with ⟨hbegun, -⟩ | ⟨⟨claimed, hbegun⟩, -⟩
    · exact hbegun ▸ Nat.zero_le 1
    · exact hbegun ▸ Nat.le_refl 1
  · rw [Reporter.exists_start_iff]
    rcases hcourse.waiting_or_started with ⟨hbegun, -, -, hwaiting⟩ | ⟨⟨claimed, hbegun⟩, hstarted⟩
    · rw [hbegun, hwaiting.started]
      exact and_congr_left fun _ => ⟨fun _ => rfl, fun _ => rfl⟩
    · rw [hbegun, hstarted]
      exact and_congr_left fun _ => ⟨(nomatch ·), (nomatch ·)⟩
  · intro claimed hmem
    cases hcourse with
    | waiting hbegun =>
      rw [hbegun] at hmem
      cases hmem
    | running claimed' mark hbegun hasked hrunning =>
      obtain ⟨loop, hloop, hruns⟩ := hrunning.exists_loop
      refine ⟨loop, hloop, fun hpanicked => absurd hpanicked hruns, ?_⟩
      cases hasked with
      | live hbefore hsince hattached =>
        refine ⟨fun _ _ => Or.inl ?_, fun _ mark hfirst => ?_,
          fun hdisposed => absurd hdisposed hbefore⟩
        · simp only [Reporter.isRunning, d, hattached, hloop, hrunning.not_over hloop,
            Option.any_some, Bool.not_false, Bool.and_self]
        · rw [hsince] at hfirst
          cases hfirst
      | stopped mark hbefore hsince hdetached =>
        refine ⟨fun _ hnone => ?_, fun _ mark' hfirst hover => ?_,
          fun hdisposed => absurd hdisposed hbefore⟩
        · rw [hnone] at hsince
          cases hsince
        · have hsame := Option.some.inj (hsince.symm.trans hfirst)
          obtain rfl : mark = mark' := Ending.stopped.inj hsame
          exact Or.inr fun p => handed_over hrunning hrooted hloop hover
      | late hbefore =>
        obtain rfl : claimed = claimed' := List.mem_singleton.1 (hbegun ▸ hmem)
        exact ⟨fun hnew => absurd hbefore hnew, fun hnew => absurd hbefore hnew,
          fun _ hover => Or.inr fun p => handed_over hrunning hrooted hloop hover⟩
    | torn claimed' loop hbegun htorn hwriter hcause =>
      have hpanicked : ∀ {first}, .disposed ∉ cycle.before → cycle.since.head? = first →
          first ≠ some .disposed → loop.phase = .panicked := fun hnew hfirst hother =>
        (hcause.resolve_left hnew).resolve_left (hfirst ▸ hother)
      refine ⟨loop, htorn.loop_eq, hwriter, fun hnew hnone => Or.inr ?_,
        fun hnew mark hfirst _ => Or.inl ?_, fun _ _ => Or.inl htorn.isTorn⟩
      · exact hpanicked hnew (congrArg List.head? hnone) nofun
      · exact hpanicked hnew hfirst nofun

def Act.ofSession : Drainage.Act → Act
  | .start now _ => .sessionStart now true
  | .stop => .sessionStop
  | act => .life (.own act)

def meddled : List Act :=
  .life (.own .stop) :: Drainage.straggling.map Act.ofSession ++
    [.life (.own (.start 0 true)), .sessionStopped]

theorem started_loop_lives_meddled :
    let cycle :=
      (ready "Values" ⟨0, 0, 0, 0⟩ Drainage.bareValues (Ring.startingAt 2 5 {}) {}).run meddled
    (cycle.begun = [7] ∧ cycle.before = [.stopped 5] ∧ cycle.since = [.stopped 7, .disposed] ∧
      cycle.life.drainage.reporter.loop.map DrainLoop.isOver = some true) ∧
      ∀ p, 5 ≤ p → p < 7 → ∃! number, cycle.life.drainage.Carries number p := by
  have hlives :=
    (started_loop_lives "Values" ⟨0, 0, 0, 0⟩ Drainage.bareValues 2 5 {} {} meddled).2.2.2
  intro cycle
  have hcalls : cycle.begun = [7] ∧ cycle.before = [.stopped 5] ∧
      cycle.since = [.stopped 7, .disposed] ∧
      cycle.life.drainage.reporter.loop.map DrainLoop.isOver = some true := by decide +kernel
  refine ⟨hcalls, ?_⟩
  -- the rest is read off what is known of the run, which is not run again
  have hcycle :
      (ready "Values" ⟨0, 0, 0, 0⟩ Drainage.bareValues (Ring.startingAt 2 5 {}) {}).run meddled =
        cycle := rfl
  rw [hcycle] at hlives
  clear_value cycle
  obtain ⟨hbegun, hbefore, hsince, hover⟩ := hcalls
  obtain ⟨loop, hloop, hwriter, -, hhands, -⟩ := hlives 7 (hbegun ▸ List.mem_singleton_self 7)
  have hnew : Ending.disposed ∉ cycle.before := by rw [hbefore]; decide
  have hfirst : cycle.since.head? = some (.stopped 7) := by rw [hsince]; rfl
  rw [hloop] at hover
  refine (hhands hnew 7 hfirst (Option.some.inj hover)).resolve_left fun hpanicked => ?_
  obtain ⟨tags, hnone⟩ := hwriter hpanicked
  cases hnone

def panickingWriter : PayloadWriter :=
  ⟨fun _ _ => none⟩

/-- An entry is written and the loop left to itself. -/
def unasked : List Act :=
  .life (.own (.start 0 true)) :: .life (.own (.write 10 0)) ::
    List.replicate 6 (.life (.own (.access 0 false))) ++
      List.replicate 20 (.life (.own (.loop 0)))

/-- Where the writer panics, a loop ends that nobody has asked to, and the stop after it returns
with an entry that the sender never got. -/
theorem started_loop_ends_unasked :
    let cycle :=
      (ready "Values" ⟨0, 0, 0, 0⟩ panickingWriter (Ring.startingAt 2 5 {}) {}).run unasked
    let later := cycle.act (.life (.own .stop))
    (cycle.begun = [5] ∧ cycle.before = [] ∧ cycle.since = [] ∧
      cycle.life.drainage.reporter.loop.map DrainLoop.isOver = some true) ∧
    later.since = [.stopped 6] ∧ later.life.drainage.traffic.recorded? 5 = some ⟨1, 10, 0⟩ ∧
      ∀ number, ¬ later.life.drainage.Carries number 5 := by
  intro cycle later
  have hcalled : later.life.drainage.journal.called = [] := by decide +kernel
  refine ⟨by decide +kernel, by decide +kernel, by decide +kernel, ?_⟩
  rintro number ⟨batch, payload, place, entry, -, -, -, -, -, hcall⟩
  rw [hcalled] at hcall
  cases hcall

end Lifecycle

end MetricReporting
