import MetricReporting.Proofs.Reporter.Sends
import MetricReporting.Proofs.Ring.FirstInFirstOut

/-!
# Steps of the drain loop

What the loop has drained is, in the order drained, what it has encoded and then what is pending,
and what it has encoded is what it has submitted and then the payload that waits for a permit. The
phase tells the rest: the last drain aims no lower than the position written when the stop was asked
for, and once it is over the consume position has got there. A writer that panics takes the loop and
the tasks of its sends with it.
-/
namespace MetricReporting

namespace DrainLoop

def Phase.underWay : Phase → List Bytes
  | .submitting payload _ _ => [payload]
  | _ => []

/-- In the last drain the position written when the stop was asked for lies no further than
`bound`. -/
def Marked (mark : Option Nat) (final : Bool) (bound : Nat) : Prop :=
  final = true → ∃ position, mark = some position ∧ position ≤ bound

def Next.Sound (ring : Ring) (mark : Option Nat) : Next → Prop
  | .draining target final => Marked mark final target
  | .drained final => Marked mark final ring.consumed

def Phase.Sound (ring : Ring) (mark : Option Nat) (pending : List Entry) (tasks : List SendTask) :
    Phase → Prop
  | .turning _ | .watching _ _ | .resting _ _ _ | .woken => True
  | .aiming final => Marked mark final ring.written
  | .draining target final => Marked mark final target
  | .closing final => Marked mark final ring.consumed
  | .encoding next => next.Sound ring mark
  | .submitting _ _ next => pending = [] ∧ next.Sound ring mark
  | .drained final => pending = [] ∧ Marked mark final ring.consumed
  | .finishing => pending = [] ∧ Marked mark true ring.consumed
  | .ended => pending = [] ∧ tasks = [] ∧ Marked mark true ring.consumed
  | .panicked => tasks = []
  | .aborted => False

structure Sound (traffic : Ring.Traffic) (journal : Journal) (loop : DrainLoop) : Prop where
  idle : traffic.consumer.isReturned = false → ∃ target final, loop.phase = .draining target final
  drained : journal.batches.flatten ++ loop.pending = traffic.handed.flatten
  encoded : journal.encoded.map Prod.snd = journal.submitted ++ loop.phase.underWay
  count : loop.submitted = journal.submitted.length
  opened : loop.closed = false
  /-- The tasks that a panic took are those of the moment before. -/
  sends : ∃ tasks, Sends journal tasks ∧ (loop.phase ≠ .panicked → loop.tasks = tasks)
  phase : loop.phase.Sound traffic.ring journal.stopMark loop.pending loop.tasks

variable {traffic traffic' : Ring.Traffic} {journal : Journal} {loop : DrainLoop}
    {ring ring' : Ring}
  {phase : Phase} {next : Next} {pending : List Entry} {tasks : List SendTask} {final : Bool}
  {mark : Option Nat}

theorem Marked.mono {bound bound' : Nat} (h : Marked mark final bound) (hle : bound ≤ bound') :
    Marked mark final bound' := by
  intro hfinal
  obtain ⟨position, hmark, hbound⟩ := h hfinal
  exact ⟨position, hmark, hbound.trans hle⟩

theorem Next.Sound.mono (h : next.Sound ring mark) (hle : ring.consumed ≤ ring'.consumed) :
    next.Sound ring' mark := by
  cases next with
  | draining target final => exact h
  | drained final => exact Marked.mono h hle

theorem Phase.Sound.mono (h : phase.Sound ring mark pending tasks)
    (hwritten : ring.written ≤ ring'.written) (hconsumed : ring.consumed ≤ ring'.consumed) :
    phase.Sound ring' mark pending tasks := by
  cases phase with
  | aiming final => exact Marked.mono h hwritten
  | closing final => exact Marked.mono h hconsumed
  | encoding next => exact Next.Sound.mono h hconsumed
  | submitting payload entries next => exact ⟨h.1, h.2.mono hconsumed⟩
  | drained final => exact ⟨h.1, h.2.mono hconsumed⟩
  | finishing => exact ⟨h.1, h.2.mono hconsumed⟩
  | ended => exact ⟨h.1, h.2.1, h.2.2.mono hconsumed⟩
  | _ => exact h

theorem Sound.isReturned (h : loop.Sound traffic journal)
    (hphase : ∀ target final, loop.phase ≠ .draining target final) :
    traffic.consumer.isReturned = true := by
  by_contra hbusy
  obtain ⟨target, final, hdraining⟩ := h.idle (Bool.eq_false_iff.2 hbusy)
  exact hphase target final hdraining

theorem Sound.sends_tasks (h : loop.Sound traffic journal) (hphase : loop.phase ≠ .panicked) :
    Sends journal loop.tasks := by
  obtain ⟨tasks, hsends, heq⟩ := h.sends
  rwa [heq hphase]

theorem Sound.frame (h : loop.Sound traffic journal)
    (hconsumer : traffic'.consumer = traffic.consumer)
    (hhanded : traffic'.handed = traffic.handed)
    (hwritten : traffic.ring.written ≤ traffic'.ring.written)
    (hconsumed : traffic.ring.consumed ≤ traffic'.ring.consumed) : loop.Sound traffic' journal :=
  ⟨hconsumer.symm ▸ h.idle, hhanded.symm ▸ h.drained, h.encoded, h.count, h.opened, h.sends,
    h.phase.mono hwritten hconsumed⟩

theorem Sound.enter (h : loop.Sound traffic journal) (hidle : traffic.consumer.isReturned = true)
    (hruns : loop.phase ≠ .panicked) (hbefore : loop.phase.underWay = [])
    (hafter : phase.underWay = [])
    (hphase : phase.Sound traffic.ring journal.stopMark loop.pending loop.tasks) :
    Sound traffic journal { loop with phase := phase } := by
  refine ⟨fun hbusy => ?_, h.drained, ?_, h.count, h.opened,
    ⟨_, h.sends_tasks hruns, fun _ => rfl⟩, hphase⟩
  · rw [hidle] at hbusy
    cases hbusy
  · show _ = _ ++ phase.underWay
    rw [hafter, ← hbefore]
    exact h.encoded

theorem Sound.reaped (h : loop.Sound traffic journal) (hruns : loop.phase ≠ .panicked) :
    loop.reaped.Sound traffic journal := by
  refine ⟨h.idle, h.drained, h.encoded, h.count, h.opened,
    ⟨_, (h.sends_tasks hruns).reaped, fun _ => rfl⟩, ?_⟩
  have hphase := h.phase
  simp only [DrainLoop.reaped]
  cases hcase : loop.phase with
  | ended =>
    rw [hcase] at hphase
    obtain ⟨hpending, htasks, hmark⟩ := hphase
    exact ⟨hpending, by rw [htasks]; rfl, hmark⟩
  | panicked => exact absurd hcase hruns
  | _ =>
    rw [hcase] at hphase
    exact hphase

/-! ## Steps that are no consume -/

variable {stream stream' : MetricStream} {journal' : Journal} {loop' : DrainLoop} {payload : Bytes}
  {entries now : Nat}

inductive Passes (stream : MetricStream) (now : Nat) (pending : List Entry) : Phase → Phase → Prop
  | stopped (lastFlush : Nat) : stream.reporter.stopRequested = true →
      Passes stream now pending (.turning lastFlush) (.aiming true)
  | watched (lastFlush : Nat) : stream.reporter.stopRequested = false →
      Passes stream now pending (.turning lastFlush) (.watching lastFlush 0)
  | rested (since idle wakeAt : Nat) :
      Passes stream now pending (.resting since idle wakeAt) (.watching since (idle + 1))
  | woken : Passes stream now pending .woken (.aiming stream.reporter.stopRequested)
  | aimed (final : Bool) :
      Passes stream now pending (.aiming final) (.draining stream.buffer.ring.written final)
  | reached (target : Nat) (final : Bool) : target ≤ stream.buffer.ring.consumed →
      Passes stream now pending (.draining target final) (.closing final)
  | emptied (final : Bool) : pending = [] →
      Passes stream now pending (.closing final) (.drained final)
  | leftover (final : Bool) : pending ≠ [] →
      Passes stream now pending (.closing final) (.encoding (.drained final))
  | turned : Passes stream now pending (.drained false) (.turning now)
  | stopping : Passes stream now pending (.drained true) .finishing

/-- What a step of the loop can do, and what is noted of it. -/
inductive Stepped (stream : MetricStream) (now : Nat) (journal : Journal) (loop : DrainLoop) :
    MetricStream → Journal → DrainLoop → Prop
  | pass (phase : Phase) : Passes stream now loop.pending loop.phase phase →
      Stepped stream now journal loop stream journal { loop with phase := phase }
  | wake (since idle : Nat) : loop.phase = .watching since idle →
      stream.waitIsOver now since = true →
      Stepped stream now journal loop
        { stream with telemetry :=
            stream.telemetry.depth stream.reporter.metricType stream.buffer.ring.outstanding }
        journal { loop.reaped with phase := .woken }
  | rest (since idle : Nat) : loop.phase = .watching since idle →
      stream.waitIsOver now since = false →
      Stepped stream now journal loop stream journal { loop.reaped with
        phase := .resting since idle
          (now + DrainLoop.rest idle (stream.settings.maxSpinning - (now - since))) }
  | encode (payload : Bytes) (next : Next) : loop.phase = .encoding next →
      stream.reporter.writer.encode? stream.buffer.tags loop.pending = some payload →
      Stepped stream now journal loop stream
        { journal with encoded := journal.encoded ++ [(loop.pending, payload)] }
        { loop.reaped with pending := [], phase := .submitting payload loop.pending.length next }
  | panic (next : Next) : loop.phase = .encoding next →
      stream.reporter.writer.encode? stream.buffer.tags loop.pending = none →
      Stepped stream now journal loop stream journal (loop.torn .panicked)
  | refuse (payload : Bytes) (entries : Nat) (next : Next) :
      loop.phase = .submitting payload entries next → loop.closed = true →
      Stepped stream now journal loop stream journal { loop with phase := next.phase }
  | submit (payload : Bytes) (entries : Nat) (next : Next) :
      loop.phase = .submitting payload entries next → loop.closed = false → 0 < loop.permits →
      Stepped stream now journal loop stream
        { journal with submitted := journal.submitted ++ [payload] }
        { loop with
          phase := next.phase
          permits := loop.permits - 1
          submitted := loop.submitted + 1
          tasks := loop.tasks ++ [⟨loop.submitted, payload, entries, .spawned⟩] }
  | finish : loop.phase = .finishing → loop.allEnded = true →
      Stepped stream now journal loop stream journal { loop.reaped with phase := .ended }
  | stay : stream.loopReady now loop = false → Stepped stream now journal loop stream journal loop

theorem loopStep_stepped (journal : Journal) (now : Nat)
    (hdrained : ∀ target final, loop.phase = .draining target final →
      target ≤ stream.buffer.ring.consumed) :
    Stepped stream now journal loop (stream.loopStep now loop).1
      (journal.noted loop (stream.loopStep now loop).2) (stream.loopStep now loop).2 := by
  have hpass : ∀ {phase phase' : Phase}, loop.phase = phase →
      Passes stream now loop.pending phase phase' →
      Stepped stream now journal loop stream journal { loop with phase := phase' } :=
    fun hcase hpasses => .pass _ (hcase ▸ hpasses)
  have hstay : ∀ {phase : Phase}, loop.phase = phase →
      stream.loopReady now { loop with phase := phase } = false →
      Stepped stream now journal loop stream journal loop := by
    intro phase hcase hready
    refine .stay ?_
    rw [← hready, ← hcase]
  cases hcase : loop.phase with
  | turning lastFlush =>
    cases hstop : stream.reporter.stopRequested with
    | true =>
      simp only [MetricStream.loopStep, Journal.noted, hcase, hstop, if_true]
      exact hpass hcase (.stopped lastFlush hstop)
    | false =>
      simp only [MetricStream.loopStep, Journal.noted, hcase, hstop, Bool.false_eq_true, if_false]
      exact hpass hcase (.watched lastFlush hstop)
  | watching since idle =>
    cases hover : stream.waitIsOver now since with
    | true =>
      simp only [MetricStream.loopStep, Journal.noted, hcase, hover, if_true]
      exact .wake since idle hcase hover
    | false =>
      simp only [MetricStream.loopStep, Journal.noted, hcase, hover, Bool.false_eq_true, if_false]
      exact .rest since idle hcase hover
  | resting since idle wakeAt =>
    simp only [MetricStream.loopStep, Journal.noted, hcase]
    exact hpass hcase (.rested since idle wakeAt)
  | woken =>
    simp only [MetricStream.loopStep, Journal.noted, hcase]
    exact hpass hcase .woken
  | aiming final =>
    simp only [MetricStream.loopStep, Journal.noted, hcase]
    exact hpass hcase (.aimed final)
  | draining target final =>
    have hle := hdrained target final hcase
    simp only [MetricStream.loopStep, Journal.noted, hcase, if_neg (Nat.not_lt.2 hle)]
    exact hpass hcase (.reached target final hle)
  | closing final =>
    cases hpending : loop.pending.isEmpty with
    | true =>
      simp only [MetricStream.loopStep, Journal.noted, hcase, hpending, if_true]
      exact hpass hcase (.emptied final (List.isEmpty_iff.1 hpending))
    | false =>
      simp only [MetricStream.loopStep, Journal.noted, hcase, hpending, Bool.false_eq_true,
        if_false]
      exact hpass hcase (.leftover final (List.isEmpty_eq_false_iff.1 hpending))
  | encoding next =>
    cases hpayload : stream.reporter.writer.encode? stream.buffer.tags loop.pending with
    | none =>
      simp only [MetricStream.loopStep, Journal.noted, hcase, hpayload]
      exact .panic next hcase hpayload
    | some payload =>
      simp only [MetricStream.loopStep, Journal.noted, hcase, hpayload]
      exact .encode payload next hcase hpayload
  | submitting payload entries next =>
    cases hclosed : loop.closed with
    | true =>
      have hrefuse : Stepped stream now journal loop stream _ _ :=
        .refuse payload entries next hcase hclosed
      simp only [MetricStream.loopStep, hcase, hclosed, if_true]
      cases next <;> simpa only [Journal.noted, Next.phase, hcase, hclosed, if_true] using hrefuse
    | false =>
      by_cases hpermit : loop.permits = 0
      · simp only [MetricStream.loopStep, Journal.noted, hcase, hclosed, Bool.false_eq_true,
          if_false, if_pos hpermit]
        exact hstay hcase (by simp [MetricStream.loopReady, hpermit, hclosed])
      · have hsubmit : Stepped stream now journal loop stream _ _ :=
          .submit payload entries next hcase hclosed (Nat.pos_of_ne_zero hpermit)
        simp only [MetricStream.loopStep, hcase, hclosed, Bool.false_eq_true, if_false,
          if_neg hpermit]
        cases next <;> simpa only [Journal.noted, Next.phase, hcase, hclosed, Bool.false_eq_true,
          if_false] using hsubmit
  | drained final =>
    simp only [MetricStream.loopStep, Journal.noted, hcase]
    cases final with
    | true => exact hpass hcase .stopping
    | false => exact hpass hcase .turned
  | finishing =>
    cases hall : loop.allEnded with
    | true =>
      simp only [MetricStream.loopStep, Journal.noted, hcase, hall, if_true]
      exact .finish hcase hall
    | false =>
      simp only [MetricStream.loopStep, Journal.noted, hcase, hall, Bool.false_eq_true, if_false]
      exact hstay hcase hall
  | ended =>
    simp only [MetricStream.loopStep, Journal.noted, hcase]
    exact hstay hcase rfl
  | panicked =>
    simp only [MetricStream.loopStep, Journal.noted, hcase]
    exact hstay hcase rfl
  | aborted =>
    simp only [MetricStream.loopStep, Journal.noted, hcase]
    exact hstay hcase rfl

theorem Stepped.kept (hstep : Stepped stream now journal loop stream' journal' loop') :
    stream'.reporter = stream.reporter ∧ stream'.buffer = stream.buffer := by
  cases hstep <;> exact ⟨rfl, rfl⟩

theorem loopStep_kept (now : Nat) (hdrained : ∀ target final, loop.phase = .draining target final →
    target ≤ stream.buffer.ring.consumed) :
    (stream.loopStep now loop).1.reporter = stream.reporter ∧
      (stream.loopStep now loop).1.buffer = stream.buffer :=
  (loopStep_stepped {} now hdrained).kept

theorem Passes.underWay {phase' : Phase} (h : Passes stream now pending phase phase') :
    phase.underWay = [] ∧ phase'.underWay = [] := by
  cases h <;> exact ⟨rfl, rfl⟩

theorem Passes.ne_panicked {phase' : Phase} (h : Passes stream now pending phase phase') :
    phase ≠ .panicked ∧ phase' ≠ .panicked := by
  cases h <;> exact ⟨nofun, nofun⟩

theorem Passes.sound {phase' : Phase} (hpasses : Passes stream now pending phase phase')
    (h : phase.Sound stream.buffer.ring mark pending tasks)
    (hasked : Marked mark stream.reporter.stopRequested stream.buffer.ring.written) :
    phase'.Sound stream.buffer.ring mark pending tasks := by
  cases hpasses with
  | stopped lastFlush hstop => exact hstop ▸ hasked
  | woken => exact hasked
  | aimed final => exact h
  | reached target final hle => exact Marked.mono h hle
  | emptied final hempty => exact ⟨hempty, h⟩
  | leftover final hsome => exact h
  | stopping => exact h
  | _ => trivial

theorem Sound.encode (h : loop.Sound traffic journal) (hidle : traffic.consumer.isReturned = true)
    (hcase : loop.phase = .encoding next) (payload : Bytes) (entries : Nat) :
    Sound traffic { journal with encoded := journal.encoded ++ [(loop.pending, payload)] }
      { loop.reaped with pending := [], phase := .submitting payload entries next } := by
  have hphase := h.phase
  have hencoded := h.encoded
  have hsends := h.sends_tasks (by rw [hcase]; nofun)
  rw [hcase] at hphase hencoded
  refine ⟨fun hbusy => ?_, ?_, ?_, h.count, h.opened,
    ⟨_, hsends.reaped.frame rfl rfl rfl, fun _ => rfl⟩, rfl, hphase⟩
  · rw [hidle] at hbusy
    cases hbusy
  · rw [← h.drained]
    simp [Journal.batches]
  · simp [hencoded, Phase.underWay]

theorem Sound.panic (h : loop.Sound traffic journal) (hidle : traffic.consumer.isReturned = true)
    (hcase : loop.phase = .encoding next) : (loop.torn .panicked).Sound traffic journal := by
  have hencoded := h.encoded
  rw [hcase] at hencoded
  refine ⟨fun hbusy => ?_, h.drained, hencoded, h.count, h.opened,
    ⟨_, h.sends_tasks (by rw [hcase]; nofun), fun hruns => absurd rfl hruns⟩, rfl⟩
  rw [hidle] at hbusy
  cases hbusy

theorem Sound.submit (h : loop.Sound traffic journal) (hidle : traffic.consumer.isReturned = true)
    (hcase : loop.phase = .submitting payload entries next) :
    Sound traffic { journal with submitted := journal.submitted ++ [payload] }
      { loop with
        phase := next.phase
        permits := loop.permits - 1
        submitted := loop.submitted + 1
        tasks := loop.tasks ++ [⟨loop.submitted, payload, entries, .spawned⟩] } := by
  have hphase := h.phase
  have hencoded := h.encoded
  have hsends := h.sends_tasks (by rw [hcase]; nofun)
  rw [hcase] at hphase hencoded
  obtain ⟨hpending, hnext⟩ := hphase
  refine ⟨fun hbusy => ?_, h.drained, ?_, ?_, h.opened, ⟨_, ?_, fun _ => rfl⟩, ?_⟩
  · rw [hidle] at hbusy
    cases hbusy
  · show _ = (journal.submitted ++ [payload]) ++ next.phase.underWay
    rw [hencoded]
    cases next <;> simp [Phase.underWay, Next.phase]
  · simp [h.count]
  · rw [h.count]
    exact hsends.spawn payload entries
  · cases next with
    | draining target final => exact hnext
    | drained final => exact ⟨hpending, hnext⟩

theorem Sound.finish (h : loop.Sound traffic journal) (hidle : traffic.consumer.isReturned = true)
    (hcase : loop.phase = .finishing) (hall : loop.allEnded = true) :
    Sound traffic journal { loop.reaped with phase := .ended } := by
  have hphase := h.phase
  rw [hcase] at hphase
  have hnone : loop.reaped.tasks = [] := by
    rw [DrainLoop.reaped, List.filter_eq_nil_iff]
    intro task hmem
    simpa using List.all_eq_true.1 hall task hmem
  have hruns : loop.phase ≠ .panicked := by
    rw [hcase]
    nofun
  refine (h.reaped hruns).enter hidle hruns ?_ rfl ⟨hphase.1, hnone, hphase.2⟩
  show loop.phase.underWay = []
  rw [hcase]
  rfl

theorem Sound.step (h : loop.Sound traffic journal) (hidle : traffic.consumer.isReturned = true)
    (hring : stream.buffer.ring = traffic.ring)
    (hasked : Marked journal.stopMark stream.reporter.stopRequested traffic.ring.written)
    (hstep : Stepped stream now journal loop stream' journal' loop') :
    loop'.Sound traffic journal' := by
  have hlook : ∀ {phase : Phase} {since idle : Nat}, loop.phase = .watching since idle →
      phase.underWay = [] →
      phase.Sound traffic.ring journal.stopMark loop.pending loop.reaped.tasks →
      Sound traffic journal { loop.reaped with phase := phase } := by
    intro phase since idle hcase hafter hphase
    have hruns : loop.phase ≠ .panicked := by
      rw [hcase]
      nofun
    refine (h.reaped hruns).enter hidle hruns ?_ hafter hphase
    show loop.phase.underWay = []
    rw [hcase]
    rfl
  cases hstep with
  | pass phase hpasses =>
    obtain ⟨hbefore, hafter⟩ := hpasses.underWay
    have hphase := h.phase
    rw [← hring] at hphase hasked
    refine h.enter hidle hpasses.ne_panicked.1 hbefore hafter ?_
    rw [← hring]
    exact hpasses.sound hphase hasked
  | wake since idle hcase hover => exact hlook hcase rfl trivial
  | rest since idle hcase hwaits => exact hlook hcase rfl trivial
  | encode payload next hcase hpayload => exact h.encode hidle hcase payload loop.pending.length
  | panic next hcase hnone => exact h.panic hidle hcase
  | refuse payload entries next hcase hclosed =>
    rw [h.opened] at hclosed
    cases hclosed
  | submit payload entries next hcase hopen hpermit => exact h.submit hidle hcase
  | finish hcase hall => exact h.finish hidle hcase hall
  | stay hready => exact h

theorem Stepped.stopMark_eq (hstep : Stepped stream now journal loop stream' journal' loop') :
    journal'.stopMark = journal.stopMark := by
  cases hstep <;> rfl

theorem Stepped.encoded_eq (hstep : Stepped stream now journal loop stream' journal' loop')
    (hphase : ∀ next, loop.phase ≠ .encoding next) : journal'.encoded = journal.encoded := by
  cases hstep with
  | encode payload next hcase hpayload => exact absurd hcase (hphase next)
  | _ => rfl

/-- The batch becomes a payload, or the writer panics and the loop with it. -/
theorem Stepped.exists_payload (hstep : Stepped stream now journal loop stream' journal' loop')
    (hcase : loop.phase = .encoding next) :
    (∃ payload, journal'.encoded = journal.encoded ++ [(loop.pending, payload)] ∧
      loop'.phase ≠ .panicked) ∨
      journal'.encoded = journal.encoded ∧ loop'.phase = .panicked := by
  cases hstep with
  | encode payload next hcase hpayload => exact .inl ⟨payload, rfl, nofun⟩
  | panic next hcase hnone => exact .inr ⟨rfl, rfl⟩
  | pass phase hpasses =>
    rw [hcase] at hpasses
    cases hpasses
  | stay hready =>
    rw [MetricStream.loopReady, hcase] at hready
    cases hready
  | wake since idle hother | rest since idle hother | refuse payload entries next hother
  | submit payload entries next hother | finish hother =>
    rw [hcase] at hother
    cases hother

theorem Stepped.ne_panicked (hstep : Stepped stream now journal loop stream' journal' loop')
    (hruns : loop'.phase ≠ .panicked) : loop.phase ≠ .panicked := by
  cases hstep with
  | pass phase hpasses => exact hpasses.ne_panicked.1
  | stay hready => exact hruns
  | wake since idle hcase | rest since idle hcase | encode payload next hcase | panic next hcase
  | refuse payload entries next hcase | submit payload entries next hcase | finish hcase =>
    rw [hcase]
    nofun

theorem Stepped.panicked (hstep : Stepped stream now journal loop stream' journal' loop')
    (hpanicked : loop'.phase = .panicked) : loop'.pending = loop.pending ∧
      (loop.phase = .panicked ∨
        stream.reporter.writer.encode? stream.buffer.tags loop.pending = none) := by
  cases hstep with
  | pass phase hpasses => exact absurd hpanicked hpasses.ne_panicked.2
  | panic next hcase hnone => exact ⟨rfl, .inr hnone⟩
  | refuse payload entries next hcase hclosed => cases next <;> cases hpanicked
  | submit payload entries next hcase hopen hpermit => cases next <;> cases hpanicked
  | stay hready => exact ⟨rfl, .inl hpanicked⟩
  | wake since idle hcase hover => cases hpanicked
  | rest since idle hcase hwaits => cases hpanicked
  | encode payload next hcase hpayload => cases hpanicked
  | finish hcase hall => cases hpanicked

theorem Stepped.mem_encoded {item : List Entry × Bytes}
    (hstep : Stepped stream now journal loop stream' journal' loop')
    (hmem : item ∈ journal'.encoded) :
    item ∈ journal.encoded ∨ item.1 = loop.pending ∧
      stream.reporter.writer.encode? stream.buffer.tags item.1 = some item.2 := by
  cases hstep with
  | encode payload next hcase hpayload =>
    rcases List.mem_append.1 hmem with hold | hnew
    · exact Or.inl hold
    · rw [List.mem_singleton.1 hnew]
      exact Or.inr ⟨rfl, hpayload⟩
  | _ => exact Or.inl hmem

/-! ## Steps of the consume -/

variable {target : Nat}

theorem Sound.begin (h : loop.Sound traffic journal) (hcase : loop.phase = .draining target final)
    (most : Nat) : loop.Sound (traffic.act (.consume most)) journal := by
  simp only [Ring.Traffic.act]
  split
  · exact ⟨fun _ => ⟨target, final, hcase⟩, h.drained, h.encoded, h.count, h.opened, h.sends,
      h.phase⟩
  · exact h

theorem Sound.proceed (h : loop.Sound traffic journal)
    (hcase : loop.phase = .draining target final) :
    Sound (traffic.proceed []) journal { loop with
      pending := loop.pending ++ (Ring.Consume.held traffic.ring traffic.consumer).getD [] } := by
  have hphase := h.phase
  rw [hcase] at hphase
  refine ⟨fun _ => ⟨target, final, hcase⟩, ?_, h.encoded, h.count, h.opened, h.sends, ?_⟩
  · show _ ++ (_ ++ _) = (traffic.handed ++ _).flatten
    rw [List.flatten_append, ← h.drained, List.append_assoc]
    cases Ring.Consume.held traffic.ring traffic.consumer <;> simp
  · show Phase.Sound _ _ _ _ loop.phase
    rw [hcase]
    exact hphase

theorem Sound.afterConsume (h : loop.Sound traffic journal)
    (hidle : traffic.consumer.isReturned = true) (hcase : loop.phase = .draining target final)
    (count : Nat) :
    Sound traffic journal (stream.afterConsume loop target final count).2 := by
  have hphase := h.phase
  rw [hcase] at hphase
  have hruns : loop.phase ≠ .panicked := by
    rw [hcase]
    nofun
  have hquiet : loop.phase.underWay = [] := by
    rw [hcase]
    rfl
  unfold MetricStream.afterConsume
  split
  · cases final with
    | true => exact h
    | false => exact h.enter hidle hruns hquiet rfl fun hfinal => nomatch hfinal
  · dsimp only
    split
    · exact h.enter hidle hruns hquiet rfl hphase
    · exact h.enter hidle hruns hquiet rfl hphase

theorem afterConsume_reporter (stream : MetricStream) (loop : DrainLoop) (target : Nat)
    (final : Bool) (count : Nat) : ∃ metrics,
      (stream.afterConsume loop target final count).1.reporter =
        { stream.reporter with metrics := metrics } := by
  unfold MetricStream.afterConsume
  split
  · exact ⟨stream.reporter.metrics, rfl⟩
  · exact ⟨stream.reporter.metrics.addFlushed count, rfl⟩

theorem afterConsume_ne_panicked (hruns : loop.phase ≠ .panicked) (stream : MetricStream)
    (target : Nat) (final : Bool) (count : Nat) :
    (stream.afterConsume loop target final count).2.phase ≠ .panicked := by
  unfold MetricStream.afterConsume
  split
  · cases final with
    | true => exact hruns
    | false => nofun
  · dsimp only
    split <;> nofun

/-! ## Steps of the tasks -/

theorem heard_stopMark (journal : Journal) (task : SendTask) (answer : Option SendOutcome) :
    (journal.heard task answer).stopMark = journal.stopMark := by
  unfold Journal.heard
  split <;> rfl

theorem heard_encoded (journal : Journal) (task : SendTask) (answer : Option SendOutcome) :
    (journal.heard task answer).encoded = journal.encoded := by
  unfold Journal.heard
  split <;> rfl

theorem heard_submitted (journal : Journal) (task : SendTask) (answer : Option SendOutcome) :
    (journal.heard task answer).submitted = journal.submitted := by
  unfold Journal.heard
  split <;> rfl

theorem Sound.send (h : loop.Sound traffic journal) {place : Nat} {task : SendTask}
    (hplace : loop.tasks[place]? = some task) (metricType : String) (answer : Option SendOutcome)
    (metrics : ReporterMetrics) (telemetry : Telemetry) (freed : Nat) :
    Sound traffic (journal.heard task answer) { loop with
      tasks := loop.tasks.set place
        (SendTask.Moment.step metricType answer ⟨task, metrics, telemetry⟩).task
      permits := loop.permits + freed } := by
  have hruns : loop.phase ≠ .panicked := by
    intro hcase
    have hphase := h.phase
    rw [hcase] at hphase
    rw [show loop.tasks = [] from hphase] at hplace
    cases hplace
  refine ⟨h.idle, ?_, ?_, ?_, h.opened,
    ⟨_, (h.sends_tasks hruns).step hplace metricType answer metrics telemetry, fun _ => rfl⟩, ?_⟩
  · rw [Journal.batches, heard_encoded]
    exact h.drained
  · rw [heard_encoded, heard_submitted]
    exact h.encoded
  · rw [heard_submitted]
    exact h.count
  · rw [heard_stopMark]
    have hphase := h.phase
    show Phase.Sound _ _ _ _ loop.phase
    cases hcase : loop.phase with
    | ended =>
      rw [hcase] at hphase
      rw [hphase.2.1] at hplace
      cases hplace
    | panicked => exact absurd hcase hruns
    | _ =>
      rw [hcase] at hphase
      exact hphase

/-! ## The request to stop -/

theorem Marked.ask {bound bound' : Nat} (h : Marked none final bound) :
    Marked mark final bound' := by
  intro hfinal
  obtain ⟨position, hnone, -⟩ := h hfinal
  cases hnone

theorem Next.Sound.ask (h : next.Sound ring none) : next.Sound ring mark := by
  cases next with
  | draining target final => exact Marked.ask h
  | drained final => exact Marked.ask h

theorem Phase.Sound.ask (h : phase.Sound ring none pending tasks) :
    phase.Sound ring mark pending tasks := by
  cases phase with
  | aiming final => exact Marked.ask h
  | draining target final => exact Marked.ask h
  | closing final => exact Marked.ask h
  | encoding next => exact Next.Sound.ask h
  | submitting payload entries next => exact ⟨h.1, h.2.ask⟩
  | drained final => exact ⟨h.1, h.2.ask⟩
  | finishing => exact ⟨h.1, h.2.ask⟩
  | ended => exact ⟨h.1, h.2.1, h.2.2.ask⟩
  | _ => exact h

theorem Sound.ask (h : loop.Sound traffic journal) (hnone : journal.stopMark = none)
    (mark : Option Nat) : loop.Sound traffic { journal with stopMark := mark } := by
  have hphase := h.phase
  rw [hnone] at hphase
  obtain ⟨tasks, hsends, heq⟩ := h.sends
  exact ⟨h.idle, h.drained, h.encoded, h.count, h.opened, ⟨tasks, hsends.frame rfl rfl rfl, heq⟩,
    hphase.ask⟩

end DrainLoop

end MetricReporting
