import MetricReporting.Proofs.Reporter.Batching

/-!
# What an act can do

The moves of the loop, said once, and what the acts of the loop, of the sends and of the owner leave
alone: the write calls, their claims, the tag table and the payload writer. Only a step of the loop
encodes, and what it encodes is the batch at hand. What a step does not read of its reporter may be
anything.
-/
namespace MetricReporting

theorem ReporterMetrics.addFlushed_zero (metrics : ReporterMetrics) :
    metrics.addFlushed 0 = metrics := by
  simp [addFlushed]

namespace DrainLoop

variable {loop : DrainLoop} {target : Nat} {final : Bool}

def Phase.isDraining : Phase → Bool
  | .draining _ _ | .closing _ | .encoding _ => true
  | _ => false

theorem underWay_of_isDraining {phase : Phase} (h : phase.isDraining = true) :
    phase.underWay = [] := by
  cases phase with
  | submitting payload entries next => cases h
  | _ => rfl

/-- Where an access of a consume leaves the loop: nothing changes before the consume has
returned. -/
def Phase.onward (limit size target : Nat) (final : Bool) : Ring.Consume → Phase
  | .returned 0 => if final then .draining target final else .closing final
  | .returned (_ + 1) =>
      if limit ≤ size then .encoding (.draining target final) else .draining target final
  | _ => .draining target final

theorem Phase.onward_isDraining (limit size target : Nat) (final : Bool) (consumer : Ring.Consume) :
    (Phase.onward limit size target final consumer).isDraining = true := by
  unfold Phase.onward
  split
  · split <;> rfl
  · split <;> rfl
  · rfl

theorem afterConsume_eq (stream : MetricStream) (hcase : loop.phase = .draining target final)
    (count : Nat) : stream.afterConsume loop target final count =
      ({ stream with reporter :=
          { stream.reporter with metrics := stream.reporter.metrics.addFlushed count } },
        { loop with
          phase := Phase.onward stream.settings.maxFlushSize loop.pending.length target final
            (.returned count) }) := by
  unfold MetricStream.afterConsume
  cases count with
  | zero =>
    rw [ReporterMetrics.addFlushed_zero]
    cases final with
    | true =>
      have hphase : Phase.onward stream.settings.maxFlushSize loop.pending.length target true
          (.returned 0) = loop.phase := hcase.symm
      rw [hphase]
      rfl
    | false => rfl
  | succ count => rfl

end DrainLoop

namespace MetricStream

/-- A change to a reporter that leaves alone what its loop reads and writes at every step. -/
structure Unread (f : Reporter → Reporter) : Prop where
  metricType : ∀ reporter, (f reporter).metricType = reporter.metricType
  settings : ∀ reporter, (f reporter).settings = reporter.settings
  metrics : ∀ reporter, (f reporter).metrics = reporter.metrics
  counted : ∀ reporter metrics,
    f { reporter with metrics := metrics } = { f reporter with metrics := metrics }

def changed (f : Reporter → Reporter) (stream : MetricStream) : MetricStream :=
  { stream with reporter := f stream.reporter }

variable {f : Reporter → Reporter} {stream : MetricStream} {loop : DrainLoop}

theorem Unread.afterConsume (hf : Unread f) (stream : MetricStream) (loop : DrainLoop)
    (target : Nat) (final : Bool) (count : Nat) :
    (stream.changed f).afterConsume loop target final count =
      ((stream.afterConsume loop target final count).1.changed f,
        (stream.afterConsume loop target final count).2) := by
  have hsettings : (stream.changed f).settings = stream.settings := hf.settings _
  have hmetrics : (stream.changed f).reporter.metrics = stream.reporter.metrics := hf.metrics _
  simp only [MetricStream.afterConsume, hsettings, hmetrics]
  split
  · rfl
  · have hcounted := hf.counted stream.reporter (stream.reporter.metrics.addFlushed count)
    simp only [changed]
    rw [hcounted]

/-- A step of the loop goes on alike under such a change if the stop is asked for alike, and a batch
that is encoded is encoded alike. -/
theorem Unread.loopStep (hf : Unread f) {now : Nat}
    (hasked : (f stream.reporter).stopRequested = stream.reporter.stopRequested)
    (hwriter : ∀ next, loop.phase = .encoding next →
      (f stream.reporter).writer.encode? stream.buffer.tags loop.pending =
        stream.reporter.writer.encode? stream.buffer.tags loop.pending) :
    (stream.changed f).loopStep now loop =
      ((stream.loopStep now loop).1.changed f, (stream.loopStep now loop).2) := by
  have hbuffer : (stream.changed f).buffer = stream.buffer := rfl
  have hreporter : (stream.changed f).reporter = f stream.reporter := rfl
  have hsettings : (stream.changed f).settings = stream.settings := hf.settings _
  cases hcase : loop.phase with
  | turning lastFlush =>
    simp only [MetricStream.loopStep, hcase, hreporter, hasked]
    split <;> rfl
  | watching since idle =>
    have hover : (stream.changed f).waitIsOver now since = stream.waitIsOver now since := by
      simp only [waitIsOver, hsettings, hbuffer, hreporter, hasked]
    have hlabel : (f stream.reporter).metricType = stream.reporter.metricType := hf.metricType _
    simp only [MetricStream.loopStep, hcase, hover, hsettings, hbuffer, hreporter, hlabel]
    split <;> rfl
  | woken => simp only [MetricStream.loopStep, hcase, hreporter, hasked]
  | draining target final =>
    have hroom : (stream.changed f).room loop = stream.room loop := by
      rw [room, hsettings, room]
    have hdrain : (stream.changed f).drainStep loop target final =
        ((stream.drainStep loop target final).1.changed f,
          (stream.drainStep loop target final).2) := by
      simp only [drainStep, hroom, hbuffer]
      exact hf.afterConsume { stream with buffer := (stream.buffer.drain (stream.room loop)).2 } _
        target final _
    simp only [MetricStream.loopStep, hcase, hdrain, hbuffer]
    split <;> rfl
  | encoding next =>
    simp only [MetricStream.loopStep, hcase, hbuffer, hreporter, hwriter next hcase]
    split <;> rfl
  | submitting payload entries next =>
    simp only [MetricStream.loopStep, hcase]
    split
    · rfl
    · split <;> rfl
  | _ => simp only [MetricStream.loopStep, hcase, hbuffer]

end MetricStream
namespace Drainage

def chunk (d : Drainage) : List Entry :=
  (Ring.Consume.held d.traffic.ring d.traffic.consumer).getD []

theorem consume_onward (d : Drainage) {loop : DrainLoop} {target : Nat} {final : Bool}
    (hcase : loop.phase = .draining target final) :
    d.consume loop target final = { d with
      traffic := d.traffic.proceed []
      reporter := { d.reporter with
        metrics := d.reporter.metrics.addFlushed (d.traffic.proceed []).consumer.count
        loop := some { loop with
          phase := DrainLoop.Phase.onward d.reporter.settings.maxFlushSize
            (loop.pending ++ d.chunk).length target final (d.traffic.proceed []).consumer
          pending := loop.pending ++ d.chunk } } } := by
  unfold Drainage.consume
  dsimp only
  cases hconsumer : (d.traffic.proceed []).consumer with
  | returned count =>
    let filled : DrainLoop := { loop with pending := loop.pending ++ d.chunk }
    have hfilled : filled.phase = .draining target final := hcase
    have hresult := DrainLoop.afterConsume_eq
      (stream { d with traffic := d.traffic.proceed [] }) hfilled count
    exact congrArg (put { d with traffic := d.traffic.proceed [] }) hresult
  | _ =>
    simp only [Ring.Consume.count, ReporterMetrics.addFlushed_zero, DrainLoop.Phase.onward, ← hcase]
    rfl

theorem consume_eq (d : Drainage) {loop : DrainLoop} {target : Nat} {final : Bool}
    (hcase : loop.phase = .draining target final) :
    ∃ phase : DrainLoop.Phase, phase.isDraining = true ∧
      d.consume loop target final = { d with
        traffic := d.traffic.proceed []
        reporter := { d.reporter with
          metrics := d.reporter.metrics.addFlushed (d.traffic.proceed []).consumer.count
          loop := some { loop with phase := phase, pending := loop.pending ++ d.chunk } } } :=
  ⟨_, DrainLoop.Phase.onward_isDraining _ _ target final _, consume_onward d hcase⟩

/-- The moves of the loop: a step, the beginning of a consume, or an access of one. -/
inductive LoopMove (d : Drainage) (now : Nat) : Drainage → Prop
  | asleep : d.reporter.loop = none → LoopMove d now d
  | step (loop : DrainLoop) : d.reporter.loop = some loop →
      (∀ target final, loop.phase = .draining target final →
        d.traffic.consumer.isReturned = true ∧ target ≤ d.traffic.ring.consumed) →
      LoopMove d now (d.step now loop)
  | begin (loop : DrainLoop) (target : Nat) (final : Bool) : d.reporter.loop = some loop →
      loop.phase = .draining target final → d.traffic.consumer.isReturned = true →
      d.traffic.ring.consumed < target →
      LoopMove d now { d with traffic := d.traffic.act (.consume (d.stream.room loop)) }
  | consume (loop : DrainLoop) (target : Nat) (final : Bool) : d.reporter.loop = some loop →
      loop.phase = .draining target final → d.traffic.consumer.isReturned = false →
      LoopMove d now (d.consume loop target final)

variable {d d' : Drainage}

theorem loop_eq {loop : DrainLoop} (hloop : d.reporter.loop = some loop) : d.loop = loop := by
  rw [Drainage.loop, hloop, Option.getD_some]

theorem loopMove (d : Drainage) (now : Nat) : LoopMove d now (d.loopAct now) := by
  unfold Drainage.loopAct
  cases hloop : d.reporter.loop with
  | none => exact .asleep hloop
  | some loop =>
    cases hcase : loop.phase with
    | draining target final =>
      simp only [hcase]
      split
      · rename_i hbusy
        exact .consume loop target final hloop hcase (by simpa using hbusy)
      · rename_i hidle
        split
        · rename_i hmore
          exact .begin loop target final hloop hcase (by simpa using hidle) hmore
        · rename_i hdone
          refine .step loop hloop fun target' final' hsame => ?_
          rw [hcase] at hsame
          cases hsame
          exact ⟨by simpa using hidle, Nat.not_lt.1 hdone⟩
    | _ =>
      simp only [hcase]
      refine .step loop hloop fun target final hsame => ?_
      rw [hcase] at hsame
      cases hsame

theorem step_stepped {now : Nat} {loop : DrainLoop}
    (hdrained : ∀ target final, loop.phase = .draining target final →
      d.traffic.consumer.isReturned = true ∧ target ≤ d.traffic.ring.consumed) :
    loop.Stepped d.stream now d.journal (d.stream.loopStep now loop).1 (d.step now loop).journal
      (d.stream.loopStep now loop).2 :=
  DrainLoop.loopStep_stepped d.journal now fun target final hcase => (hdrained target final hcase).2

structure SameWriters (d d' : Drainage) : Prop where
  tags : d'.tags = d.tags
  calls : d'.traffic.calls = d.traffic.calls
  claims : d'.traffic.claims = d.traffic.claims
  origin : d'.traffic.origin = d.traffic.origin
  writer : d'.reporter.writer = d.reporter.writer

theorem SameWriters.refl (d : Drainage) : SameWriters d d :=
  ⟨rfl, rfl, rfl, rfl, rfl⟩

theorem step_sameWriters {now : Nat} {loop : DrainLoop}
    (hdrained : ∀ target final, loop.phase = .draining target final →
      d.traffic.consumer.isReturned = true ∧ target ≤ d.traffic.ring.consumed) :
    SameWriters d (d.step now loop) := by
  have hreporter : (d.stream.loopStep now loop).1.reporter = d.reporter :=
    (step_stepped hdrained).kept.1
  have hwriter := congrArg Reporter.writer hreporter
  exact ⟨rfl, rfl, rfl, rfl, hwriter⟩

theorem LoopMove.sameWriters {now : Nat} (h : LoopMove d now d') : SameWriters d d' := by
  cases h with
  | asleep hnone => exact SameWriters.refl d
  | step loop hloop hdrained =>
    exact step_sameWriters hdrained
  | begin loop target final hloop hcase =>
    simp only [Ring.Traffic.act]
    split <;> exact ⟨rfl, rfl, rfl, rfl, rfl⟩
  | consume loop target final hloop hcase =>
    obtain ⟨phase, -, hconsume⟩ := consume_eq d hcase
    rw [hconsume]
    exact ⟨rfl, rfl, rfl, rfl, rfl⟩

theorem LoopMove.mem_encoded {now : Nat} (h : LoopMove d now d') {item : List Entry × Bytes}
    (hitem : item ∈ d'.journal.encoded) : item ∈ d.journal.encoded ∨
      item.1 = d.loop.pending ∧ d.reporter.writer.encode? d.tags item.1 = some item.2 := by
  cases h with
  | asleep hnone => exact Or.inl hitem
  | step loop hloop hdrained =>
    rw [loop_eq hloop]
    exact (step_stepped hdrained).mem_encoded hitem
  | begin loop target final hloop hcase => exact Or.inl hitem
  | consume loop target final hloop hcase =>
    obtain ⟨phase, -, hconsume⟩ := consume_eq d hcase
    rw [hconsume] at hitem
    exact Or.inl hitem

theorem start_eq_ok {reporter reporter' : Reporter} {now : Nat} {runtime : Bool}
    (h : reporter.start now runtime = .ok reporter') :
    reporter.started = false ∧ reporter' = { reporter with
      started := true
      attached := true
      loop := some { phase := .turning now, permits := reporter.settings.maxParallel } } := by
  unfold Reporter.start at h
  split at h
  · cases h
  · rename_i hnew
    split at h
    · cases h
    · cases h
      exact ⟨Bool.eq_false_iff.2 hnew, rfl⟩

def Act.isOther : Act → Bool
  | .write _ _ | .access _ _ | .retag _ | .drop => false
  | _ => true

theorem other_sameWriters {act : Act} (h : act.isOther = true) : SameWriters d (d.act act) := by
  cases act with
  | write value tag => cases h
  | access number spurious => cases h
  | retag tags => cases h
  | drop => cases h
  | tick clock => exact ⟨rfl, rfl, rfl, rfl, rfl⟩
  | start now runtime =>
    simp only [Drainage.act]
    cases hstart : d.reporter.start now runtime with
    | error error => exact SameWriters.refl d
    | ok reporter =>
      obtain ⟨-, rfl⟩ := start_eq_ok hstart
      exact ⟨rfl, rfl, rfl, rfl, rfl⟩
  | loop now => exact (loopMove d now).sameWriters
  | send place answer =>
    simp only [Drainage.act, Drainage.send]
    split
    · exact SameWriters.refl d
    · split
      · exact SameWriters.refl d
      · exact ⟨rfl, rfl, rfl, rfl, rfl⟩
  | stop =>
    simp only [Drainage.act, Drainage.stop, Reporter.requestStop]
    split <;> exact ⟨rfl, rfl, rfl, rfl, rfl⟩

theorem act_mem_encoded {act : Act} {item : List Entry × Bytes}
    (hitem : item ∈ (d.act act).journal.encoded) : item ∈ d.journal.encoded ∨
      item.1 = d.loop.pending ∧ d.reporter.writer.encode? d.tags item.1 = some item.2 := by
  cases act with
  | start now runtime =>
    simp only [Drainage.act] at hitem
    split at hitem <;> exact Or.inl hitem
  | loop now => exact (loopMove d now).mem_encoded hitem
  | send place answer =>
    simp only [Drainage.act, Drainage.send] at hitem
    split at hitem
    · exact Or.inl hitem
    · split at hitem
      · exact Or.inl hitem
      · rw [DrainLoop.heard_encoded] at hitem
        exact Or.inl hitem
  | _ => exact Or.inl hitem

theorem act_origin (d : Drainage) (act : Act) : (d.act act).traffic.origin = d.traffic.origin := by
  cases act with
  | write value tag => rfl
  | access number spurious => exact Ring.Traffic.act_origin _ _
  | retag tags => rfl
  | drop => rfl
  | _ => exact (other_sameWriters rfl).origin

theorem act_writer (d : Drainage) (act : Act) :
    (d.act act).reporter.writer = d.reporter.writer := by
  cases act with
  | write value tag => rfl
  | access number spurious => rfl
  | retag tags => rfl
  | drop => rfl
  | _ => exact (other_sameWriters rfl).writer

theorem run_origin (d : Drainage) (acts : List Act) :
    (d.run acts).traffic.origin = d.traffic.origin := by
  induction acts generalizing d with
  | nil => rfl
  | cons act acts ih => exact (ih (d.act act)).trans (act_origin d act)

theorem run_writer (d : Drainage) (acts : List Act) :
    (d.run acts).reporter.writer = d.reporter.writer := by
  induction acts generalizing d with
  | nil => rfl
  | cons act acts ih => exact (ih (d.act act)).trans (act_writer d act)

end Drainage

end MetricReporting
