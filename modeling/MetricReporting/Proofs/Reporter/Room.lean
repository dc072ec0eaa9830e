import MetricReporting.Proofs.Reporter.Throttle
import MetricReporting.Proofs.Ring.Progress

/-!
# Room in the batch

The loop asks each consume for what its batch has room for. Main statement: in every state that a
reporter can come to, whatever its writer does with a batch, the phase of the loop says how full the
batch is: never beyond the limit, with room left wherever the loop asks for more, exactly at the
limit where a payload is encoded in the middle of a drain, and empty outside of drains.
-/
namespace MetricReporting

/-! ## What a drain goes by -/

namespace DrainLoop.Phase

def inDrain : Phase → Bool
  | .draining _ _ | .closing _ | .encoding _ | .submitting _ _ _ => true
  | _ => false

def isOpening : Phase → Bool
  | .closing _ | .encoding _ | .submitting _ _ _ => false
  | _ => true

end DrainLoop.Phase

structure Gauge where
  traffic : Ring.Traffic
  phase : DrainLoop.Phase
  pending : List Entry
  encoded : List (List Entry × Bytes)

namespace Gauge

variable {limit size : Nat} {writer : PayloadWriter} {g g' : Gauge} {own : Bool}

def chunk (g : Gauge) : List Entry :=
  (Ring.Consume.held g.traffic.ring g.traffic.consumer).getD []

/-- What an act can do. `own` tells the moves of the loop, its waiting for a permit apart. -/
inductive Moved (limit : Nat) (writer : PayloadWriter) (g : Gauge) : Bool → Gauge → Prop
  | elsewhere (traffic : Ring.Traffic) : traffic.consumer = g.traffic.consumer →
      traffic.ring.consumed = g.traffic.ring.consumed → traffic.handed = g.traffic.handed →
      Moved limit writer g false { g with traffic := traffic }
  | outside (own : Bool) (phase : DrainLoop.Phase) : g.phase.inDrain = false →
      phase.isOpening = true → phase.isPanicked = g.phase.isPanicked →
      Moved limit writer g own { g with phase := phase }
  | begin (target : Nat) (final : Bool) : g.phase = .draining target final →
      g.traffic.consumer.isReturned = true → g.traffic.ring.consumed < target →
      Moved limit writer g true
        { g with traffic := { g.traffic with consumer := .starting (limit - g.pending.length) } }
  | access (target : Nat) (final : Bool) : g.phase = .draining target final →
      g.traffic.consumer.isReturned = false →
      Moved limit writer g true { g with
        traffic := g.traffic.proceed []
        phase := .onward limit (g.pending ++ g.chunk).length target final
          (g.traffic.proceed []).consumer
        pending := g.pending ++ g.chunk }
  | reach (target : Nat) (final : Bool) : g.phase = .draining target final →
      g.traffic.consumer.isReturned = true → target ≤ g.traffic.ring.consumed →
      Moved limit writer g true { g with phase := .closing final }
  | empty (final : Bool) : g.phase = .closing final → g.pending = [] →
      Moved limit writer g true { g with phase := .drained final }
  | leave (final : Bool) : g.phase = .closing final → g.pending ≠ [] →
      Moved limit writer g true { g with phase := .encoding (.drained final) }
  | encode (tags : TagTable) (payload : Bytes) (next : DrainLoop.Next) : g.phase = .encoding next →
      writer.encode? tags g.pending = some payload →
      Moved limit writer g true { g with
        phase := .submitting payload g.pending.length next
        pending := []
        encoded := g.encoded ++ [(g.pending, payload)] }
  | panic (next : DrainLoop.Next) : g.phase = .encoding next →
      Moved limit writer g true { g with phase := .panicked }
  | submit (payload : Bytes) (entries : Nat) (next : DrainLoop.Next) :
      g.phase = .submitting payload entries next →
      Moved limit writer g true { g with phase := next.phase }

end Gauge

/-! ## What an act can do -/

namespace Drainage

variable {d d' : Drainage} {limit now : Nat}

def gauge (d : Drainage) : Gauge :=
  ⟨d.traffic, d.loop.phase, d.loop.pending, d.journal.encoded⟩

/-- Whether an act is a move of the loop that does not just wait for a permit. -/
def isMove (d : Drainage) : Act → Bool
  | .loop _ => d.loop.phase.underWay.isEmpty || (d.loop.closed || decide (0 < d.loop.permits))
  | _ => false

theorem gauge_stays (d : Drainage) (writer : PayloadWriter) :
    d.gauge.Moved limit writer false d.gauge :=
  .elsewhere d.traffic rfl rfl rfl

theorem step_gauge {loop : DrainLoop} (hloop : d.reporter.loop = some loop)
    (hdrained : ∀ target final, loop.phase = .draining target final →
      d.traffic.consumer.isReturned = true ∧ target ≤ d.traffic.ring.consumed) :
    d.gauge.Moved limit d.reporter.writer (d.isMove (.loop now)) (d.step now loop).gauge := by
  have hcurrent := loop_eq hloop
  have hstep := @step_stepped d now loop hdrained
  have hgauge : (d.step now loop).gauge = ⟨d.traffic, (d.stream.loopStep now loop).2.phase,
      (d.stream.loopStep now loop).2.pending, (d.step now loop).journal.encoded⟩ := rfl
  rw [hgauge, gauge, isMove, hcurrent]
  generalize (d.stream.loopStep now loop).1 = stream', (d.stream.loopStep now loop).2 = loop',
    (d.step now loop).journal = journal' at hstep
  cases hstep with
  | pass phase hpasses =>
    rw [hpasses.underWay.1]
    obtain ⟨hruns, hruns'⟩ := hpasses.runs
    generalize hcase : loop.phase = before at hpasses hruns
    cases hpasses with
    | reached target final hle => exact .reach target final rfl (hdrained _ _ hcase).1 hle
    | emptied final hempty => exact .empty final rfl hempty
    | leftover final hsome => exact .leave final rfl hsome
    | _ => exact .outside _ _ rfl rfl (hruns'.trans hruns.symm)
  | wake since idle hcase hover =>
    rw [hcase]
    exact .outside _ .woken rfl rfl rfl
  | rest since idle hcase hwaits =>
    rw [hcase]
    exact .outside _ _ rfl rfl rfl
  | encode payload next hcase hpayload =>
    rw [hcase]
    exact .encode d.tags payload next rfl hpayload
  | panic next hcase hnone =>
    rw [hcase]
    exact .panic next rfl
  | refuse payload entries next hcase hclosed =>
    rw [hcase, hclosed, Bool.true_or, Bool.or_true]
    exact .submit payload entries next rfl
  | submit payload entries next hcase hopen hpermit =>
    rw [hcase, decide_eq_true hpermit, Bool.or_true, Bool.or_true]
    exact .submit payload entries next rfl
  | finish hcase hall =>
    rw [hcase]
    exact .outside _ .ended rfl rfl rfl
  | stay hready =>
    unfold MetricStream.loopReady at hready
    cases hcase : loop.phase with
    | submitting payload entries next =>
      rw [hcase] at hready
      have hnone : (loop.closed || decide (0 < loop.permits)) = false := hready
      rw [hnone]
      exact .elsewhere d.traffic rfl rfl rfl
    | resting | finishing | ended | panicked | aborted => exact .outside _ _ rfl rfl rfl
    | turning | watching | woken | aiming | draining | closing | encoding | drained =>
      rw [hcase] at hready
      cases hready

theorem LoopMove.gauge (h : LoopMove d now d') (hlimit : d.reporter.settings.maxFlushSize = limit) :
    d.gauge.Moved limit d.reporter.writer (d.isMove (.loop now)) d'.gauge := by
  cases h with
  | asleep hnone =>
    have hdormant : d.loop = .dormant := by rw [Drainage.loop, hnone, Option.getD_none]
    have hphase : d.gauge.phase = .turning 0 := congrArg DrainLoop.phase hdormant
    exact .outside _ d.gauge.phase (by rw [hphase]; rfl) (by rw [hphase]; rfl) rfl
  | step loop hloop hdrained => exact step_gauge hloop hdrained
  | begin loop target final hloop hcase hidle hmore =>
    have hcurrent := loop_eq hloop
    have hphase : d.gauge.phase = .draining target final := by
      rw [Drainage.gauge, hcurrent, hcase]
    have hmove : d.isMove (.loop now) = true := by
      rw [isMove, hcurrent, hcase]
      rfl
    have hroom : d.stream.room loop = limit - d.gauge.pending.length := by
      rw [MetricStream.room, gauge, hcurrent, ← hlimit]
      rfl
    rw [hmove]
    simp only [Ring.Traffic.act, hidle, if_true, hroom]
    exact .begin target final hphase hidle hmore
  | consume loop target final hloop hcase hbusy =>
    have hcurrent := loop_eq hloop
    have hphase : d.gauge.phase = .draining target final := by
      rw [Drainage.gauge, hcurrent, hcase]
    have hmove : d.isMove (.loop now) = true := by
      rw [isMove, hcurrent, hcase]
      rfl
    rw [hmove, consume_onward d hcase, hlimit]
    subst hcurrent
    exact .access target final hphase hbusy

theorem send_gauge (d : Drainage) (writer : PayloadWriter) (place : Nat)
    (answer : Option SendOutcome) :
    d.gauge.Moved limit writer false (d.send place answer).gauge := by
  cases hloop : d.reporter.loop with
  | none =>
    simp only [Drainage.send, hloop]
    exact d.gauge_stays writer
  | some loop =>
    cases hplace : loop.tasks[place]? with
    | none =>
      rw [send_none hloop hplace]
      exact d.gauge_stays writer
    | some task =>
      have hsame : (d.send place answer).gauge = d.gauge := by
        have hcurrent := loop_eq hloop
        rw [send_eq hloop hplace, gauge, gauge, hcurrent]
        simp only [DrainLoop.heard_encoded]
        rfl
      rw [hsame]
      exact d.gauge_stays writer

theorem stop_loop (d : Drainage) : d.stop.reporter.loop = d.reporter.loop := by
  simp only [Drainage.stop, Reporter.requestStop]
  split <;> rfl

theorem act_gauge (hlimit : d.reporter.settings.maxFlushSize = limit)
    (hunstarted : d.reporter.started = false → d.reporter.loop = none) (act : Act) :
    d.gauge.Moved limit d.reporter.writer (d.isMove act) (d.act act).gauge := by
  cases act with
  | write value tag => exact .elsewhere _ rfl rfl rfl
  | access number spurious =>
    exact .elsewhere _ (Ring.Traffic.access_consumer _ _) (Ring.Traffic.access_consumed _ _)
      (Ring.Traffic.access_handed _ _)
  | tick clock => exact .elsewhere _ rfl rfl rfl
  | retag tags => exact d.gauge_stays _
  | drop => exact d.gauge_stays _
  | start now runtime =>
    simp only [Drainage.act]
    cases hstart : d.reporter.start now runtime with
    | error error => exact d.gauge_stays _
    | ok reporter =>
      obtain ⟨hnew, rfl⟩ := start_eq_ok hstart
      have hdormant : d.loop = .dormant := by
        rw [Drainage.loop, hunstarted hnew, Option.getD_none]
      have hgauge : d.gauge = ⟨d.traffic, .turning 0, [], d.journal.encoded⟩ := by
        rw [gauge, hdormant]
        rfl
      rw [hgauge]
      exact .outside _ (.turning now) rfl rfl rfl
  | loop now => exact (loopMove d now).gauge hlimit
  | send place answer => exact d.send_gauge _ place answer
  | stop =>
    have hsame : d.stop.gauge = d.gauge := by
      rw [gauge, gauge, Drainage.loop, Drainage.loop, stop_loop]
      rfl
    simp only [Drainage.act, hsame]
    exact d.gauge_stays _

theorem act_traffic (d : Drainage) (act : Act) :
    (d.act act).traffic = d.traffic ∨ ∃ other, (d.act act).traffic = d.traffic.act other := by
  cases act with
  | write value tag => exact Or.inr ⟨.call value tag, rfl⟩
  | access number spurious => exact Or.inr ⟨.access number spurious, rfl⟩
  | tick clock => exact Or.inr ⟨.tick clock, rfl⟩
  | retag tags => exact Or.inl rfl
  | drop => exact Or.inl rfl
  | start now runtime =>
    simp only [Drainage.act]
    split <;> exact Or.inl rfl
  | loop now =>
    have hmove := loopMove d now
    simp only [Drainage.act]
    generalize d.loopAct now = d' at hmove
    cases hmove with
    | asleep hnone => exact Or.inl rfl
    | step loop hloop hdrained => exact Or.inl rfl
    | begin loop target final hloop hcase => exact Or.inr ⟨.consume (d.stream.room loop), rfl⟩
    | consume loop target final hloop hcase hbusy =>
      rw [consume_onward d hcase]
      exact Or.inr ⟨.proceed [], rfl⟩
  | send place answer =>
    simp only [Drainage.act, Drainage.send]
    split
    · exact Or.inl rfl
    · split <;> exact Or.inl rfl
  | stop => exact Or.inl rfl

theorem act_settings (d : Drainage) (act : Act) :
    (d.act act).reporter.settings = d.reporter.settings := by
  cases act with
  | start now runtime =>
    simp only [Drainage.act]
    cases hstart : d.reporter.start now runtime with
    | error error => rfl
    | ok reporter =>
      obtain ⟨-, rfl⟩ := start_eq_ok hstart
      rfl
  | loop now =>
    have hmove := loopMove d now
    simp only [Drainage.act]
    generalize d.loopAct now = d' at hmove
    cases hmove with
    | asleep hnone => rfl
    | step loop hloop hdrained =>
      have hreporter : (d.stream.loopStep now loop).1.reporter = d.reporter :=
        (step_stepped hdrained).kept.1
      have hsettings := congrArg Reporter.settings hreporter
      exact hsettings
    | begin loop target final hloop hcase => rfl
    | consume loop target final hloop hcase hbusy => rw [consume_onward d hcase]
  | send place answer =>
    simp only [Drainage.act, Drainage.send]
    split
    · rfl
    · split <;> rfl
  | stop =>
    simp only [Drainage.act, Drainage.stop, Reporter.requestStop]
    split <;> rfl
  | _ => rfl

end Drainage

/-! ## How full the batch is -/

/-- How many entries the phase leaves room for a batch to have. -/
def DrainLoop.Next.Fills (limit size : Nat) : DrainLoop.Next → Prop
  | .draining _ _ => size = limit
  | .drained _ => 0 < size ∧ size < limit

def DrainLoop.Phase.Fills (limit : Nat) (consumer : Ring.Consume) (size : Nat) :
    DrainLoop.Phase → Prop
  | .draining _ _ => consumer.Fits limit size ∧ (consumer.isReturned = true → size < limit)
  | .closing _ => size < limit
  | .encoding next => next.Fills limit size
  | .panicked => True
  | _ => size = 0

theorem Ring.Consume.fits_of_isReturned {consumer : Ring.Consume} {limit : Nat} (hlimit : 0 < limit)
    (h : consumer.isReturned = true) : consumer.Fits limit 0 := by
  cases consumer with
  | returned count => exact ⟨Nat.zero_le _, fun _ => hlimit⟩
  | _ => cases h

namespace Gauge

variable {limit : Nat} {writer : PayloadWriter} {g g' : Gauge} {own : Bool}

/-- What is drained is encoded or pending, and the phase says how much is pending. -/
structure Filled (limit : Nat) (g : Gauge) : Prop where
  idle : g.traffic.consumer.isReturned = false → ∃ target final, g.phase = .draining target final
  drained : (g.encoded.map Prod.fst).flatten ++ g.pending = g.traffic.handed.flatten
  fills : g.phase.Fills limit g.traffic.consumer g.pending.length

theorem Filled.isReturned (h : g.Filled limit)
    (hphase : ∀ target final, g.phase ≠ .draining target final) :
    g.traffic.consumer.isReturned = true := by
  by_contra hbusy
  obtain ⟨target, final, hdraining⟩ := h.idle (Bool.eq_false_iff.2 hbusy)
  exact hphase target final hdraining

theorem Filled.opening (hlimit : 0 < limit) (h : g.Filled limit) (hbefore : g.phase.inDrain = false)
    {phase : DrainLoop.Phase} (hafter : phase.isOpening = true)
    (hpanicked : phase.isPanicked = g.phase.isPanicked) :
    phase.Fills limit g.traffic.consumer g.pending.length := by
  have hidle : g.traffic.consumer.isReturned = true :=
    h.isReturned fun target final hcase => by rw [hcase] at hbefore; cases hbefore
  have hfills := h.fills
  have hempty : phase.isPanicked = false → g.pending.length = 0 := by
    intro hruns
    rw [hpanicked] at hruns
    cases hcase : g.phase with
    | panicked => rw [hcase] at hruns; cases hruns
    | draining | closing | encoding | submitting => rw [hcase] at hbefore; cases hbefore
    | _ => rwa [hcase] at hfills
  cases phase with
  | closing | encoding | submitting => cases hafter
  | panicked => trivial
  | draining target final =>
    rw [hempty rfl]
    exact ⟨Ring.Consume.fits_of_isReturned hlimit hidle, fun _ => hlimit⟩
  | _ => exact hempty rfl

theorem onward_fills {size : Nat} {consumer : Ring.Consume} (h : consumer.Fits limit size)
    (target : Nat) (final : Bool) :
    (DrainLoop.Phase.onward limit size target final consumer).Fills limit consumer size := by
  cases consumer with
  | returned count =>
    cases count with
    | zero =>
      have hroom : size < limit := h.2 rfl
      cases final with
      | true => exact ⟨h, fun _ => hroom⟩
      | false => exact hroom
    | succ count =>
      simp only [DrainLoop.Phase.onward]
      split
      · rename_i hfull
        exact Nat.le_antisymm h.1 hfull
      · rename_i hroom
        exact ⟨h, fun _ => Nat.not_le.1 hroom⟩
  | _ => exact ⟨h, fun hreturned => absurd hreturned Bool.false_ne_true⟩

theorem onward_of_busy {size target : Nat} {final : Bool} {consumer : Ring.Consume}
    (h : consumer.isReturned = false) :
    DrainLoop.Phase.onward limit size target final consumer = .draining target final := by
  cases consumer with
  | returned count => cases h
  | _ => rfl

theorem Filled.access (h : g.Filled limit) {target : Nat} {final : Bool}
    (hcase : g.phase = .draining target final) : Filled limit { g with
      traffic := g.traffic.proceed []
      phase := .onward limit (g.pending ++ g.chunk).length target final
        (g.traffic.proceed []).consumer
      pending := g.pending ++ g.chunk } := by
  have hfills := h.fills
  rw [hcase] at hfills
  have hfits := hfills.1.stepped g.traffic.proceed_stepped
  rw [← Ring.Consume.length_held g.traffic.ring, ← List.length_append] at hfits
  refine ⟨fun hbusy => ⟨target, final, onward_of_busy hbusy⟩, ?_, onward_fills hfits target final⟩
  show _ ++ (_ ++ _) = (g.traffic.handed ++ _).flatten
  rw [List.flatten_append, ← h.drained, List.append_assoc, Gauge.chunk]
  cases Ring.Consume.held g.traffic.ring g.traffic.consumer <;> simp

theorem filled_of_isReturned (hidle : g.traffic.consumer.isReturned = true)
    (hdrained : (g.encoded.map Prod.fst).flatten ++ g.pending = g.traffic.handed.flatten)
    (hfills : g.phase.Fills limit g.traffic.consumer g.pending.length) : g.Filled limit :=
  ⟨fun hbusy => absurd hidle (Bool.eq_false_iff.1 hbusy), hdrained, hfills⟩

theorem Filled.moved (hlimit : 0 < limit) (h : g.Filled limit)
    (hmoved : Moved limit writer g own g') :
    g'.Filled limit := by
  have hfills := h.fills
  cases hmoved with
  | elsewhere traffic hconsumer hconsumed hhanded =>
    exact ⟨fun hbusy => h.idle (hconsumer ▸ hbusy), h.drained.trans (congrArg _ hhanded.symm),
      hconsumer.symm ▸ hfills⟩
  | outside _ phase hbefore hafter hpanicked =>
    have hidle : g.traffic.consumer.isReturned = true :=
      h.isReturned fun target final hcase => by rw [hcase] at hbefore; cases hbefore
    exact filled_of_isReturned hidle h.drained (h.opening hlimit hbefore hafter hpanicked)
  | begin target final hcase hidle hmore =>
    rw [hcase] at hfills
    have hroom : g.pending.length < limit := hfills.2 hidle
    refine ⟨fun _ => ⟨target, final, hcase⟩, h.drained, ?_⟩
    show g.phase.Fills limit (.starting (limit - g.pending.length)) g.pending.length
    rw [hcase]
    exact ⟨⟨by omega, by omega⟩, nofun⟩
  | access target final hcase hbusy => exact h.access hcase
  | reach target final hcase hidle hreached =>
    rw [hcase] at hfills
    exact filled_of_isReturned hidle h.drained (hfills.2 hidle)
  | empty final hcase hempty =>
    have hidle := h.isReturned (by rw [hcase]; nofun)
    exact filled_of_isReturned hidle h.drained (congrArg List.length hempty)
  | leave final hcase hsome =>
    have hidle := h.isReturned (by rw [hcase]; nofun)
    rw [hcase] at hfills
    exact filled_of_isReturned hidle h.drained ⟨List.length_pos_iff.2 hsome, hfills⟩
  | encode tags payload next hcase hpayload =>
    have hidle := h.isReturned (by rw [hcase]; nofun)
    refine filled_of_isReturned hidle ?_ rfl
    rw [← h.drained]
    simp
  | panic next hcase =>
    have hidle := h.isReturned (by rw [hcase]; nofun)
    exact filled_of_isReturned hidle h.drained trivial
  | submit payload entries next hcase =>
    have hidle := h.isReturned (by rw [hcase]; nofun)
    rw [hcase] at hfills
    have hempty : g.pending.length = 0 := hfills
    refine filled_of_isReturned hidle h.drained ?_
    show next.phase.Fills limit g.traffic.consumer g.pending.length
    rw [hempty]
    cases next with
    | draining target final =>
      exact ⟨Ring.Consume.fits_of_isReturned hlimit hidle, fun _ => hlimit⟩
    | drained final => rfl

end Gauge

/-! ## In every run -/

namespace Drainage

structure Steady (limit : Nat) (d : Drainage) : Prop where
  pos : 0 < limit
  settings : d.reporter.settings.maxFlushSize = limit
  throttled : ∃ parallel, d.Throttled parallel
  traffic : d.traffic.Sound
  filled : d.gauge.Filled limit

variable {d : Drainage} {limit : Nat}

theorem ready_steady (metricType : String) (settings : DrainSettings) (writer : PayloadWriter)
    {ring : Ring} (hfresh : ring.Fresh) (tags : TagTable) :
    (ready metricType settings writer ring tags).Steady (max settings.maxFlushSize 1) := by
  refine ⟨settings.normalized_maxFlushSize_pos, rfl,
    ⟨_, ready_throttled metricType settings writer ring tags⟩, Ring.Traffic.ofRing_sound hfresh, ?_⟩
  exact ⟨(fun hbusy => nomatch hbusy), rfl, rfl⟩

theorem Steady.moved (h : d.Steady limit) (act : Act) :
    d.gauge.Moved limit d.reporter.writer (d.isMove act) (d.act act).gauge := by
  obtain ⟨parallel, hthrottled⟩ := h.throttled
  exact act_gauge h.settings hthrottled.unstarted act

theorem Steady.act (h : d.Steady limit) (act : Act) : (d.act act).Steady limit := by
  have hsettings := congrArg DrainSettings.maxFlushSize (act_settings d act)
  refine ⟨h.pos, hsettings.trans h.settings, ?_, ?_, h.filled.moved h.pos (h.moved act)⟩
  · obtain ⟨parallel, hthrottled⟩ := h.throttled
    exact ⟨parallel, hthrottled.act act⟩
  · rcases act_traffic d act with hsame | ⟨other, hother⟩
    · rw [hsame]
      exact h.traffic
    · rw [hother]
      exact h.traffic.act other

theorem Steady.run (h : d.Steady limit) (acts : List Act) : (d.run acts).Steady limit := by
  induction acts generalizing d with
  | nil => exact h
  | cons act acts ih => exact ih (h.act act)

end Drainage

end MetricReporting
