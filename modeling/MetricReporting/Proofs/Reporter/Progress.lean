import MetricReporting.Proofs.Reporter.DrainCall
import MetricReporting.Proofs.Reporter.DrainOnStop

/-!
# Drains end

The measure of a drain is the distance to a target that does not move, however far producers go on
claiming positions behind it. Main statement: a drain asks every consume for at least one entry and
at most a batch; one that leaves unpublished entries behind begins at most one consume more than
positions are missing, one that waits for them is told of entries at most as often as positions are
missing, and where these are published every consume hands some of them out.
-/
namespace MetricReporting

namespace Tally

variable {limit base target : Nat} {final : Bool} {g g' : Gauge} {tally : Tally} {own : Bool}
  {writer : PayloadWriter}

theorem length_eq_countP_add_count (answers : List Nat) :
    answers.length = answers.countP (0 < ·) + answers.count 0 := by
  rw [List.length_eq_countP_add_countP (fun answer => decide (0 < answer)), List.count_eq_countP]
  refine congrArg _ (List.countP_congr fun answer _ => ?_)
  simp

theorem Counts.failed (h : tally.Counts limit base target final g) (hfilled : g.Filled limit)
    (hfinal : final = false) : tally.answers.count 0 + g.traffic.consumer.underWay ≤ 1 := by
  have hfailures := h.failures hfinal
  cases hidle : g.traffic.consumer.isReturned with
  | true =>
    have hmost : g.phase.failures ≤ 1 := by
      cases g.phase with
      | draining => exact Nat.zero_le 1
      | encoding next =>
        cases next with
        | draining => exact Nat.zero_le 1
        | drained => exact Nat.le_refl 1
      | submitting payload entries next =>
        cases next with
        | draining => exact Nat.zero_le 1
        | drained => exact Nat.le_refl 1
      | _ => exact Nat.le_refl 1
    simp only [Ring.Consume.underWay, hidle, if_true]
    omega
  | false =>
    obtain ⟨target', final', hcase⟩ := hfilled.idle hidle
    rw [hcase] at hfailures
    simp only [DrainLoop.Phase.failures] at hfailures
    simp only [Ring.Consume.underWay, hidle, Bool.false_eq_true, if_false]
    omega

theorem Counts.asked_le (h : tally.Counts limit base target final g) (hfilled : g.Filled limit)
    (hfinal : final = false) : tally.asked.length ≤ target - base + 1 := by
  have hfailed := h.failed hfilled hfinal
  have hpaired := h.paired
  have hfruitful := h.fruitful
  have hlength := length_eq_countP_add_count tally.answers
  omega

/-! ## Where all positions up to the target are published -/

structure Yields (target : Nat) (g : Gauge) (tally : Tally) : Prop where
  published : ∀ p, g.traffic.ring.consumed ≤ p → p < target → g.traffic.Published p
  consumer : g.traffic.consumer.Fruitful g.traffic.ring.consumed target
  answers : 0 ∉ tally.answers

theorem Yields.pass (h : tally.Yields target g)
    (hkept : ∀ p, g.traffic.Published p → g'.traffic.Published p)
    (hconsumer : g'.traffic.consumer = g.traffic.consumer)
    (hconsumed : g'.traffic.ring.consumed = g.traffic.ring.consumed) :
    (tally.after own g.traffic.consumer g'.traffic.consumer).Yields target g' := by
  simp only [after, hconsumer, Ring.Consume.ended_self, Option.toList_none, List.append_nil]
  refine ⟨fun p hp hp' => hkept p (h.published p (hconsumed ▸ hp) hp'), ?_, h.answers⟩
  rw [hconsumer, hconsumed]
  exact h.consumer

theorem Yields.access (h : tally.Yields target g) (hfilled : g.Filled limit)
    (hsound : g.traffic.Sound) {final : Bool} (hcase : g.phase = .draining target final)
    (hbusy : g.traffic.consumer.isReturned = false)
    (hkept : ∀ p, g.traffic.Published p → (g.traffic.proceed []).Published p)
    {phase : DrainLoop.Phase} {pending : List Entry} :
    (tally.after own g.traffic.consumer (g.traffic.proceed []).consumer).Yields target
      ⟨g.traffic.proceed [], phase, pending, g.encoded⟩ := by
  have hfills := hfilled.fills
  rw [hcase] at hfills
  have hle := g.traffic.proceed_stepped.consumed_le
  obtain ⟨hconsumer, hpositive⟩ :=
    hsound.fruitful_proceed hbusy hfills.1 h.published h.consumer
  refine ⟨fun p hp hp' => hkept p (h.published p (hle.trans hp) hp'), hconsumer, fun hzero => ?_⟩
  rcases List.mem_append.1 hzero with hold | hlast
  · exact h.answers hold
  · cases hreturned : (g.traffic.proceed []).consumer.isReturned with
    | false =>
      rw [Ring.Consume.ended_of_busy hreturned] at hlast
      cases hlast
    | true =>
      obtain ⟨count, hc⟩ := Ring.Consume.eq_returned hreturned
      rw [hc, Ring.Consume.ended_returned hbusy, Option.mem_toList] at hlast
      obtain rfl : count = 0 := Option.some.inj hlast
      exact Nat.lt_irrefl 0 (hpositive 0 hc)

theorem Yields.moved (h : tally.Yields target g) (hcounts : tally.Counts limit base target final g)
    (hfilled : g.Filled limit) (hsound : g.traffic.Sound) (hcall : g.phase.inDrain = true)
    (hkept : ∀ p, g.traffic.Published p → g'.traffic.Published p)
    (hmoved : g.Moved limit writer own g') :
    (tally.after own g.traffic.consumer g'.traffic.consumer).Yields target g' := by
  have haims := hcounts.aims
  cases hmoved with
  | elsewhere traffic hconsumer hconsumed hhanded => exact h.pass hkept hconsumer hconsumed
  | outside _ phase hbefore =>
    rw [hbefore] at hcall
    cases hcall
  | begin target' final' hcase hidle hmore =>
    rw [hcase] at haims
    obtain ⟨rfl, rfl⟩ := haims
    refine ⟨h.published, hmore, ?_⟩
    simp only [after, Ring.Consume.ended_of_isReturned hidle, Option.toList_none, List.append_nil]
    exact h.answers
  | access target' final' hcase hbusy =>
    rw [hcase] at haims
    obtain ⟨rfl, rfl⟩ := haims
    exact h.access hfilled hsound hcase hbusy hkept
  | reach | empty | leave | encode | panic | submit => exact h.pass hkept rfl rfl

end Tally

namespace Drainage

theorem Steady.published_act {limit p : Nat} {d : Drainage} (h : d.Steady limit) (act : Act)
    (hp : d.traffic.Published p) : (d.act act).traffic.Published p := by
  rcases act_traffic d act with hsame | ⟨other, hother⟩
  · rwa [hsame]
  · rw [hother]
    exact hp.act h.traffic other

end Drainage

namespace DrainCall

open Drainage (ready)

variable {limit base target : Nat} {final : Bool} {c : DrainCall}

theorem yields_act (h : c.Sound limit base target final)
    (hyields : c.tally.Yields target c.drainage.gauge) (act : Drainage.Act) :
    (c.act act).tally.Yields target (c.act act).drainage.gauge := by
  cases hover : c.isOver with
  | true =>
    rw [act_of_isOver hover]
    exact hyields
  | false =>
    rw [act_of_inDrain hover]
    exact hyields.moved h.counts h.steady.filled h.steady.traffic (inDrain_of_not_over hover)
      (fun p hp => h.steady.published_act act hp) (h.steady.moved act)

theorem yields_run (h : c.Sound limit base target final)
    (hyields : c.tally.Yields target c.drainage.gauge) (acts : List Drainage.Act) :
    (c.run acts).tally.Yields target (c.run acts).drainage.gauge := by
  induction acts generalizing c with
  | nil => exact hyields
  | cons act acts ih => exact ih (h.act act) (yields_act h hyields act)

/-- Drains make progress and end, whatever anyone else does in between. At any look at the target
the room in the batch is what the limit leaves, and at least one entry; every consume is asked for
that many. Until the call is over every step of the loop is a move, unless it waits for a permit,
and the moves are bounded by the consumes; the consumes by the positions missing and one more, if
the drain does not wait for entries, and else the consumes that return entries by the positions
missing. From a look at which all these are published, no consume returns nothing. -/
theorem drain_ends (metricType : String) (settings : DrainSettings) (writer : PayloadWriter)
    (requested position : Nat) (clock : Clock) (tags : TagTable) (before : List Drainage.Act)
    (target : Nat) (final : Bool) :
    let d := (ready metricType settings writer (Ring.startingAt requested position clock) tags).run
      before
    let limit := max settings.maxFlushSize 1
    let missing := target - d.traffic.ring.consumed
    d.loop.phase = .draining target final → d.traffic.consumer.isReturned = true →
      d.loop.pending.length + d.stream.room d.loop = limit ∧ 1 ≤ d.stream.room d.loop ∧
      ∀ acts,
        let c := (watch d).run acts
        (∀ most ∈ c.tally.asked, 1 ≤ most ∧ most ≤ limit) ∧
        c.tally.moves ≤ c.tally.asked.length * (3 * limit + 12) + 4 ∧
        (∀ now, c.isOver = true ∨ (c.act (.loop now)).tally.moves = c.tally.moves + 1 ∨
          c.drainage.loop.phase.underWay ≠ [] ∧ c.drainage.loop.permits = 0) ∧
        (final = false → c.tally.asked.length ≤ missing + 1) ∧
        c.tally.answers.countP (0 < ·) ≤ missing ∧
        ((∀ p, d.traffic.ring.consumed ≤ p → p < target → d.traffic.Published p) →
          0 ∉ c.tally.answers ∧ c.tally.asked.length ≤ missing) ∧
        (c.isOver = true →
          c.drainage.loop.phase = .drained final ∨ c.drainage.loop.phase = .panicked) := by
  intro d limit missing hphase hidle
  have hsteady : d.Steady limit :=
    (Drainage.ready_steady metricType settings writer
      (Ring.startingAt_fresh requested position clock) tags).run before
  have hfills := hsteady.filled.fills
  have hgauge : d.gauge.phase = .draining target final := hphase
  rw [hgauge] at hfills
  have hroom : d.loop.pending.length < limit := hfills.2 hidle
  have hsettings : d.stream.room d.loop = limit - d.loop.pending.length := by
    rw [← hsteady.settings]
    rfl
  refine ⟨by omega, by omega, fun acts => ?_⟩
  intro c
  have hstart := watch_sound hsteady hphase hidle
  have hsound : c.Sound limit d.traffic.ring.consumed target final := hstart.run acts
  have hcounts := hsound.counts
  have hfilled := hsound.steady.filled
  refine ⟨hcounts.rooms, ?_, c.moves_act_loop, hcounts.asked_le hfilled, ?_, fun hpublished => ?_,
    hsound.over⟩
  · exact (Nat.le_add_right _ _).trans hcounts.cost
  · exact (Nat.le_add_right _ _).trans hcounts.fruitful
  · have hyields : c.tally.Yields target c.drainage.gauge :=
      yields_run hstart
        ⟨hpublished, Ring.Consume.fruitful_of_isReturned hidle, List.not_mem_nil⟩ acts
    refine ⟨hyields.answers, ?_⟩
    have hnone := List.count_eq_zero.2 hyields.answers
    have hlength := Tally.length_eq_countP_add_count c.tally.answers
    have hpaired := hcounts.paired
    have hmissing := hcounts.fruitful
    omega

/-- Two entries with the end of the array between them, and then the loop as far as its target. -/
def wrapping : List Drainage.Act :=
  let access (number : Nat) := List.replicate 6 (Drainage.Act.access number false)
  [.write 10 0, .write 20 0] ++ access 0 ++ access 1 ++ [.start 0 true] ++
    List.replicate 4 (.loop 0)

def wrapped : DrainCall :=
  (watch ((ready "Values" ⟨0, 2, 0, 0⟩ Drainage.bareValues (Ring.startingAt 2 5 {}) {}).run
    wrapping)).run (List.replicate 60 (.loop 0))

theorem drain_ends_wrapping :
    let d :=
      (ready "Values" ⟨0, 2, 0, 0⟩ Drainage.bareValues (Ring.startingAt 2 5 {}) {}).run wrapping
    d.loop.phase = .draining 7 false ∧ wrapped.isOver = true ∧ wrapped.tally.asked = [2, 1] ∧
      wrapped.tally.moves ≤ 40 ∧ 0 ∉ wrapped.tally.answers := by
  intro d
  have hphase : d.loop.phase = .draining 7 false := by decide +kernel
  have hidle : d.traffic.consumer.isReturned = true := by decide +kernel
  have hasked : wrapped.tally.asked = [2, 1] := by decide +kernel
  have hpublished : ∀ p, d.traffic.ring.consumed ≤ p → p < 7 → d.traffic.Published p := by
    have hconsumed : d.traffic.ring.consumed = 5 := by decide +kernel
    intro p hp hp'
    obtain rfl | rfl : p = 5 ∨ p = 6 := by omega
    · decide +kernel
    · decide +kernel
  have h :=
    drain_ends "Values" ⟨0, 2, 0, 0⟩ Drainage.bareValues 2 5 {} {} wrapping 7 false hphase hidle
  have hcall := h.2.2 (List.replicate 60 (.loop 0))
  rw [← wrapped] at hcall
  obtain ⟨-, hmoves, -, -, -, hfruitful, -⟩ := hcall
  rw [hasked] at hmoves
  exact ⟨hphase, by decide +kernel, hasked, hmoves, (hfruitful hpublished).1⟩

end DrainCall

end MetricReporting
