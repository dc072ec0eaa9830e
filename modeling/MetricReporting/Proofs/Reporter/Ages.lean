import MetricReporting.Config.Validation
import MetricReporting.Proofs.Payload.Timestamps
import MetricReporting.Proofs.Reporter.Timeline

/-!
# How old the entries of a payload are

An interval that is accepted is short enough for the distances of a payload, but a drain that waits
for a permit, and one that leaves a straggler behind, make entries wait longer. Main statement: the
ticks of a payload lie no further apart than the moment it is encoded and the moment at which the
last drain that got to its target had read it, so a payload that is encoded soon enough after that
is faithful.
-/
namespace MetricReporting

/-- What an accepted interval leaves of the time that 32 bits can tell. -/
theorem ReportingConfig.interval_le_reach {config : ReportingConfig}
    (hvalid : config.validate = .ok ()) :
    config.reportingInterval.toNanoseconds + 364700 ≤ Moment.reach := by
  have hnone := (config.validate_eq_ok_iff).1 hvalid
  have hinterval : config.reportingIntervalMs ≤ maxReportingIntervalMs := by
    by_contra hlong
    unfold fault? at hnone
    grind
  have hmost : maxReportingIntervalMs = 214748 := by decide
  rw [reportingInterval, TimeSpan.ofMillis, TimeSpan.toNanoseconds_ofNanoseconds]
  rw [hmost] at hinterval
  unfold Moment.reach
  omega

namespace Chronicle

open Drainage Payload

variable {c : Chronicle} {offset : Int} {last moment : Moment} {item : List Entry × Bytes}
  {dates : Moment × Moment}

theorem Aged.run (h : Aged offset last c) {timeline : List (Moment × Act)}
    (hclocks : Moment.Agreeing offset (last :: timeline.map Prod.fst)) :
    ∃ last, Aged offset last (c.run timeline) ∧
      (c.run timeline).drainage.reporter.settings = c.drainage.reporter.settings ∧
      (c.run timeline).drainage.reporter.writer = c.drainage.reporter.writer := by
  induction timeline generalizing c last with
  | nil => exact ⟨last, h, rfl, rfl⟩
  | cons first timeline ih =>
    obtain ⟨hforward, hrest⟩ := List.pairwise_cons.1 hclocks.forward
    have hticked := h.tick (hclocks.shown first.1 (by simp)) (hforward first.1 (by simp))
    have hsettings := (hticked.waits.act first.2).2
    have hwriter := act_writer (c.tick first.1).drainage (first.2.dated first.1)
    rw [← act_drainage] at hsettings hwriter
    obtain ⟨last, hlast, hsettings', hwriter'⟩ := ih (hticked.act rfl first.2)
      ⟨fun moment hmem => hclocks.shown moment (List.mem_cons_of_mem _ hmem), hrest⟩
    exact ⟨last, hlast, hsettings'.trans hsettings, hwriter'.trans hwriter⟩

theorem Aged.made (h : Aged offset last c) {format : Format}
    (hwriter : c.drainage.reporter.writer = .ofFormat format)
    (hitem : item ∈ c.drainage.journal.encoded) :
    ∃ tags, Payload.encode? format tags item.1 = some item.2 := by
  have hmade := h.sound.made item hitem
  rwa [hwriter] at hmade

theorem Dated.span (h : Dated offset item dates) : ∀ a ∈ item.1, ∀ b ∈ item.1,
    a.ticks.toInt - b.ticks.toInt ≤ dates.2.ticks.toInt - dates.1.ticks.toInt := by
  intro a ha b hb
  have hnewest := Int64.le_iff_toInt_le.1 (h.stamped a ha).2
  have holdest := Int64.le_iff_toInt_le.1 (h.stamped b hb).1
  omega

theorem Dated.near (h : Dated offset item dates)
    (hsoon : dates.2.now ≤ dates.1.now + Moment.reach) :
    Near item.1 := by
  intro a ha b hb
  exact Int.lt_of_le_of_lt (h.span a ha b hb) (h.begun.sub_lt h.ended hsoon)

/-- What is promised of the payload of a batch, from when it was encoded. -/
structure Kept (format : Format) (item : List Entry × Bytes) (dates : Moment × Moment) : Prop where
  span : ∀ a ∈ item.1, ∀ b ∈ item.1,
    a.ticks.toInt - b.ticks.toInt ≤ dates.2.ticks.toInt - dates.1.ticks.toInt
  faithful : ∃ tags, encode? format tags item.1 = some item.2 ∧
    (dates.2.now ≤ dates.1.now + Moment.reach → Near item.1 ∧ Faithful format tags item.1)

/-- However long sends, drains and waits for permits last, the ticks of a payload lie no further
apart than the moment it is encoded and the moment at which the last drain that got to its target
had read it. One that is encoded within the time that 32 bits can tell is faithful; an accepted
interval, beyond which no rest of the loop is to last, leaves some of that time. A batch of which no
payload is made spans more than 64 bits can tell. -/
theorem payloads_kept {config : ReportingConfig} (hvalid : config.validate = .ok ())
    (metricType : String) (format : Format) (requested position : Nat) (tags : TagTable)
    {offset : Int} {beginning : Moment} {timeline : List (Moment × Act)}
    (hclocks : Moment.Agreeing offset (beginning :: timeline.map Prod.fst)) :
    let settings := DrainSettings.ofConfig config.reporter config.reportingInterval
    let c := (opening beginning (ready metricType settings (.ofFormat format)
      (Ring.startingAt requested position {}) tags)).run timeline
    let interval := config.reportingInterval.toNanoseconds
    interval + 364700 ≤ Moment.reach ∧
      (∀ since idle wakeAt, c.drainage.loop.phase = .resting since idle wakeAt →
        wakeAt ≤ since + interval) ∧
      List.Forall₂ (Kept format) c.drainage.journal.encoded c.encodings ∧
      (c.drainage.loop.phase = .panicked → ¬ Measurable c.drainage.loop.pending) := by
  intro settings c interval
  have hfresh := Ring.startingAt_fresh requested position {}
  have hopening := opening_aged metricType settings (.ofFormat format) hfresh tags
    (hclocks.shown beginning List.mem_cons_self)
  obtain ⟨last, hlast, hsettings, hwriter⟩ := hopening.run hclocks
  refine ⟨ReportingConfig.interval_le_reach hvalid, fun since idle wakeAt hresting => ?_, ?_,
    fun hpanicked => ?_⟩
  · have hwaits : c.drainage.Waits last.now := hlast.waits
    have hspinning : c.drainage.reporter.settings.maxSpinning = interval :=
      congrArg DrainSettings.maxSpinning hsettings
    rw [Waits, hresting, hspinning] at hwaits
    exact hwaits.2
  · have hmade : ∀ item ∈ c.drainage.journal.encoded,
        ∃ tags, encode? format tags item.1 = some item.2 :=
      fun item hitem => hlast.made hwriter hitem
    refine ((List.forall₂_and_left _ _).2 ⟨hmade, hlast.dates⟩).imp fun item dates hboth => ?_
    obtain ⟨⟨tags, hencode⟩, hdated⟩ := hboth
    refine ⟨hdated.span, tags, hencode, fun hsoon => ?_⟩
    exact ⟨hdated.near hsoon, faithful_of_near format tags (hdated.near hsoon)⟩
  · obtain ⟨tags, hnone⟩ := hlast.sound.panicked hpanicked
    rw [hwriter] at hnone
    exact encode?_eq_none_iff.1 hnone

def oneSend : ReportingConfig where
  endpointName := "endpoint"
  metricsAddress := "metrics"
  reporter := ⟨1, 16, 1⟩

def second (count : Nat) : Moment :=
  ⟨count * 1000000000, Int64.ofNat (621355968000000000 + count * 10000000)⟩

/-- The first send takes five minutes. The second payload waits for its permit all the while, so two
entries that are written in the third second and after five minutes go into one payload. -/
def heldUp : List (Moment × Act) :=
  let during (count : Nat) (acts : List Act) := acts.map (Prod.mk (second count))
  let write (number : Nat) :=
    Act.write (Int64.ofNat number) 0 :: List.replicate 6 (.access number false)
  let loop (count : Nat) := List.replicate count (Act.loop 0)
  during 0 (.start 0 true :: write 0 ++ loop 40) ++ during 1 (write 1 ++ loop 40) ++
    during 2 (write 2) ++
    during 300 (write 3 ++ [.send 0 none, .send 0 none, .send 0 (some .delivered), .send 0 none,
      .send 0 none] ++ loop 40)

def heldUpRun : Chronicle :=
  (opening (second 0) (ready "Values" (.ofConfig oneSend.reporter oneSend.reportingInterval)
    (.ofFormat .longValue) (Ring.startingAt 4 0 {}) {})).run heldUp

theorem payloads_kept_heldUp :
    Moment.Agreeing 62135596800000000000 (second 0 :: heldUp.map Prod.fst) ∧
      ∃ first next last, heldUpRun.drainage.journal.encoded = [first, next, last] ∧
        (Near first.1 ∧ ∃ tags, Faithful .longValue tags first.1) ∧
        (Near next.1 ∧ ∃ tags, Faithful .longValue tags next.1) ∧
        Kept .longValue last (second 1, second 300) := by
  have hvalid : oneSend.validate = .ok () := by decide
  have hclocks : Moment.Agreeing 62135596800000000000 (second 0 :: heldUp.map Prod.fst) :=
    ⟨by decide +kernel, by decide +kernel⟩
  have hencodings : heldUpRun.encodings =
      [(second 0, second 0), (second 0, second 1), (second 1, second 300)] := by decide +kernel
  obtain ⟨-, -, hkept, -⟩ := payloads_kept hvalid "Values" .longValue 4 0 {} hclocks
  unfold heldUpRun at hencodings ⊢
  rw [hencodings] at hkept
  obtain ⟨first, rest, hfirst, hrest, hencoded⟩ := List.forall₂_cons_right_iff.1 hkept
  obtain ⟨next, rest', hnext, hrest', rfl⟩ := List.forall₂_cons_right_iff.1 hrest
  obtain ⟨last, rest'', hlast, hrest'', rfl⟩ := List.forall₂_cons_right_iff.1 hrest'
  obtain rfl := List.forall₂_nil_right_iff.1 hrest''
  obtain ⟨tags, -, hfaithful⟩ := hfirst.faithful
  obtain ⟨tags', -, hfaithful'⟩ := hnext.faithful
  have hnear := hfaithful (by decide)
  have hnear' := hfaithful' (by decide)
  exact ⟨hclocks, first, next, last, hencoded, ⟨hnear.1, tags, hnear.2⟩,
    ⟨hnear'.1, tags', hnear'.2⟩, hlast⟩

def lateBatch : List Entry :=
  [⟨(second 2).ticks, 2, 0⟩, ⟨(second 300).ticks, 3, 0⟩]

/-- The last payload tells a wrong time for the second of its entries. -/
theorem deltas_cut_heldUp :
    oneSend.validate = .ok () ∧
      Moment.Agreeing 62135596800000000000 (second 0 :: heldUp.map Prod.fst) ∧
      ∃ payload, (lateBatch, payload) ∈ heldUpRun.drainage.journal.encoded ∧ ¬ Near lateBatch ∧
        ticksIn .longValue {} payload = .ok [(second 2).ticks, 621355966705032704] := by
  have hclocks : Moment.Agreeing 62135596800000000000 (second 0 :: heldUp.map Prod.fst) :=
    ⟨by decide +kernel, by decide +kernel⟩
  have hbatch : lateBatch ∈ heldUpRun.drainage.journal.batches := by decide +kernel
  obtain ⟨⟨batch, payload⟩, hmem, hsame⟩ := List.mem_map.1 hbatch
  obtain rfl : batch = lateBatch := hsame
  unfold heldUpRun at hmem ⊢
  have hopening := opening_aged "Values" (.ofConfig oneSend.reporter oneSend.reportingInterval)
    (.ofFormat .longValue) (Ring.startingAt_fresh 4 0 {}) {}
    (hclocks.shown (second 0) List.mem_cons_self)
  obtain ⟨last, hlast, -, hwriter⟩ := hopening.run hclocks
  have hformat : _ = PayloadWriter.ofFormat .longValue := hwriter
  obtain ⟨tags, hencode⟩ := hlast.made hformat hmem
  have hsorted : Entry.sortByTicks lateBatch = lateBatch := by decide +kernel
  have hbytes : payload = encodeSorted {} lateBatch .longValue := by
    refine (encode?_eq_some_iff.1 hencode).2.trans ?_
    rw [hsorted]
    rfl
  refine ⟨by decide, hclocks, _, hmem, ?_, ?_⟩
  · unfold Near
    decide
  · rw [hbytes]
    decide +kernel

end Chronicle

end MetricReporting
