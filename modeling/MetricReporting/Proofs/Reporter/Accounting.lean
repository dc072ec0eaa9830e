import MetricReporting.Proofs.Reporter.Books
import MetricReporting.Proofs.Reporter.DrainOnStop
import MetricReporting.Proofs.Ring.Progress

/-!
# The counters of a reporter

Every act of a reporter at work keeps its books, and the entries flushed are the positions that the
loop has been told are consumed. Main statement: between two consumes the entries flushed are the
positions consumed, and once a stop has returned all counters and the telemetry agree with what was
submitted and answered, unless the writer has panicked and taken tasks with it.
-/
namespace MetricReporting

variable {journal : Journal} {loop : DrainLoop} {metrics metrics' : ReporterMetrics}
  {settled : List (SendTask × SendOutcome)} {traffic : Ring.Traffic}

/-! ## Entries flushed -/

/-- The entries flushed are the positions consumed, as far as the loop has been told. -/
def Flushed (traffic : Ring.Traffic) (metrics : ReporterMetrics) : Prop :=
  ∃ flushed, metrics.entriesFlushed = .ofNat flushed ∧
    traffic.origin + flushed + traffic.consumer.untold = traffic.ring.consumed

namespace Flushed

theorem frame {traffic' : Ring.Traffic} (h : Flushed traffic metrics)
    (hmetrics : metrics'.entriesFlushed = metrics.entriesFlushed)
    (horigin : traffic'.origin = traffic.origin)
    (huntold : traffic'.consumer.untold = traffic.consumer.untold)
    (hconsumed : traffic'.ring.consumed = traffic.ring.consumed) : Flushed traffic' metrics' := by
  obtain ⟨flushed, hflushed, hsum⟩ := h
  exact ⟨flushed, hmetrics.trans hflushed, by rw [horigin, huntold, hconsumed, hsum]⟩

theorem proceed (h : Flushed traffic metrics) (hbusy : traffic.consumer.isReturned = false) :
    Flushed (traffic.proceed []) (metrics.addFlushed (traffic.proceed []).consumer.count) := by
  obtain ⟨flushed, hflushed, hsum⟩ := h
  refine ⟨flushed + (traffic.proceed []).consumer.count, ?_, ?_⟩
  · rw [UInt64.ofNat_add, ← hflushed]
    rfl
  · have hstep := Ring.Consume.step_consumed traffic.ring hbusy
    simp only [Ring.Traffic.proceed, Ring.Traffic.edited_nil]
    omega

end Flushed

/-! ## Steps of the loop, seen from outside -/

namespace DrainLoop

variable {stream stream' : MetricStream} {journal' : Journal} {loop' : DrainLoop}
  {metricType : String} {now : Nat}

theorem Stepped.awaits (hstep : Stepped stream now journal loop stream' journal' loop')
    (h : journal.Awaits loop.phase) : journal'.Awaits loop'.phase := by
  cases hstep with
  | pass phase hpasses => exact journal.awaits_of_underWay hpasses.underWay.2
  | encode payload next hcase hpayload => exact ⟨loop.pending, List.getLast?_concat, rfl⟩
  | refuse payload entries next hcase hclosed => cases next <;> trivial
  | submit payload entries next hcase hopen hpermit => cases next <;> trivial
  | stay hready => exact h
  | _ => trivial

theorem Stepped.totals (hstep : Stepped stream now journal loop stream' journal' loop')
    (h : stream.telemetry.Totals metricType settled) :
    stream'.telemetry.Totals metricType settled := by
  cases hstep with
  | wake since idle hcase hover => exact h.depth _ _
  | _ => exact h

end DrainLoop

/-! ## What the counters say -/

namespace Journal

structure Countable (journal : Journal) : Prop where
  payloads : journal.submitted.length < UInt64.size
  entries : journal.entriesIn (.range journal.submitted.length) < UInt64.size
  bytes : (journal.sizesOf (journal.answeredAs .delivered)).sum < UInt64.size

/-- Every payload submitted is answered once, and the counters say how. -/
structure Balances (journal : Journal) (metrics : ReporterMetrics) : Prop where
  encoded : journal.encoded.map Prod.snd = journal.submitted
  answered : journal.answerNumbers.Perm (.range journal.submitted.length)
  flushed : metrics.entriesFlushed.toNat = journal.entriesIn (.range journal.submitted.length)
  payloads : metrics.payloadsSent.toNat = (journal.answeredAs .delivered).length
  failures : metrics.failures.toNat = (journal.answeredAs .failed).length
  cancelled : metrics.cancelled.toNat = (journal.answeredAs .cancelled).length
  counted : metrics.payloadsSent.toNat + metrics.failures.toNat + metrics.cancelled.toNat =
    journal.submitted.length
  entries : metrics.entriesSent.toNat = journal.entriesIn (journal.answeredAs .delivered)
  bytes : metrics.bytesSent.toNat = (journal.sizesOf (journal.answeredAs .delivered)).sum
  inFlight : metrics.inFlight = 0

theorem answeredAs_length (h : ∀ answer ∈ journal.answered, answer.2 ≠ .panicked) :
    (journal.answeredAs .delivered).length + (journal.answeredAs .failed).length +
      (journal.answeredAs .cancelled).length = journal.answered.length := by
  simp only [answeredAs, List.length_map]
  generalize journal.answered = answers at h
  induction answers with
  | nil => rfl
  | cons answer answers ih =>
    have hrest := ih fun other hmem => h other (List.mem_cons_of_mem _ hmem)
    have hfirst := h answer List.mem_cons_self
    simp only [List.filter_cons, List.length_cons]
    cases houtcome : answer.2 with
    | panicked => exact absurd houtcome hfirst
    | _ =>
      simp
      omega

theorem entriesIn_perm {numbers numbers' : List Nat} (h : numbers.Perm numbers') :
    journal.entriesIn numbers = journal.entriesIn numbers' :=
  (h.map _).sum_nat

theorem entriesIn_answeredAs_le (journal : Journal) (outcome : SendOutcome) :
    journal.entriesIn (journal.answeredAs outcome) ≤ journal.entriesIn journal.answerNumbers := by
  have hparts := List.filter_append_perm (fun answer : Nat × SendOutcome => answer.2 = outcome)
    journal.answered
  rw [answerNumbers, ← entriesIn_perm (hparts.map Prod.fst), List.map_append]
  simp only [entriesIn, answeredAs, List.map_append, List.sum_append]
  exact Nat.le_add_right _ _

theorem entriesIn_range (h : journal.encoded.length = journal.submitted.length) :
    journal.entriesIn (.range journal.submitted.length) = journal.batches.flatten.length := by
  have hlengths : (List.range journal.submitted.length).map journal.entriesOf =
      journal.batches.map List.length := by
    refine List.ext_getElem (by simp [batches, h]) fun number hrange hbatches => ?_
    rw [List.getElem_map, List.getElem_map, List.getElem_range, entriesOf,
      List.getElem?_eq_getElem (by simpa using hbatches), Option.getD_some]
  rw [entriesIn, hlengths, List.length_flatten]

end Journal

/-- The telemetry of a metric type says of its sends what the reporter's own counters say. -/
structure Telemetry.Agrees (telemetry : Telemetry) (metricType : String) (journal : Journal)
    (metrics : ReporterMetrics) : Prop where
  payloads : telemetry.count .payloadsSent metricType = metrics.payloadsSent.toNat
  entries : telemetry.count .entriesFlushed metricType = metrics.entriesSent.toNat
  failures : telemetry.count .payloadFailures metricType = metrics.failures.toNat
  sizes : (telemetry.sizes metricType).Perm (journal.sizesOf (journal.answeredAs .delivered))

namespace Books

theorem balances (h : Books journal loop metrics settled) (htasks : loop.tasks = [])
    (hencoded : journal.encoded.map Prod.snd = journal.submitted)
    (hanswered : journal.answerNumbers.Perm (.range journal.submitted.length))
    (hflushed : metrics.entriesFlushed.toNat =
      journal.entriesIn (.range journal.submitted.length))
    (hcountable : journal.Countable) : journal.Balances metrics := by
  have hfits : ∀ {word : UInt64} {count : Nat}, word = .ofNat count → count < UInt64.size →
      word.toNat = count := fun hword hlt => hword ▸ UInt64.toNat_ofNat_of_lt' hlt
  have hcounts := Journal.answeredAs_length h.returned
  have hanswers : journal.answered.length = journal.submitted.length := by
    have hcount := hanswered.length_eq
    rwa [Journal.answerNumbers, List.length_map, List.length_range] at hcount
  have hdelivered := journal.entriesIn_answeredAs_le .delivered
  rw [Journal.entriesIn_perm hanswered] at hdelivered
  obtain ⟨hpayloads, hsent, hbytes, hfailures, hcancelled⟩ := h.totals
  rw [h.settledAs_length htasks] at hpayloads hfailures hcancelled
  rw [h.totalEntries_settledAs htasks] at hsent
  rw [(h.sizes_settledAs htasks hencoded .delivered).sum_nat] at hbytes
  obtain ⟨hpayloadsFit, hentriesFit, hbytesFit⟩ := hcountable
  have hpayloads' := hfits hpayloads (by omega)
  have hfailures' := hfits hfailures (by omega)
  have hcancelled' := hfits hcancelled (by omega)
  refine ⟨hencoded, hanswered, hflushed, hpayloads', hfailures', hcancelled', by omega,
    hfits hsent (by omega), hfits hbytes hbytesFit, ?_⟩
  rw [h.inFlight, htasks]
  rfl

theorem agrees (h : Books journal loop metrics settled) (htasks : loop.tasks = [])
    (hbalances : journal.Balances metrics) {telemetry : Telemetry} {metricType : String}
    (htelemetry : telemetry.Totals metricType settled) :
    telemetry.Agrees metricType journal metrics := by
  obtain ⟨hcount, hsum, hfailed, hlist⟩ := htelemetry
  rw [h.settledAs_length htasks] at hcount hfailed
  rw [h.totalEntries_settledAs htasks] at hsum
  exact ⟨hcount.trans hbalances.payloads.symm, hsum.trans hbalances.entries.symm,
    hfailed.trans hbalances.failures.symm,
    hlist ▸ h.sizes_settledAs htasks hbalances.encoded .delivered⟩

end Books

namespace Drainage

structure Accounts (metricType : String) (alone : Prop) (d : Drainage) : Prop where
  sound : d.Sound
  label : d.reporter.metricType = metricType
  flushed : Flushed d.traffic d.reporter.metrics
  books : d.loop.phase ≠ .panicked → ∃ settled, Books d.journal d.loop d.reporter.metrics settled ∧
    (alone → d.telemetry.Totals metricType settled)

variable {d : Drainage} {metricType : String} {alone : Prop} {target : Nat} {final : Bool}

theorem Accounts.current (h : Accounts metricType alone d) {loop : DrainLoop}
    (hloop : d.reporter.loop = some loop) (hruns : loop.phase ≠ .panicked) :
    loop.Sound d.traffic d.journal ∧ ∃ settled, Books d.journal loop d.reporter.metrics settled ∧
      (alone → d.telemetry.Totals metricType settled) := by
  have hsound := h.sound.loop
  have hbooks := h.books
  rw [loop_eq hloop] at hsound hbooks
  exact ⟨hsound, hbooks hruns⟩

theorem Accounts.step (h : Accounts metricType alone d) {now : Nat} {loop : DrainLoop}
    (hloop : d.reporter.loop = some loop) (hsound' : (d.step now loop).Sound)
    (hdrained : ∀ target final, loop.phase = .draining target final →
      d.traffic.consumer.isReturned = true ∧ target ≤ d.traffic.ring.consumed) :
    Accounts metricType alone (d.step now loop) := by
  have hstep : loop.Stepped d.stream now d.journal _ _ _ := step_stepped hdrained
  have hreporter : (d.stream.loopStep now loop).1.reporter = d.reporter := hstep.kept.1
  refine ⟨hsound', ?_, ?_, fun hruns => ?_⟩
  · show (d.stream.loopStep now loop).1.reporter.metricType = metricType
    rw [hreporter]
    exact h.label
  · show Flushed d.traffic (d.stream.loopStep now loop).1.reporter.metrics
    rw [hreporter]
    exact h.flushed
  obtain ⟨hsound, settled, hbooks, htelemetry⟩ := h.current hloop (hstep.ne_panicked hruns)
  refine ⟨settled, ?_, fun halone => ?_⟩
  · show Books _ _ (d.stream.loopStep now loop).1.reporter.metrics settled
    rw [hreporter]
    exact hbooks.turn hsound hstep.turn hruns (hstep.awaits hbooks.awaits)
  · exact hstep.totals (htelemetry halone)

theorem Accounts.consume (h : Accounts metricType alone d) {loop : DrainLoop}
    (hloop : d.reporter.loop = some loop) (hcase : loop.phase = .draining target final)
    (hbusy : d.traffic.consumer.isReturned = false) :
    Accounts metricType alone (d.consume loop target final) := by
  obtain ⟨-, settled, hbooks, htelemetry⟩ := h.current hloop (by rw [hcase]; nofun)
  have hsound' := h.sound.consume hloop hcase
  obtain ⟨phase, hdraining, hconsume⟩ := consume_eq d hcase
  rw [hconsume] at hsound' ⊢
  refine ⟨hsound', h.label, h.flushed.proceed hbusy, fun _ => ⟨settled, ?_, htelemetry⟩⟩
  obtain ⟨hanswers, hreturned, htotals, hflight, hbacked, hsettled, -⟩ := hbooks
  exact ⟨hanswers, hreturned, ⟨htotals.payloads, htotals.entries, htotals.bytes, htotals.failures,
    htotals.cancelled⟩, hflight, hbacked, hsettled,
    d.journal.awaits_of_underWay (DrainLoop.underWay_of_isDraining hdraining)⟩

theorem Accounts.move (h : Accounts metricType alone d) {now : Nat} {d' : Drainage}
    (hmove : LoopMove d now d') : Accounts metricType alone d' := by
  have hsound' := h.sound.move hmove
  cases hmove with
  | asleep hnone => exact h
  | step loop hloop hdrained =>
    exact h.step hloop hsound' hdrained
  | begin loop target final hloop hcase hidle hmore =>
    refine ⟨hsound', h.label, h.flushed.frame rfl ?_ ?_ ?_, h.books⟩
    · exact Ring.Traffic.act_origin _ _
    · simp only [Ring.Traffic.act, hidle, if_true]
      cases hc : d.traffic.consumer with
      | returned count => rfl
      | _ => rw [hc] at hidle; cases hidle
    · simp only [Ring.Traffic.act]
      split <;> rfl
  | consume loop target final hloop hcase hbusy => exact h.consume hloop hcase hbusy

theorem Accounts.send (h : Accounts metricType alone d) (place : Nat)
    {answer : Option SendOutcome} (hanswer : answer ≠ some .panicked) :
    Accounts metricType alone (d.send place answer) := by
  have hsound' := h.sound.send place answer
  unfold Drainage.send at hsound' ⊢
  cases hloop : d.reporter.loop with
  | none => exact h
  | some loop =>
    cases hplace : loop.tasks[place]? with
    | none => simpa only [hplace] using h
    | some task =>
      simp only [hloop, hplace] at hsound' ⊢
      refine ⟨hsound', h.label,
        h.flushed.frame (SendTask.Moment.step_entriesFlushed _ _ _) rfl rfl rfl, fun hruns => ?_⟩
      obtain ⟨-, settled, hbooks, htelemetry⟩ := h.current hloop hruns
      obtain ⟨now, hbooks', htelemetry'⟩ :=
        hbooks.send hplace hanswer d.reporter.metricType d.telemetry _
      rw [h.label] at htelemetry'
      refine ⟨settled ++ now, hbooks', fun halone => ?_⟩
      rw [h.label]
      exact htelemetry' (htelemetry halone)

theorem Accounts.start (h : Accounts metricType alone d) (now : Nat) (runtime : Bool) :
    Accounts metricType alone (d.act (.start now runtime)) := by
  have hsound' := h.sound.act (.start now runtime)
  simp only [Drainage.act] at hsound' ⊢
  cases hstart : d.reporter.start now runtime with
  | error error => exact h
  | ok reporter =>
    obtain ⟨hnew, rfl⟩ := start_eq_ok hstart
    have hdormant : d.loop = .dormant := by
      rw [Drainage.loop, (h.sound.unstarted hnew).1, Option.getD_none]
    obtain ⟨settled, hbooks, htelemetry⟩ := h.books (by simp [hdormant, DrainLoop.dormant])
    rw [hdormant] at hbooks
    rw [hstart] at hsound'
    exact ⟨hsound', h.label, h.flushed, fun _ => ⟨settled, ⟨hbooks.answers, hbooks.returned,
      hbooks.totals, hbooks.inFlight, hbooks.backed, hbooks.settled_backed, trivial⟩, htelemetry⟩⟩

theorem Accounts.write (h : Accounts metricType alone d) {act : Ring.Traffic.Act}
    (hact : (∃ value tag, act = .call value tag) ∨
      (∃ number spurious, act = .access number spurious) ∨
      ∃ clock, act = .tick clock)
    (hsound : Sound { d with traffic := d.traffic.act act }) :
    Accounts metricType alone { d with traffic := d.traffic.act act } := by
  refine ⟨hsound, h.label, h.flushed.frame rfl ?_ ?_ ?_, h.books⟩ <;>
    obtain ⟨value, tag, rfl⟩ | ⟨number, spurious, rfl⟩ | ⟨clock, rfl⟩ := hact
  · rfl
  · exact Ring.Traffic.act_origin _ _
  · rfl
  · rfl
  · exact congrArg Ring.Consume.untold (Ring.Traffic.access_consumer _ _)
  · rfl
  · rfl
  · exact Ring.Traffic.access_consumed _ _
  · rfl

theorem Accounts.act (h : Accounts metricType alone d) {act : Act}
    (hact : ∀ place, act ≠ .send place (some .panicked)) :
    Accounts metricType alone (d.act act) := by
  have hsound' := h.sound.act act
  cases act with
  | write value tag => exact h.write (.inl ⟨value, tag, rfl⟩) hsound'
  | access number spurious => exact h.write (.inr (.inl ⟨number, spurious, rfl⟩)) hsound'
  | tick clock => exact h.write (.inr (.inr ⟨clock, rfl⟩)) hsound'
  | retag tags => exact ⟨hsound', h.label, h.flushed, h.books⟩
  | drop =>
    refine ⟨hsound', h.label, h.flushed, fun hruns => ?_⟩
    obtain ⟨settled, hbooks, htelemetry⟩ := h.books hruns
    exact ⟨settled, hbooks, fun halone => (htelemetry halone).dropped _⟩
  | start now runtime => exact h.start now runtime
  | loop now => exact h.move (loopMove d now)
  | send place answer =>
    exact h.send place fun hanswer => hact place (congrArg (Act.send place) hanswer)
  | stop =>
    simp only [Drainage.act, Drainage.stop, Reporter.requestStop] at hsound' ⊢
    cases hattached : d.reporter.attached with
    | false =>
      simp only [hattached, Bool.false_eq_true, if_false] at hsound' ⊢
      exact ⟨hsound', h.label, h.flushed, h.books⟩
    | true =>
      simp only [hattached, if_true] at hsound' ⊢
      refine ⟨hsound', h.label, h.flushed, fun hruns => ?_⟩
      obtain ⟨settled, hbooks, htelemetry⟩ := h.books hruns
      exact ⟨settled, hbooks.mark _, htelemetry⟩

inductive Deed
  | own (act : Act)
  | elsewhere (report : Telemetry.Report)

def perform (d : Drainage) : Deed → Drainage
  | .own act => d.act act
  | .elsewhere report => { d with telemetry := d.telemetry.hear report }

def performAll (d : Drainage) (deeds : List Deed) : Drainage :=
  deeds.foldl perform d

theorem Accounts.perform (h : Accounts metricType alone d) {deed : Deed}
    (hanswer : ∀ place, deed ≠ .own (.send place (some .panicked)))
    (hspares : alone → ∀ report, deed = .elsewhere report → report.Spares metricType) :
    Accounts metricType alone (d.perform deed) := by
  cases deed with
  | own act => exact h.act fun place hact => hanswer place (congrArg Deed.own hact)
  | elsewhere report =>
    obtain ⟨hsound, hlabel, hflushed, hbooks⟩ := h
    refine ⟨?_, hlabel, hflushed, fun hruns => ?_⟩
    · exact ⟨hsound.traffic, hsound.unstarted, hsound.unasked, hsound.marked, hsound.made,
        hsound.loop, hsound.panicked⟩
    · obtain ⟨settled, hbooks, htelemetry⟩ := hbooks hruns
      exact ⟨settled, hbooks, fun halone => (htelemetry halone).hear (hspares halone report rfl)⟩

theorem Accounts.performAll (h : Accounts metricType alone d) {deeds : List Deed}
    (hanswers : ∀ place, Deed.own (.send place (some .panicked)) ∉ deeds)
    (hspares : alone → ∀ report, Deed.elsewhere report ∈ deeds → report.Spares metricType) :
    Accounts metricType alone (d.performAll deeds) := by
  induction deeds generalizing d with
  | nil => exact h
  | cons deed deeds ih =>
    refine ih (h.perform (fun place hdeed => ?_) fun halone report hdeed => ?_)
      (fun place hmem => hanswers place (List.mem_cons_of_mem _ hmem)) fun halone report hmem =>
        hspares halone report (List.mem_cons_of_mem _ hmem)
    · exact hanswers place (hdeed ▸ List.mem_cons_self)
    · exact hspares halone report (hdeed ▸ List.mem_cons_self)

/-! ## The end of a run -/

theorem Accounts.entriesFlushed (h : Accounts metricType alone d)
    (hidle : d.traffic.consumer.isReturned = true)
    (hcountable : d.traffic.ring.consumed - d.traffic.origin < UInt64.size) :
    d.reporter.metrics.entriesFlushed.toNat = d.traffic.ring.consumed - d.traffic.origin := by
  obtain ⟨flushed, hflushed, hsum⟩ := h.flushed
  have huntold : d.traffic.consumer.untold = 0 := by
    cases hconsumer : d.traffic.consumer with
    | returned count => rfl
    | _ =>
      rw [hconsumer] at hidle
      cases hidle
  have heq : d.traffic.ring.consumed - d.traffic.origin = flushed := by omega
  rw [heq] at hcountable ⊢
  rw [hflushed]
  exact UInt64.toNat_ofNat_of_lt' hcountable

theorem Sound.entriesIn_submitted (hs : d.Sound) (hended : d.loop.phase = .ended)
    (hpending : d.loop.pending = [])
    (hencoded : d.journal.encoded.map Prod.snd = d.journal.submitted) :
    d.journal.entriesIn (.range d.journal.submitted.length) =
      d.traffic.ring.consumed - d.traffic.origin := by
  have hidle : d.traffic.consumer.isReturned = true := hs.loop.isReturned (by rw [hended]; nofun)
  have hlength : d.journal.encoded.length = d.journal.submitted.length := by
    rw [← hencoded, List.length_map]
  have hdrained := hs.loop.drained
  rw [hpending, List.append_nil] at hdrained
  rw [Journal.entriesIn_range hlength, hdrained, ← Ring.Traffic.reached_of_isReturned hidle,
    ← hs.traffic.handed_length, Nat.add_sub_cancel_left]

theorem Accounts.ended (h : Accounts metricType alone d) (hloop : d.reporter.loop = some loop)
    (hruns : loop.phase ≠ .panicked) (hover : loop.isOver = true)
    (hcountable : d.journal.Countable) :
    d.journal.Balances d.reporter.metrics ∧
      (alone → d.telemetry.Agrees metricType d.journal d.reporter.metrics) := by
  have hs := h.sound
  obtain ⟨hended, hpending, htasks, -⟩ := hs.ended hloop hruns hover
  rw [← loop_eq hloop] at hended hpending htasks hruns
  obtain ⟨settled, hbooks, htelemetry⟩ := h.books hruns
  have hquiet : d.loop.phase.underWay = [] := by
    rw [hended]
    rfl
  have hencoded : d.journal.encoded.map Prod.snd = d.journal.submitted := by
    have hsubmitted := hs.loop.encoded
    rwa [hquiet, List.append_nil] at hsubmitted
  have hanswered := (hs.perm_range hruns hquiet htasks).2
  rw [← List.length_map Prod.snd, hencoded] at hanswered
  have hflushed : d.reporter.metrics.entriesFlushed.toNat =
      d.journal.entriesIn (.range d.journal.submitted.length) := by
    have hfits := hcountable.entries
    rw [hs.entriesIn_submitted hended hpending hencoded] at hfits ⊢
    exact h.entriesFlushed (hs.loop.isReturned (by rw [hended]; nofun)) hfits
  have hbalances := hbooks.balances htasks hencoded hanswered hflushed hcountable
  exact ⟨hbalances, fun halone => hbooks.agrees htasks hbalances (htelemetry halone)⟩

/-- Three payloads and two permits: the second send fails before the first one is delivered,
somebody else reports a send of another type, and the third send, which waited for a permit, is
cancelled. -/
def crossing : List Deed :=
  let own (acts : List Act) := acts.map Deed.own
  let write (number : Nat) := List.replicate 6 (Act.access number false)
  let loop (count : Nat) := List.replicate count (Act.loop 0)
  let send (place : Nat) (outcome : SendOutcome) :=
    [Act.send place none, .send place none, .send place (some outcome), .send place none,
      .send place none]
  own ([.write 10 0, .write 20 0, .write 30 0] ++ write 0 ++ write 1 ++ write 2 ++
      [.start 0 true] ++ loop 50) ++
    own (send 1 .failed) ++ [.elsewhere (.sent "Other" 5 1)] ++
    own (send 0 .delivered ++ [.stop] ++ loop 11 ++ send 2 .cancelled ++ loop 1)

def crossed : Drainage :=
  (ready "Values" ⟨1, 1, 2, 0⟩ bareValues (Ring.startingAt 4 5 {}) {}).performAll crossing

end Drainage

end MetricReporting
