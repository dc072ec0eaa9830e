import MetricReporting.Proofs.Reporter.Moves
import Mathlib.Data.List.Infix

/-!
# A stop drains the ring

Every act of a reporter at work keeps what is known of it, so every run does. When a stop returns,
every position claimed before it was asked for has its entry in exactly one payload, and the sender
was called once with every payload and has answered; or else the writer made no payload of the batch
that is left.
-/
namespace MetricReporting

namespace Drainage

/-- The writer makes no payload of what is pending, under some tags. -/
def Unwritten (d : Drainage) : Prop :=
  ∃ tags, d.reporter.writer.encode? tags d.loop.pending = none

structure Sound (d : Drainage) : Prop where
  traffic : d.traffic.Sound
  unstarted : d.reporter.started = false →
    d.reporter.loop = none ∧ d.reporter.attached = false ∧ d.journal.stopMark = none
  unasked : d.reporter.attached = true → d.journal.stopMark = none
  marked : DrainLoop.Marked d.journal.stopMark d.reporter.stopRequested d.traffic.ring.written
  made : ∀ item ∈ d.journal.encoded, ∃ tags, d.reporter.writer.encode? tags item.1 = some item.2
  loop : d.loop.Sound d.traffic d.journal
  panicked : d.loop.phase = .panicked → d.Unwritten

variable {d : Drainage} {loop : DrainLoop} {target : Nat} {final : Bool}

theorem ready_sound (metricType : String) (settings : DrainSettings) (writer : PayloadWriter)
    {ring : Ring} (hfresh : ring.Fresh) (tags : TagTable) :
    (ready metricType settings writer ring tags).Sound := by
  refine ⟨Ring.Traffic.ofRing_sound hfresh, fun _ => ⟨rfl, rfl, rfl⟩, fun _ => rfl,
    (fun hfinal => nomatch hfinal), (fun _ hmem => nomatch hmem), ?_, nofun⟩
  exact ⟨(fun hbusy => nomatch hbusy), rfl, rfl, rfl, rfl,
    ⟨[], Sends.nil rfl rfl rfl, fun _ => rfl⟩, trivial⟩

theorem Sound.turn (hs : d.Sound) {traffic' : Ring.Traffic} (htraffic : traffic'.Sound)
    (hwritten : d.traffic.ring.written ≤ traffic'.ring.written)
    (hloop : d.loop.Sound traffic' d.journal) : Sound { d with traffic := traffic' } :=
  ⟨htraffic, hs.unstarted, hs.unasked, hs.marked.mono hwritten, hs.made, hloop, hs.panicked⟩

theorem Sound.write (hs : d.Sound) {traffic' : Ring.Traffic} (htraffic : traffic'.Sound)
    (hconsumer : traffic'.consumer = d.traffic.consumer)
    (hhanded : traffic'.handed = d.traffic.handed)
    (hwritten : d.traffic.ring.written ≤ traffic'.ring.written)
    (hconsumed : d.traffic.ring.consumed ≤ traffic'.ring.consumed) :
    Sound { d with traffic := traffic' } :=
  hs.turn htraffic hwritten (hs.loop.frame hconsumer hhanded hwritten hconsumed)

theorem Sound.advance (hs : d.Sound) (hloop : d.reporter.loop = some loop)
    {traffic' : Ring.Traffic} {journal' : Journal} {loop' : DrainLoop} (telemetry : Telemetry)
    (metrics : ReporterMetrics) (htraffic : traffic'.Sound)
    (hwritten : d.traffic.ring.written ≤ traffic'.ring.written)
    (hmark : journal'.stopMark = d.journal.stopMark)
    (hmade : ∀ item ∈ journal'.encoded, ∃ tags, d.reporter.writer.encode? tags item.1 = some item.2)
    (hsound : loop'.Sound traffic' journal')
    (hpanicked : loop'.phase = .panicked →
      ∃ tags, d.reporter.writer.encode? tags loop'.pending = none) :
    Sound { d with
      traffic := traffic'
      telemetry := telemetry
      reporter := { d.reporter with metrics := metrics, loop := some loop' }
      journal := journal' } := by
  refine ⟨htraffic, fun hnew => ?_, fun hattached => ?_, ?_, hmade, hsound, hpanicked⟩
  · rw [(hs.unstarted hnew).1] at hloop
    cases hloop
  · exact hmark.trans (hs.unasked hattached)
  · rw [hmark]
    exact hs.marked.mono hwritten

theorem Sound.start (hs : d.Sound) (now : Nat) (runtime : Bool) :
    (d.act (.start now runtime)).Sound := by
  simp only [Drainage.act]
  cases hstart : d.reporter.start now runtime with
  | error error => exact hs
  | ok reporter =>
    obtain ⟨hnew, rfl⟩ := start_eq_ok hstart
    obtain ⟨hnone, -, hmark⟩ := hs.unstarted hnew
    have hdormant : DrainLoop.dormant.Sound d.traffic d.journal := by
      have h := hs.loop
      rwa [Drainage.loop, hnone, Option.getD_none] at h
    have hidle : d.traffic.consumer.isReturned = true :=
      hdormant.isReturned (by simp [DrainLoop.dormant])
    have hruns : DrainLoop.dormant.phase ≠ .panicked := by simp [DrainLoop.dormant]
    refine ⟨hs.traffic, (fun hstarted => by cases hstarted), fun _ => hmark, hs.marked, hs.made, ?_,
      (fun hpanicked => by cases hpanicked)⟩
    exact ⟨fun hbusy => absurd hidle (Bool.eq_false_iff.1 hbusy), hdormant.drained,
      hdormant.encoded, hdormant.count, rfl, ⟨_, hdormant.sends_tasks hruns, fun _ => rfl⟩, trivial⟩

theorem Sound.step (hs : d.Sound) (hloop : d.reporter.loop = some loop)
    (hidle : d.traffic.consumer.isReturned = true)
    (hdrained : ∀ target final, loop.phase = .draining target final →
      target ≤ d.traffic.ring.consumed) (now : Nat) : (d.step now loop).Sound := by
  have hsound := hs.loop
  rw [loop_eq hloop] at hsound
  have hstep : DrainLoop.Stepped d.stream now d.journal loop _ _ _ :=
    DrainLoop.loopStep_stepped d.journal now hdrained
  have hreporter : (d.stream.loopStep now loop).1.reporter = d.reporter := hstep.kept.1
  simp only [Drainage.step, Drainage.put, hreporter]
  refine hs.advance hloop _ d.reporter.metrics hs.traffic (Nat.le_refl _)
    hstep.stopMark_eq (fun item hmem => ?_)
    (hsound.step hidle rfl hs.marked hstep) (fun hpanicked => ?_)
  · rcases hstep.mem_encoded hmem with hold | ⟨-, hmade⟩
    · exact hs.made item hold
    · exact ⟨d.tags, hmade⟩
  · obtain ⟨hpending, hbefore | hnone⟩ := hstep.panicked hpanicked
    · rw [hpending, ← loop_eq hloop]
      exact hs.panicked (loop_eq hloop ▸ hbefore)
    · rw [hpending]
      exact ⟨d.tags, hnone⟩

theorem Sound.consume (hs : d.Sound) (hloop : d.reporter.loop = some loop)
    (hcase : loop.phase = .draining target final) : (d.consume loop target final).Sound := by
  have hsound := hs.loop
  rw [loop_eq hloop] at hsound
  have hruns : loop.phase ≠ .panicked := by
    rw [hcase]
    nofun
  have hfilled := hsound.proceed hcase
  have htraffic : (d.traffic.proceed []).Sound := hs.traffic.proceed []
  have hwritten := (Ring.Traffic.proceed_written d.traffic).ge
  simp only [Drainage.consume]
  split
  · rename_i count hreturned
    have hidle : (d.traffic.proceed []).consumer.isReturned = true := by
      rw [hreturned]
      rfl
    obtain ⟨metrics, hmetrics⟩ :=
      DrainLoop.afterConsume_reporter (stream { d with traffic := d.traffic.proceed [] })
        { loop with
          pending := loop.pending ++
            (Ring.Consume.held d.traffic.ring d.traffic.consumer).getD [] } target final count
    simp only [Drainage.put, hmetrics]
    refine hs.advance hloop _ metrics htraffic hwritten rfl hs.made
      (hfilled.afterConsume hidle hcase count) fun hpanicked => absurd hpanicked ?_
    apply DrainLoop.afterConsume_ne_panicked
    exact hruns
  · exact hs.advance hloop d.telemetry d.reporter.metrics htraffic hwritten rfl hs.made hfilled
      fun hpanicked => absurd hpanicked hruns

theorem Sound.move (hs : d.Sound) {now : Nat} {d' : Drainage} (h : LoopMove d now d') :
    d'.Sound := by
  have hsound : ∀ loop, d.reporter.loop = some loop → loop.Sound d.traffic d.journal := by
    intro loop hloop
    exact loop_eq hloop ▸ hs.loop
  cases h with
  | asleep hnone => exact hs
  | step loop hloop hdrained =>
    have hidle : d.traffic.consumer.isReturned = true := by
      by_contra hbusy
      obtain ⟨target, final, hcase⟩ := (hsound loop hloop).idle (Bool.eq_false_iff.2 hbusy)
      exact hbusy (hdrained target final hcase).1
    exact hs.step hloop hidle (fun target final hcase => (hdrained target final hcase).2) now
  | begin loop target final hloop hcase =>
    refine hs.turn (hs.traffic.act _) (Ring.Traffic.act_consume_written _ _).ge ?_
    rw [loop_eq hloop]
    exact (hsound loop hloop).begin hcase _
  | consume loop target final hloop hcase => exact hs.consume hloop hcase

theorem Sound.send (hs : d.Sound) (place : Nat) (answer : Option SendOutcome) :
    (d.send place answer).Sound := by
  unfold Drainage.send
  cases hloop : d.reporter.loop with
  | none => exact hs
  | some loop =>
    have hsound := hs.loop
    rw [loop_eq hloop] at hsound
    cases hplace : loop.tasks[place]? with
    | none => simpa only [hplace] using hs
    | some task =>
      simp only [hplace]
      refine hs.advance hloop _ _ hs.traffic (Nat.le_refl _) (DrainLoop.heard_stopMark _ _ _) ?_
        (hsound.send hplace _ answer _ _ _) fun hpanicked => ?_
      · rw [DrainLoop.heard_encoded]
        exact hs.made
      · rw [← loop_eq hloop] at hpanicked ⊢
        exact hs.panicked hpanicked

theorem Sound.stop (hs : d.Sound) : d.stop.Sound := by
  unfold Drainage.stop Reporter.requestStop
  cases hattached : d.reporter.attached with
  | false => exact hs
  | true =>
    have hnone := hs.unasked hattached
    refine ⟨hs.traffic, fun hnew => ?_, (fun hattached => nomatch hattached), ?_, hs.made,
      hs.loop.ask hnone _, hs.panicked⟩
    · rw [(hs.unstarted hnew).2.1] at hattached
      cases hattached
    · exact fun _ => ⟨_, rfl, Nat.le_refl _⟩

theorem Sound.act (hs : d.Sound) (act : Act) : (d.act act).Sound := by
  cases act with
  | write value tag =>
    exact hs.write (hs.traffic.act _) rfl rfl (Nat.le_refl _) (Nat.le_refl _)
  | access number spurious =>
    exact hs.write (hs.traffic.act _) (Ring.Traffic.access_consumer _ _)
      (Ring.Traffic.access_handed _ _) (Ring.Traffic.written_le_access _ _)
      (Ring.Traffic.access_consumed _ _).ge
  | tick clock => exact hs.write (hs.traffic.act _) rfl rfl (Nat.le_refl _) (Nat.le_refl _)
  | retag tags =>
    exact ⟨hs.traffic, hs.unstarted, hs.unasked, hs.marked, hs.made, hs.loop, hs.panicked⟩
  | drop => exact ⟨hs.traffic, hs.unstarted, hs.unasked, hs.marked, hs.made, hs.loop, hs.panicked⟩
  | start now runtime => exact hs.start now runtime
  | loop now => exact hs.move (loopMove d now)
  | send place answer => exact hs.send place answer
  | stop => exact hs.stop

theorem Sound.run (hs : d.Sound) (acts : List Act) : (d.run acts).Sound := by
  induction acts generalizing d with
  | nil => exact hs
  | cons act acts ih => exact ih (hs.act act)

/-! ## Positions and payloads -/

section Blocks

variable {α : Type} {lists : List (List α)} {block block' : List α} {k k' i i' : Nat}

theorem exists_block {j : Nat} {a : α} (h : lists.flatten[j]? = some a) :
    ∃ k block i, lists[k]? = some block ∧ (lists.take k).flatten.length + i = j ∧
      block[i]? = some a := by
  induction lists generalizing j with
  | nil => simp at h
  | cons head rest ih =>
    rw [List.flatten_cons] at h
    by_cases hj : j < head.length
    · rw [List.getElem?_append_left hj] at h
      exact ⟨0, head, j, rfl, by simp, h⟩
    · rw [List.getElem?_append_right (Nat.not_lt.1 hj)] at h
      obtain ⟨k, block, i, hblock, hplace, ha⟩ := ih h
      refine ⟨k + 1, block, i, hblock, ?_, ha⟩
      rw [List.take_succ_cons, List.flatten_cons, List.length_append]
      omega

theorem flatten_take_le (hblock : lists[k]? = some block) (hlt : k < k') :
    (lists.take k).flatten.length + block.length ≤ (lists.take k').flatten.length := by
  have hprefix : lists.take (k + 1) <+: lists.take k' := List.take_prefix_take_left hlt
  have hlength := hprefix.flatten.length_le
  rw [List.take_add_one, hblock] at hlength
  simpa using hlength

theorem getElem?_block {a : α} (hblock : lists[k]? = some block) (ha : block[i]? = some a) :
    lists.flatten[(lists.take k).flatten.length + i]? = some a := by
  induction lists generalizing k with
  | nil => simp at hblock
  | cons head rest ih =>
    cases k with
    | zero =>
      obtain rfl : head = block := Option.some.inj hblock
      have hi := (List.getElem?_eq_some_iff.1 ha).1
      rw [List.take_zero, List.flatten_nil, List.length_nil, Nat.zero_add, List.flatten_cons,
        List.getElem?_append_left hi]
      exact ha
    | succ k =>
      have hrest := ih hblock
      rw [List.take_succ_cons, List.flatten_cons, List.flatten_cons, List.length_append,
        Nat.add_assoc, List.getElem?_append_right (Nat.le_add_right _ _), Nat.add_sub_cancel_left]
      exact hrest

theorem block_unique (hblock : lists[k]? = some block) (hblock' : lists[k']? = some block')
    (hi : i < block.length) (hi' : i' < block'.length)
    (hplace : (lists.take k).flatten.length + i = (lists.take k').flatten.length + i') :
    k = k' := by
  rcases Nat.lt_trichotomy k k' with hlt | heq | hlt
  · have := flatten_take_le hblock hlt
    omega
  · exact heq
  · have := flatten_take_le hblock' hlt
    omega

end Blocks

/-- The batch with this number holds the entry written at position `p`, and the sender was called
with its payload. -/
def Carries (d : Drainage) (number p : Nat) : Prop :=
  ∃ batch payload place entry, d.journal.encoded[number]? = some (batch, payload) ∧
    (∃ tags, d.reporter.writer.encode? tags batch = some payload) ∧
    d.traffic.origin + d.journal.before number + place = p ∧
    batch[place]? = some entry ∧ d.traffic.recorded? p = some entry ∧
    (number, payload) ∈ d.journal.called

theorem carries_unique {number number' p : Nat} (h : d.Carries number p)
    (h' : d.Carries number' p) :
    number = number' := by
  obtain ⟨batch, payload, place, entry, hbatch, -, hplace, hentry, -⟩ := h
  obtain ⟨batch', payload', place', entry', hbatch', -, hplace', hentry', -⟩ := h'
  refine block_unique (Journal.getElem?_batches hbatch) (Journal.getElem?_batches hbatch')
    (List.getElem?_eq_some_iff.1 hentry).1 (List.getElem?_eq_some_iff.1 hentry').1 ?_
  simp only [Journal.before] at hplace hplace'
  omega

/-- When the last drain is over, what is encoded is submitted, called and answered. -/
theorem Sound.ended (hs : d.Sound) (hloop : d.reporter.loop = some loop)
    (hruns : loop.phase ≠ .panicked) (hover : loop.isOver = true) :
    loop.phase = .ended ∧ loop.pending = [] ∧ loop.tasks = [] ∧
      DrainLoop.Marked d.journal.stopMark true d.traffic.ring.consumed := by
  have hphase := hs.loop.phase
  rw [loop_eq hloop] at hphase
  unfold DrainLoop.isOver at hover
  cases hcase : loop.phase with
  | ended =>
    rw [hcase] at hphase
    exact ⟨rfl, hphase⟩
  | panicked => exact absurd hcase hruns
  | aborted =>
    rw [hcase] at hphase
    exact hphase.elim
  | _ =>
    rw [hcase] at hover
    cases hover

theorem Sound.perm_range (hs : d.Sound) (hruns : d.loop.phase ≠ .panicked)
    (hquiet : d.loop.phase.underWay = []) (htasks : d.loop.tasks = []) :
    d.journal.callNumbers.Perm (List.range d.journal.encoded.length) ∧
      d.journal.answerNumbers.Perm (List.range d.journal.encoded.length) := by
  have hsends := hs.loop.sends_tasks hruns
  have hlength : d.journal.encoded.length = d.journal.submitted.length := by
    have hencoded := congrArg List.length hs.loop.encoded
    rwa [hquiet, List.append_nil, List.length_map] at hencoded
  have hall : ∀ number, number < d.journal.submitted.length →
      number ∈ d.journal.callNumbers ∧ number ∈ d.journal.answerNumbers := by
    intro number hlt
    exact hsends.gone number hlt (by rw [htasks]; exact List.not_mem_nil)
  rw [hlength]
  constructor
  · refine (List.perm_ext_iff_of_nodup hsends.called_nodup List.nodup_range).2 fun number => ?_
    rw [List.mem_range]
    exact ⟨hsends.callNumber_lt, fun hlt => (hall number hlt).1⟩
  · refine (List.perm_ext_iff_of_nodup hsends.answered_nodup List.nodup_range).2 fun number => ?_
    rw [List.mem_range]
    exact ⟨fun hmem => hsends.callNumber_lt (hsends.answered_called hmem),
      fun hlt => (hall number hlt).2⟩

theorem Sound.exists_carries (hs : d.Sound) (hruns : d.loop.phase ≠ .panicked)
    (hquiet : d.loop.phase.underWay = []) (htasks : d.loop.tasks = []) {p : Nat}
    (horigin : d.traffic.origin ≤ p)
    (hp : p < d.traffic.origin + d.journal.batches.flatten.length) :
    ∃ number, d.Carries number p := by
  have hj : p - d.traffic.origin < d.journal.batches.flatten.length := by omega
  obtain ⟨entry, hflat⟩ : ∃ entry, d.journal.batches.flatten[p - d.traffic.origin]? = some entry :=
    ⟨_, List.getElem?_eq_getElem hj⟩
  obtain ⟨number, batch, place, hbatch, hplace, hentry⟩ := exists_block hflat
  obtain ⟨⟨batch', payload⟩, hitem, hsame⟩ : ∃ item, d.journal.encoded[number]? = some item ∧
      item.1 = batch := by
    rw [Journal.batches, List.getElem?_map, Option.map_eq_some_iff] at hbatch
    exact hbatch
  obtain rfl : batch' = batch := hsame
  have hsubmitted : d.journal.submitted[number]? = some payload := by
    have hencoded := hs.loop.encoded
    rw [hquiet, List.append_nil] at hencoded
    rw [← hencoded, List.getElem?_map, hitem, Option.map_some]
  have hcalled : (number, payload) ∈ d.journal.called := by
    rcases (hs.loop.sends_tasks hruns).called_or_waiting hsubmitted with hcall | ⟨task, hmem, -⟩
    · exact hcall
    · rw [htasks] at hmem
      cases hmem
  refine ⟨number, batch', payload, place, entry, hitem, hs.made _ (List.mem_of_getElem? hitem), ?_,
    hentry, ?_, hcalled⟩
  · rw [Journal.before]
    omega
  · have hhanded : d.traffic.handed.flatten[p - d.traffic.origin]? = some entry := by
      rw [← hs.loop.drained, List.getElem?_append_left hj]
      exact hflat
    have hrecorded := hs.traffic.recorded?_of_handed hhanded
    rwa [Nat.add_sub_cancel' horigin] at hrecorded

/-- Once the last drain is over, what was claimed before the stop was asked for is in the
payloads. -/
theorem Sound.hands_over (hs : d.Sound) (hloop : d.reporter.loop = some loop)
    (hruns : loop.phase ≠ .panicked) (hover : loop.isOver = true) {mark : Nat}
    (hmark : d.journal.stopMark = some mark) {p : Nat}
    (hp : d.traffic.origin ≤ p) (hp' : p < mark) : ∃! number, d.Carries number p := by
  obtain ⟨hended, hpending, htasks, hbound⟩ := hs.ended hloop hruns hover
  obtain ⟨mark', hmark', hle⟩ := hbound rfl
  obtain rfl : mark' = mark := Option.some.inj (hmark'.symm.trans hmark)
  have hidle : d.traffic.consumer.isReturned = true := by
    apply hs.loop.isReturned
    rw [loop_eq hloop, hended]
    nofun
  have hquiet : d.loop.phase.underWay = [] := by
    rw [loop_eq hloop, hended]
    rfl
  rw [← loop_eq hloop] at hpending htasks hruns
  have hlength : d.traffic.origin + d.journal.batches.flatten.length = d.traffic.ring.consumed := by
    have hhanded := hs.traffic.handed_length
    have hdrained := hs.loop.drained
    rw [hpending, List.append_nil] at hdrained
    rw [hdrained, hhanded, Ring.Traffic.reached_of_isReturned hidle]
  obtain ⟨number, hcarries⟩ := hs.exists_carries hruns hquiet htasks hp (by omega)
  exact ⟨number, hcarries, fun other hother => carries_unique hother hcarries⟩

/-- A stop that returns has drained the ring: the entry of every position claimed before the stop
was asked for, wherever its call stood then, is in one payload only, and every payload's send is
over. This needs of the writer only that it did not panic, as it does where it makes no payload of a
batch. -/
theorem stop_hands_over (metricType : String) (settings : DrainSettings) (writer : PayloadWriter)
    (requested position : Nat) (clock : Clock) (tags : TagTable) (acts : List Act) (mark : Nat)
    (loop : DrainLoop) :
    let d :=
      (ready metricType settings writer (Ring.startingAt requested position clock) tags).run acts
    d.journal.stopMark = some mark → d.reporter.loop = some loop → loop.isOver = true →
      (loop.phase = .panicked → ∃ tags, writer.encode? tags loop.pending = none) ∧
      (loop.phase ≠ .panicked → loop.phase = .ended ∧ loop.tasks = [] ∧
      (∀ p, position ≤ p → p < mark → ∃! number, d.Carries number p) ∧
      d.journal.callNumbers.Perm (List.range d.journal.encoded.length) ∧
      d.journal.answerNumbers.Perm (List.range d.journal.encoded.length)) := by
  intro d hmark hloop hover
  have hs : d.Sound :=
    Drainage.Sound.run
      (ready_sound metricType settings writer (Ring.startingAt_fresh requested position clock) tags)
      acts
  have horigin : d.traffic.origin = position := run_origin _ acts
  refine ⟨fun hpanicked => ?_, fun hruns => ?_⟩
  · obtain ⟨tags', hnone⟩ := hs.panicked (by rw [loop_eq hloop, hpanicked])
    rw [loop_eq hloop, run_writer] at hnone
    exact ⟨tags', hnone⟩
  obtain ⟨hended, -, htasks, -⟩ := hs.ended hloop hruns hover
  have hquiet : d.loop.phase.underWay = [] := by
    rw [loop_eq hloop, hended]
    rfl
  have hcalls := hs.perm_range (by rwa [loop_eq hloop]) hquiet (by rw [loop_eq hloop, htasks])
  exact ⟨hended, htasks,
    fun p hp hp' => hs.hands_over hloop hruns hover hmark (horigin.le.trans hp) hp', hcalls⟩

/-- The stop comes while the first of two claimed positions is not published, the second payload
waits for the permit of the first, one send fails and the other is cancelled. -/
def straggling : List Act :=
  let write (number count : Nat) := List.replicate count (Act.access number false)
  let loop (count : Nat) := List.replicate count (Act.loop 0)
  let send (place : Nat) (outcome : SendOutcome) :=
    [.send place (some outcome), .send place none, .send place none]
  [.write 10 0, .write 20 0] ++ write 0 3 ++ write 1 6 ++ [.start 0 true, .stop] ++ loop 8 ++
    write 0 3 ++ loop 15 ++ [.send 0 none, .send 0 none] ++ loop 15 ++ send 0 .failed ++ loop 5 ++
    [.send 1 none, .send 1 none] ++ send 1 .cancelled ++ loop 1

def bareValues : PayloadWriter :=
  ⟨fun _ entries => some (entries.flatMap fun entry => Bytes.ofInt64 entry.value)⟩

theorem stop_hands_over_straggler :
    let d := (ready "Values" ⟨0, 0, 0, 0⟩ bareValues (Ring.startingAt 2 5 {}) {}).run straggling
    d.journal.stopMark = some 7 ∧ d.reporter.loop.map DrainLoop.isOver = some true ∧
      ∀ p, 5 ≤ p → p < 7 → ∃! number, d.Carries number p := by
  have hmark : ((ready "Values" ⟨0, 0, 0, 0⟩ bareValues (Ring.startingAt 2 5 {}) {}).run
      straggling).journal.stopMark = some 7 := by decide +kernel
  have hover : ((ready "Values" ⟨0, 0, 0, 0⟩ bareValues (Ring.startingAt 2 5 {}) {}).run
      straggling).reporter.loop.map DrainLoop.isOver = some true := by decide +kernel
  obtain ⟨loop, hloop, hdone⟩ := Option.map_eq_some_iff.1 hover
  obtain ⟨hwritten, h⟩ :=
    stop_hands_over "Values" ⟨0, 0, 0, 0⟩ bareValues 2 5 {} {} straggling 7 loop
    hmark hloop hdone
  have hruns : loop.phase ≠ .panicked := fun hpanicked => by
    obtain ⟨tags, hnone⟩ := hwritten hpanicked
    cases hnone
  exact ⟨hmark, hover, (h hruns).2.2.1⟩

end Drainage

end MetricReporting
