import MetricReporting.Proofs.Reporter.DrainOnStop
import MetricReporting.Proofs.Ring.Stamps

/-!
# A reporter in time

Every act happens at a moment, which the clock of the loop and that of the ring tell alike. A
chronicle notes when the loop reads how far to drain, and since when everything that was there has
been drained. A payload holds no entry that was stamped before the last drain that got to its target
had read it.
-/
namespace MetricReporting

/-- What the clocks show at one moment: the loop's in nanoseconds, the ring's in ticks. -/
structure Moment where
  now : Nat
  ticks : Int64
deriving DecidableEq, Repr

namespace Moment

def Shows (offset : Int) (moment : Moment) : Prop :=
  moment.ticks.toInt = (offset + moment.now) / 100

instance (offset : Int) (moment : Moment) : Decidable (moment.Shows offset) :=
  inferInstanceAs (Decidable (_ = _))

structure Agreeing (offset : Int) (moments : List Moment) : Prop where
  shown : ∀ moment ∈ moments, moment.Shows offset
  forward : moments.Pairwise fun a b => a.now ≤ b.now

variable {offset : Int} {a b : Moment}

theorem Shows.le (ha : a.Shows offset) (hb : b.Shows offset) (hle : a.now ≤ b.now) :
    a.ticks ≤ b.ticks := by
  rw [Int64.le_iff_toInt_le, ha, hb]
  omega

/-- A time that 32 bits can tell in ticks, in nanoseconds. -/
def reach : Nat := (2 ^ 31 - 1) * 100

theorem Shows.sub_lt (ha : a.Shows offset) (hb : b.Shows offset) (hle : b.now ≤ a.now + reach) :
    b.ticks.toInt - a.ticks.toInt < 2 ^ 31 := by
  rw [Shows] at ha hb
  unfold reach at hle
  omega

end Moment

namespace Drainage

def Act.dated (moment : Moment) : Act → Act
  | .tick _ => .tick ⟨moment.ticks, 0⟩
  | .start _ runtime => .start moment.now runtime
  | .loop _ => .loop moment.now
  | act => act

/-- The first position whose entry is in no payload. -/
def encodedTo (d : Drainage) : Nat :=
  d.traffic.origin + d.journal.batches.flatten.length

variable {d : Drainage} {act : Act}

theorem act_stamps (hs : d.Sound) (act : Act) :
    Ring.Traffic.Stamps d.traffic.ring.clock.now d.traffic (d.act act).traffic := by
  have hother : act.isOther = true →
      Ring.Traffic.Stamps d.traffic.ring.clock.now d.traffic (d.act act).traffic := by
    intro hact
    have hsame : SameWriters d (d.act act) := other_sameWriters hact
    exact .of_same hsame.origin hsame.calls hsame.claims
  cases act with
  | write value tag => exact Ring.Traffic.stamps_call _ _ _
  | access number spurious => exact Ring.Traffic.stamps_access hs.traffic _ _
  | retag tags => exact .of_same rfl rfl rfl
  | drop => exact .of_same rfl rfl rfl
  | _ => exact hother rfl

/-- The act makes the loop encode the batch at hand. -/
def Encodes (d : Drainage) (act : Act) : Prop :=
  (∃ now, act = .loop now) ∧ ∃ next, d.loop.phase = .encoding next

theorem act_encoded (hnot : ¬ d.Encodes act) : (d.act act).journal.encoded = d.journal.encoded := by
  cases act with
  | loop now =>
    have hphase : ∀ next, d.loop.phase ≠ .encoding next := fun next hnext =>
      hnot ⟨⟨now, rfl⟩, next, hnext⟩
    have hmove := loopMove d now
    show (d.loopAct now).journal.encoded = _
    generalize d.loopAct now = d' at hmove ⊢
    cases hmove with
    | asleep hnone => rfl
    | step loop hloop hdrained =>
      rw [loop_eq hloop] at hphase
      exact (step_stepped hdrained).encoded_eq hphase
    | begin loop target final hloop hcase => rfl
    | consume loop target final hloop hcase =>
      unfold Drainage.consume
      dsimp only
      split <;> rfl
  | start now runtime =>
    simp only [Drainage.act]
    split <;> rfl
  | send place answer =>
    simp only [Drainage.act, Drainage.send]
    split
    · rfl
    · split
      · rfl
      · exact DrainLoop.heard_encoded _ _ _
  | _ => rfl

theorem encodedTo_of_not (hnot : ¬ d.Encodes act) : (d.act act).encodedTo = d.encodedTo := by
  rw [encodedTo, encodedTo, act_origin, Journal.batches, Journal.batches, act_encoded hnot]

theorem loop_traffic {now : Nat} (hphase : ∀ target final, d.loop.phase ≠ .draining target final) :
    (d.act (.loop now)).traffic = d.traffic := by
  have hmove := loopMove d now
  show (d.loopAct now).traffic = _
  generalize d.loopAct now = d' at hmove ⊢
  cases hmove with
  | asleep hnone => rfl
  | step loop hloop hdrained => rfl
  | begin loop target final hloop hcase => exact absurd hcase (loop_eq hloop ▸ hphase target final)
  | consume loop target final hloop hcase =>
      exact absurd hcase (loop_eq hloop ▸ hphase target final)

theorem encodes_encoded (hencodes : d.Encodes act) :
    (∃ payload, (d.act act).journal.encoded = d.journal.encoded ++ [(d.loop.pending, payload)] ∧
      (d.act act).loop.phase ≠ .panicked) ∨
      (d.act act).journal.encoded = d.journal.encoded ∧ (d.act act).loop.phase = .panicked := by
  obtain ⟨⟨now, rfl⟩, next, hnext⟩ := hencodes
  have hmove := loopMove d now
  rw [Drainage.act]
  generalize d.loopAct now = d' at hmove ⊢
  cases hmove with
  | asleep hnone =>
    rw [Drainage.loop, hnone] at hnext
    cases hnext
  | step loop hloop hdrained =>
    rw [loop_eq hloop] at hnext ⊢
    exact (step_stepped hdrained).exists_payload hnext
  | begin loop target final hloop hcase =>
    rw [loop_eq hloop, hcase] at hnext
    cases hnext
  | consume loop target final hloop hcase =>
    rw [loop_eq hloop, hcase] at hnext
    cases hnext

theorem Sound.pending_recorded (hs : d.Sound) {entry : Entry} (hmem : entry ∈ d.loop.pending) :
    ∃ p, d.encodedTo ≤ p ∧ d.traffic.recorded? p = some entry := by
  obtain ⟨i, hi⟩ := List.mem_iff_getElem?.1 hmem
  have hhanded : d.traffic.handed.flatten[d.journal.batches.flatten.length + i]? = some entry := by
    rw [← hs.loop.drained, List.getElem?_append_right (Nat.le_add_right _ _),
      Nat.add_sub_cancel_left]
    exact hi
  refine ⟨_, ?_, hs.traffic.recorded?_of_handed hhanded⟩
  rw [encodedTo]
  omega

theorem Sound.encodedTo_drained (hs : d.Sound) {final : Bool}
    (hcase : d.loop.phase = .drained final) :
    d.encodedTo = d.traffic.ring.consumed := by
  have hphase := hs.loop.phase
  have hidle : d.traffic.consumer.isReturned = true := hs.loop.isReturned (by rw [hcase]; nofun)
  have hdrained := hs.loop.drained
  rw [hcase] at hphase
  rw [hphase.1, List.append_nil] at hdrained
  rw [encodedTo, hdrained, hs.traffic.handed_length, Ring.Traffic.reached_of_isReturned hidle]

end Drainage

/-! ## Waiting for entries -/

namespace DrainLoop

/-- A loop that waits does so since the past, and no rest of it is to last beyond the interval. -/
def Phase.Waits (interval now : Nat) : Phase → Prop
  | .turning since | .watching since _ => since ≤ now
  | .resting since _ wakeAt => since ≤ now ∧ wakeAt ≤ since + interval
  | _ => True

variable {interval earlier now : Nat} {phase : Phase} {loop : DrainLoop} {stream : MetricStream}

theorem Phase.Waits.mono (h : phase.Waits interval earlier) (hle : earlier ≤ now) :
    phase.Waits interval now := by
  cases phase with
  | turning since => exact Nat.le_trans h hle
  | watching since idle => exact Nat.le_trans h hle
  | resting since idle wakeAt => exact ⟨h.1.trans hle, h.2⟩
  | _ => trivial

theorem rest_le (idle remaining : Nat) : rest idle remaining ≤ remaining := by
  unfold rest
  split
  · exact Nat.zero_le _
  · exact Nat.min_le_right _ _

theorem Passes.waits {pending : List Entry} {phase' : Phase}
    (hpasses : Passes stream now pending phase phase') (h : phase.Waits interval now) :
    phase'.Waits interval now := by
  cases hpasses with
  | watched lastFlush hruns => exact h
  | rested since idle wakeAt => exact h.1
  | turned => exact Nat.le_refl now
  | _ => trivial

theorem Stepped.waits {journal journal' : Journal} {stream' : MetricStream} {loop' : DrainLoop}
    (hstep : Stepped stream now journal loop stream' journal' loop')
    (h : loop.phase.Waits stream.settings.maxSpinning now) :
    loop'.phase.Waits stream.settings.maxSpinning now := by
  cases hstep with
  | pass phase hpasses => exact hpasses.waits h
  | rest since idle hcase hwaits =>
    have hsince : since ≤ now := by
      rw [hcase] at h
      exact h
    have hleft : ¬ stream.settings.maxSpinning ≤ now - since := by
      intro hover
      rw [MetricStream.waitIsOver, decide_eq_true hover, Bool.or_true] at hwaits
      cases hwaits
    have hrest := rest_le idle (stream.settings.maxSpinning - (now - since))
    exact ⟨hsince, by omega⟩
  | refuse payload entries next hcase hclosed => cases next <;> trivial
  | submit payload entries next hcase hopen hpermit => cases next <;> trivial
  | stay hready => exact h
  | _ => trivial

theorem waits_of_isDraining (h : phase.isDraining = true) : phase.Waits interval now := by
  cases phase with
  | draining target final => trivial
  | closing final => trivial
  | encoding next => trivial
  | _ => cases h

end DrainLoop

namespace Drainage

variable {d d' : Drainage} {moment : Moment} {now : Nat}

def Waits (now : Nat) (d : Drainage) : Prop :=
  d.loop.phase.Waits d.reporter.settings.maxSpinning now

theorem LoopMove.waits (hmove : LoopMove d now d') (h : d.Waits now) :
    d'.Waits now ∧ d'.reporter.settings = d.reporter.settings := by
  unfold Waits at h ⊢
  cases hmove with
  | asleep hnone => exact ⟨h, rfl⟩
  | step loop hloop hdrained =>
    rw [loop_eq hloop] at h
    have hstep : loop.Stepped d.stream now d.journal _ _ _ := step_stepped hdrained
    have hreporter : (d.stream.loopStep now loop).1.reporter = d.reporter := hstep.kept.1
    have hsettings := congrArg Reporter.settings hreporter
    refine ⟨?_, hsettings⟩
    show DrainLoop.Phase.Waits (d.stream.loopStep now loop).1.reporter.settings.maxSpinning now _
    rw [hreporter]
    exact hstep.waits h
  | begin loop target final hloop hcase => exact ⟨h, rfl⟩
  | consume loop target final hloop hcase =>
    obtain ⟨phase, hdraining, hconsume⟩ := consume_eq d hcase
    rw [hconsume]
    exact ⟨DrainLoop.waits_of_isDraining hdraining, rfl⟩

theorem Waits.act (h : d.Waits moment.now) (act : Act) :
    (d.act (act.dated moment)).Waits moment.now ∧
      (d.act (act.dated moment)).reporter.settings = d.reporter.settings := by
  cases act with
  | start now runtime =>
    simp only [Act.dated, Drainage.act]
    cases hstart : d.reporter.start moment.now runtime with
    | error error => exact ⟨h, rfl⟩
    | ok reporter =>
      obtain ⟨-, rfl⟩ := start_eq_ok hstart
      exact ⟨Nat.le_refl _, rfl⟩
  | loop now => exact (loopMove d moment.now).waits h
  | send place answer =>
    simp only [Act.dated, Drainage.act, Drainage.send]
    cases hloop : d.reporter.loop with
    | none => exact ⟨h, rfl⟩
    | some loop =>
      unfold Waits at h ⊢
      rw [loop_eq hloop] at h
      cases hplace : loop.tasks[place]? with
      | none =>
        simp only [hplace, loop_eq hloop]
        exact ⟨h, trivial⟩
      | some task =>
        simp only [hplace]
        exact ⟨h, trivial⟩
  | stop =>
    simp only [Act.dated, Drainage.act, Drainage.stop, Reporter.requestStop]
    split <;> exact ⟨h, rfl⟩
  | _ => exact ⟨h, rfl⟩

end Drainage

structure Chronicle where
  drainage : Drainage
  /-- The position that the last drain begun is to get to. -/
  target : Nat
  /-- When that position was read. -/
  aimed : Moment
  /-- When the last drain that got to its target had read it, or else the beginning. -/
  swept : Moment
  /-- For every payload encoded, `swept` at that time, and that time. -/
  encodings : List (Moment × Moment) := []

namespace Chronicle

open Drainage

def opening (moment : Moment) (d : Drainage) : Chronicle where
  drainage := d
  target := d.traffic.ring.written
  aimed := moment
  swept := moment

def tick (c : Chronicle) (moment : Moment) : Chronicle :=
  { c with drainage := c.drainage.act (.tick ⟨moment.ticks, 0⟩) }

def act (c : Chronicle) (moment : Moment) (act : Act) : Chronicle :=
  let d := c.drainage.act (act.dated moment)
  match act, c.drainage.loop.phase with
  | .loop _, .aiming _ =>
      { c with drainage := d, target := c.drainage.traffic.ring.written, aimed := moment }
  | .loop _, .drained _ =>
      let swept := if c.target ≤ c.drainage.traffic.ring.consumed then c.aimed else c.swept
      { c with drainage := d, swept := swept }
  | .loop _, .encoding _ =>
      let dates := if d.loop.phase = .panicked then [] else [(c.swept, moment)]
      { c with drainage := d, encodings := c.encodings ++ dates }
  | _, _ => { c with drainage := d }

theorem act_drainage (c : Chronicle) (moment : Moment) (act : Act) :
    (c.act moment act).drainage = c.drainage.act (act.dated moment) := by
  unfold Chronicle.act
  split <;> rfl

def run (c : Chronicle) (timeline : List (Moment × Act)) : Chronicle :=
  timeline.foldl (fun c item => (c.tick item.1).act item.1 item.2) c

/-- The entries of a payload were stamped between these moments. -/
structure Dated (offset : Int) (item : List Entry × Bytes) (dates : Moment × Moment) : Prop where
  begun : dates.1.Shows offset
  ended : dates.2.Shows offset
  stamped : ∀ entry ∈ item.1, dates.1.ticks ≤ entry.ticks ∧ entry.ticks ≤ dates.2.ticks

/-- What is known at a moment: what is not encoded yet was stamped after `swept`. -/
structure Aged (offset : Int) (last : Moment) (c : Chronicle) : Prop where
  sound : c.drainage.Sound
  claimsFirst : c.drainage.traffic.ClaimsFirst
  shown : last.Shows offset
  aimed_shown : c.aimed.Shows offset
  swept_shown : c.swept.Shows offset
  aimed_le : c.aimed.now ≤ last.now
  swept_le : c.swept.now ≤ last.now
  stamped : c.drainage.traffic.StampedUntil last.ticks
  aimed_stamped : c.drainage.traffic.StampedFrom c.target c.aimed.ticks
  swept_stamped : c.drainage.traffic.StampedFrom c.drainage.encodedTo c.swept.ticks
  waits : c.drainage.Waits last.now
  dates : List.Forall₂ (Dated offset) c.drainage.journal.encoded c.encodings

variable {c : Chronicle} {offset : Int} {last moment : Moment} {d : Drainage}

theorem opening_aged (metricType : String) (settings : DrainSettings) (writer : PayloadWriter)
    {ring : Ring} (hfresh : ring.Fresh) (tags : TagTable)
    (hshown : moment.Shows offset) :
    Aged offset moment (opening moment (ready metricType settings writer ring tags)) := by
  refine ⟨ready_sound metricType settings writer hfresh tags, nofun, hshown, hshown, hshown,
    Nat.le_refl _, Nat.le_refl _, nofun, ?_, ?_, Nat.zero_le _, .nil⟩
  · exact fun p entry _ hrecorded => nomatch hrecorded
  · exact fun p entry _ hrecorded => nomatch hrecorded

theorem Aged.tick (h : Aged offset last c) (hshown : moment.Shows offset)
    (hle : last.now ≤ moment.now) : Aged offset moment (c.tick moment) := by
  have hticks := h.shown.le hshown hle
  exact ⟨h.sound.act (.tick ⟨moment.ticks, 0⟩), h.claimsFirst, hshown, h.aimed_shown, h.swept_shown,
    h.aimed_le.trans hle, h.swept_le.trans hle,
    fun p entry hrecorded => Int64.le_trans (h.stamped p entry hrecorded) hticks,
    h.aimed_stamped, h.swept_stamped, h.waits.mono hle, h.dates⟩

theorem Aged.proceed (h : Aged offset last c)
    (hclock : c.drainage.traffic.ring.clock.now = last.ticks)
    (act : Act) {encodings : List (Moment × Moment)}
    (hdates :
      List.Forall₂ (Dated offset) (c.drainage.act (act.dated last)).journal.encoded encodings)
    (hgrows : c.drainage.journal.encoded <+: (c.drainage.act (act.dated last)).journal.encoded) :
    Aged offset last
      { c with drainage := c.drainage.act (act.dated last), encodings := encodings } := by
  have hstamps := act_stamps h.sound (act.dated last)
  rw [hclock] at hstamps
  have haimed := h.aimed_shown.le h.shown h.aimed_le
  have hswept := h.swept_shown.le h.shown h.swept_le
  have hfurther : c.drainage.encodedTo ≤ (c.drainage.act (act.dated last)).encodedTo := by
    have hlength := (hgrows.map Prod.fst).flatten.length_le
    rw [encodedTo, encodedTo, act_origin]
    exact Nat.add_le_add_left hlength _
  exact ⟨h.sound.act (act.dated last), hstamps.claimsFirst h.claimsFirst, h.shown, h.aimed_shown,
    h.swept_shown, h.aimed_le, h.swept_le,
    hstamps.stampedUntil h.claimsFirst h.stamped (Int64.le_refl _),
    hstamps.stampedFrom h.claimsFirst h.aimed_stamped haimed,
    (hstamps.stampedFrom h.claimsFirst h.swept_stamped hswept).mono hfurther,
    (h.waits.act act).1, hdates⟩

theorem Aged.silent (h : Aged offset last c)
    (hclock : c.drainage.traffic.ring.clock.now = last.ticks)
    (act : Act) (hnot : ¬ c.drainage.Encodes (act.dated last)) :
    Aged offset last { c with drainage := c.drainage.act (act.dated last) } := by
  have hencoded := act_encoded hnot
  exact h.proceed hclock act (hencoded ▸ h.dates) (hencoded ▸ List.prefix_refl _)

theorem Aged.encode (h : Aged offset last c)
    (hclock : c.drainage.traffic.ring.clock.now = last.ticks)
    (act : Act) (hencodes : c.drainage.Encodes (act.dated last)) :
    Aged offset last { c with
      drainage := c.drainage.act (act.dated last)
      encodings := c.encodings ++
        if (c.drainage.act (act.dated last)).loop.phase = .panicked then []
        else [(c.swept, last)] } := by
  rcases encodes_encoded hencodes with ⟨payload, hencoded, hruns⟩ | ⟨hencoded, hpanicked⟩
  on_goal 2 =>
    rw [if_pos hpanicked, List.append_nil]
    exact h.proceed hclock act (hencoded ▸ h.dates) (hencoded ▸ List.prefix_refl _)
  rw [if_neg hruns]
  have hdated : Dated offset (c.drainage.loop.pending, payload) (c.swept, last) := by
    refine ⟨h.swept_shown, h.shown, fun entry hmem => ?_⟩
    obtain ⟨p, hp, hrecorded⟩ := h.sound.pending_recorded hmem
    exact ⟨h.swept_stamped p entry hp hrecorded, h.stamped p entry hrecorded⟩
  refine h.proceed hclock act ?_ ?_
  · rw [hencoded]
    exact List.rel_append h.dates (.cons hdated .nil)
  · rw [hencoded]
    exact List.prefix_append _ _

/-- The loop reads how far to drain; no entry is stamped yet beyond that. -/
theorem Aged.aim (h : Aged offset last c) :
    Aged offset last { c with target := c.drainage.traffic.ring.written, aimed := last } :=
  ⟨h.sound, h.claimsFirst, h.shown, h.shown, h.swept_shown, Nat.le_refl _, h.swept_le, h.stamped,
    h.sound.traffic.stampedFrom_written _, h.swept_stamped, h.waits, h.dates⟩

theorem Aged.sweep (h : Aged offset last c) (hreached : c.target ≤ c.drainage.encodedTo) :
    Aged offset last { c with swept := c.aimed } :=
  ⟨h.sound, h.claimsFirst, h.shown, h.aimed_shown, h.aimed_shown, h.aimed_le, h.aimed_le, h.stamped,
    h.aimed_stamped, h.aimed_stamped.mono hreached, h.waits, h.dates⟩

theorem Aged.loop (h : Aged offset last c) (hclock : c.drainage.traffic.ring.clock.now = last.ticks)
    (now : Nat) : Aged offset last (c.act last (.loop now)) := by
  have hnot : (∀ next, c.drainage.loop.phase ≠ .encoding next) →
      ¬ c.drainage.Encodes (.loop last.now) := fun hphase hencodes => hencodes.2.elim hphase
  have hquiet : (∀ next, c.drainage.loop.phase ≠ .encoding next) →
      Aged offset last { c with drainage := c.drainage.act (.loop last.now) } :=
    fun hphase => h.silent hclock (.loop now) (hnot hphase)
  unfold Chronicle.act
  cases hcase : c.drainage.loop.phase with
  | aiming final =>
    have haimed := (hquiet (by rw [hcase]; nofun)).aim
    have hwritten : (c.drainage.act (.loop last.now)).traffic.ring.written =
        c.drainage.traffic.ring.written := by
      rw [loop_traffic (by rw [hcase]; nofun)]
    simp only [Act.dated, hwritten] at haimed ⊢
    exact haimed
  | drained final =>
    have hdrained := hquiet (by rw [hcase]; nofun)
    simp only [Act.dated]
    split
    · rename_i hreached
      refine hdrained.sweep (hreached.trans ?_)
      rw [← h.sound.encodedTo_drained hcase, encodedTo_of_not (hnot (by rw [hcase]; nofun))]
    · exact hdrained
  | encoding next => exact h.encode hclock (.loop now) ⟨⟨last.now, rfl⟩, next, hcase⟩
  | _ => exact hquiet (by rw [hcase]; nofun)

theorem Aged.act (h : Aged offset last c) (hclock : c.drainage.traffic.ring.clock.now = last.ticks)
    (act : Act) : Aged offset last (c.act last act) := by
  cases act with
  | loop now => exact h.loop hclock now
  | _ => exact h.silent hclock _ fun hencodes => nomatch hencodes.1

end Chronicle

end MetricReporting
