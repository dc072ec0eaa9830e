import MetricReporting.Proofs.Reporter.DrainOnStop
import MetricReporting.Proofs.Reporter.Lifespan

/-!
# A reporter seen under other marks

The calls of its owner leave marks on a reporter: whether its handle is there, whether it was asked
to stop, and at which position. Of these the loop reads one only, and a send none. So a state moves
as the same state does under other marks that agree on that one. What every drainage keeps can then
be known of a state that no run of one reaches: that of a reporter disposed of before its start.
-/
namespace MetricReporting

structure Marks where
  attached : Bool
  stopRequested : Bool
  stopMark : Option Nat

namespace Marks

def unstarted : Marks :=
  ⟨false, false, none⟩

def started (mark : Option Nat) : Marks :=
  ⟨mark.isNone, mark.isSome, mark⟩

end Marks

def Reporter.under (reporter : Reporter) (marks : Marks) : Reporter :=
  { reporter with
    attached := marks.attached
    stopRequested := marks.stopRequested
    sendsCancelled := false }

def Journal.under (journal : Journal) (marks : Marks) : Journal :=
  { journal with stopMark := marks.stopMark }

theorem Journal.noted_under (journal : Journal) (marks : Marks) (before after : DrainLoop) :
    (journal.under marks).noted before after = (journal.noted before after).under marks := by
  unfold Journal.noted
  split
  · rfl
  · rfl
  · split <;> rfl
  · rfl

theorem Journal.heard_under (journal : Journal) (marks : Marks) (task : SendTask)
    (answer : Option SendOutcome) :
    (journal.under marks).heard task answer = (journal.heard task answer).under marks := by
  unfold Journal.heard
  split <;> rfl

namespace MetricStream

def under (stream : MetricStream) (marks : Marks) : MetricStream :=
  { stream with reporter := stream.reporter.under marks }

theorem loopStep_under (stream : MetricStream) {loop : DrainLoop} {marks : Marks} {now : Nat}
    (hasked : stream.reporter.stopRequested = marks.stopRequested) :
    (stream.under marks).loopStep now loop =
      ((stream.loopStep now loop).1.under marks, (stream.loopStep now loop).2) := by
  have hunread : Unread fun reporter => reporter.under marks :=
    ⟨fun _ => rfl, fun _ => rfl, fun _ => rfl, fun _ _ => rfl⟩
  exact hunread.loopStep hasked.symm fun _ _ => rfl

end MetricStream

namespace Drainage

def under (d : Drainage) (marks : Marks) : Drainage :=
  { d with reporter := d.reporter.under marks, journal := d.journal.under marks }

def Act.isWork : Act → Bool
  | .start _ _ | .stop => false
  | _ => true

variable {d d' : Drainage} {loop : DrainLoop} {marks : Marks} {now : Nat}

theorem step_under (hasked : d.reporter.stopRequested = marks.stopRequested) :
    (d.under marks).step now loop = (d.step now loop).under marks := by
  have hstep : (d.under marks).stream.loopStep now loop =
      ((d.stream.loopStep now loop).1.under marks, (d.stream.loopStep now loop).2) :=
    d.stream.loopStep_under hasked
  show { (d.under marks).put ((d.under marks).stream.loopStep now loop) with
    journal := (d.journal.under marks).noted loop ((d.under marks).stream.loopStep now loop).2 } = _
  rw [hstep, Journal.noted_under]
  rfl

theorem consume_under {target : Nat} {final : Bool} (hcase : loop.phase = .draining target final) :
    (d.under marks).consume loop target final = (d.consume loop target final).under marks := by
  rw [consume_onward _ hcase, consume_onward _ hcase]
  rfl

theorem loopAct_under (hasked : d.reporter.stopRequested = marks.stopRequested) :
    (d.under marks).loopAct now = (d.loopAct now).under marks := by
  have hreporter : (d.under marks).reporter.loop = d.reporter.loop := rfl
  have htraffic : (d.under marks).traffic = d.traffic := rfl
  unfold loopAct
  rw [hreporter]
  cases d.reporter.loop with
  | none => rfl
  | some loop =>
    have hstep : (d.under marks).step now loop = (d.step now loop).under marks := step_under hasked
    cases hcase : loop.phase with
    | draining target final =>
      simp only [hcase, htraffic, hstep, consume_under hcase]
      split
      · rfl
      · split <;> rfl
    | _ => simpa only [hcase] using hstep

theorem send_under (d : Drainage) (marks : Marks) (place : Nat) (answer : Option SendOutcome) :
    (d.under marks).send place answer = (d.send place answer).under marks := by
  cases hloop : d.reporter.loop with
  | none =>
    have hloop' : (d.under marks).reporter.loop = none := hloop
    simp only [Drainage.send, hloop, hloop']
  | some loop =>
    have hloop' : (d.under marks).reporter.loop = some loop := hloop
    cases hplace : loop.tasks[place]? with
    | none => rw [send_none hloop hplace, send_none hloop' hplace]
    | some task =>
      rw [send_eq hloop hplace, send_eq hloop' hplace]
      show Drainage.mk _ _ _ _ _ ((d.journal.under marks).heard task answer) = _
      rw [Journal.heard_under]
      rfl

theorem act_under {act : Act} (hwork : act.isWork = true)
    (hasked : d.reporter.loop = none ∨ d.reporter.stopRequested = marks.stopRequested) :
    (d.under marks).act act = (d.act act).under marks := by
  cases act with
  | start now runtime => cases hwork
  | stop => cases hwork
  | send place answer => exact send_under d marks place answer
  | loop now =>
    rcases hasked with hnone | hasked
    · have hnone' : (d.under marks).reporter.loop = none := hnone
      simp only [Drainage.act, loopAct, hnone, hnone']
    · exact loopAct_under hasked
  | _ => rfl

/-! ## What work leaves to the owner -/

structure SameOwner (d d' : Drainage) : Prop where
  started : d'.reporter.started = d.reporter.started
  attached : d'.reporter.attached = d.reporter.attached
  stopRequested : d'.reporter.stopRequested = d.reporter.stopRequested
  awake : d'.reporter.loop.isSome = d.reporter.loop.isSome

theorem LoopMove.sameOwner (h : LoopMove d now d') : SameOwner d d' := by
  cases h with
  | asleep hnone => exact ⟨rfl, rfl, rfl, rfl⟩
  | begin loop target final hloop hcase => exact ⟨rfl, rfl, rfl, rfl⟩
  | step loop hloop hdrained =>
    have hreporter : (d.stream.loopStep now loop).1.reporter = d.reporter :=
      (step_stepped hdrained).kept.1
    have hstarted := congrArg Reporter.started hreporter
    have hattached := congrArg Reporter.attached hreporter
    have hasked := congrArg Reporter.stopRequested hreporter
    exact ⟨hstarted, hattached, hasked, hloop ▸ rfl⟩
  | consume loop target final hloop hcase =>
    rw [consume_onward d hcase]
    exact ⟨rfl, rfl, rfl, hloop ▸ rfl⟩

theorem act_sameOwner {act : Act} (hwork : act.isWork = true) : SameOwner d (d.act act) := by
  cases act with
  | start now runtime => cases hwork
  | stop => cases hwork
  | loop now => exact (loopMove d now).sameOwner
  | send place answer =>
    simp only [Drainage.act, Drainage.send]
    split
    · exact ⟨rfl, rfl, rfl, rfl⟩
    · rename_i hloop
      split
      · exact ⟨rfl, rfl, rfl, rfl⟩
      · exact ⟨rfl, rfl, rfl, hloop ▸ rfl⟩
  | _ => exact ⟨rfl, rfl, rfl, rfl⟩

/-! ## What is known under other marks -/

theorem Sound.whole (hs : d.Sound) (hruns : d.loop.phase ≠ .panicked) : d.loop.isTorn = false := by
  have hphase := hs.loop.phase
  unfold DrainLoop.isTorn
  cases hcase : d.loop.phase with
  | panicked => exact absurd hcase hruns
  | aborted =>
    rw [hcase] at hphase
    exact hphase.elim
  | _ => rfl

theorem Sound.tasks_of_panicked (hs : d.Sound) (hpanicked : d.loop.phase = .panicked) :
    d.loop.tasks = [] := by
  have hphase := hs.loop.phase
  rwa [hpanicked] at hphase

theorem Sound.work (hs : (d.under marks).Sound) {act : Act} (hwork : act.isWork = true)
    (hasked : d.reporter.loop = none ∨ d.reporter.stopRequested = marks.stopRequested) :
    ((d.act act).under marks).Sound :=
  act_under hwork hasked ▸ hs.act act

theorem Sound.begin (hs : (d.under .unstarted).Sound) (hnew : d.reporter.started = false)
    (now : Nat) : ((d.act (.start now true)).under (.started none)).Sound := by
  have hstart : (d.under .unstarted).act (.start now true) =
      (d.act (.start now true)).under (.started none) := by
    have hnew' : (d.under .unstarted).reporter.started = false := hnew
    simp only [Drainage.act, Reporter.start, hnew, hnew']
    rfl
  exact hstart ▸ hs.act (.start now true)

theorem Sound.ask (hs : (d.under (.started none)).Sound) :
    (d.under (.started (some d.traffic.ring.written))).Sound :=
  hs.stop

theorem stop_detached (h : d.reporter.attached = false) : d.stop = d := by
  simp only [Drainage.stop, Reporter.requestStop, h, Bool.false_eq_true, if_false]

theorem stop_under (d : Drainage) (marks : Marks) : d.stop.under marks = d.under marks := by
  unfold Drainage.stop Reporter.requestStop
  split <;> rfl

end Drainage

end MetricReporting
