import MetricReporting.Proofs.Reporter.Lifecycle

/-!
# What work leaves alone

Writers, the loop and its sends go on while the owner of a reporter does something else. They change
the counters of the reporter and its loop, and nothing that its owner's calls look at. Once a loop
has ended they change nothing of it at all.
-/
namespace MetricReporting

def Reporter.Worked (reporter reporter' : Reporter) : Prop :=
  ∃ metrics loop, reporter' = { reporter with metrics := metrics, loop := loop }

namespace Reporter.Worked

variable {reporter reporter' : Reporter}

theorem refl (reporter : Reporter) : reporter.Worked reporter :=
  ⟨reporter.metrics, reporter.loop, rfl⟩

theorem attached (h : reporter.Worked reporter') : reporter'.attached = reporter.attached := by
  obtain ⟨metrics, loop, rfl⟩ := h
  rfl

theorem metricType (h : reporter.Worked reporter') :
    reporter'.metricType = reporter.metricType := by
  obtain ⟨metrics, loop, rfl⟩ := h
  rfl

end Reporter.Worked

namespace Drainage

variable {d d' : Drainage} {act : Act}

structure Onward (d d' : Drainage) : Prop where
  reporter : d.reporter.Worked d'.reporter
  written : d.traffic.ring.written ≤ d'.traffic.ring.written

theorem Onward.refl (d : Drainage) : d.Onward d :=
  ⟨.refl _, Nat.le_refl _⟩

theorem LoopMove.onward {now : Nat} (h : LoopMove d now d') : d.Onward d' := by
  cases h with
  | asleep hnone => exact .refl d
  | step loop hloop hdrained =>
    have hreporter : (d.stream.loopStep now loop).1.reporter = d.reporter :=
      (step_stepped hdrained).kept.1
    refine ⟨⟨d.reporter.metrics, some (d.stream.loopStep now loop).2, ?_⟩, Nat.le_refl _⟩
    simp only [Drainage.step, Drainage.put, hreporter]
  | begin loop target final hloop hcase =>
    exact ⟨.refl _, (Ring.Traffic.act_consume_written _ _).ge⟩
  | consume loop target final hloop hcase =>
    rw [consume_onward d hcase]
    exact ⟨⟨_, _, rfl⟩, (Ring.Traffic.proceed_written _).ge⟩

theorem act_onward (hwork : act.isWork = true) : d.Onward (d.act act) := by
  cases act with
  | start now runtime => cases hwork
  | stop => cases hwork
  | access number spurious => exact ⟨.refl _, Ring.Traffic.written_le_access _ _⟩
  | loop now => exact (loopMove d now).onward
  | send place answer =>
    simp only [Drainage.act, Drainage.send]
    split
    · exact .refl d
    · split
      · exact .refl d
      · exact ⟨⟨_, _, rfl⟩, Nat.le_refl _⟩
  | _ => exact ⟨.refl _, Nat.le_refl _⟩

/-! ## At rest -/

def AtRest (d : Drainage) : Prop :=
  ∀ loop, d.reporter.loop = some loop → loop.phase = .ended ∧ loop.tasks = []

theorem AtRest.loopAct (h : d.AtRest) (now : Nat) : d.loopAct now = d := by
  unfold Drainage.loopAct
  cases hloop : d.reporter.loop with
  | none => rfl
  | some loop =>
    obtain ⟨hphase, -⟩ := h loop hloop
    have hstay : d.stream.loopStep now loop = (d.stream, loop) := by
      simp only [MetricStream.loopStep, hphase]
    simp only [hphase, Drainage.step, hstay, Drainage.put, Journal.noted, ← hloop]
    rfl

theorem AtRest.send (h : d.AtRest) (place : Nat) (answer : Option SendOutcome) :
    d.send place answer = d := by
  cases hloop : d.reporter.loop with
  | none => simp only [Drainage.send, hloop]
  | some loop =>
    obtain ⟨-, htasks⟩ := h loop hloop
    have hnone : loop.tasks[place]? = none := by rw [htasks]; rfl
    exact send_none hloop hnone answer

theorem AtRest.whole (h : d.AtRest) : d.loop.isTorn = false := by
  rw [Drainage.loop]
  cases hloop : d.reporter.loop with
  | none => rfl
  | some loop =>
    obtain ⟨hphase, -⟩ := h loop hloop
    rw [Option.getD_some, DrainLoop.isTorn, hphase]

theorem AtRest.reporter_act (h : d.AtRest) (hwork : act.isWork = true) :
    (d.act act).reporter = d.reporter := by
  cases act with
  | start now runtime => cases hwork
  | stop => cases hwork
  | loop now => rw [Drainage.act, h.loopAct]
  | send place answer => rw [Drainage.act, h.send]
  | _ => rfl

end Drainage

namespace Lifespan

variable {life : Lifespan} {act : Act} {mark : Option Nat} {loop : DrainLoop}

def Act.isWork : Act → Bool
  | .own act => act.isWork
  | .dispose => false
  | .linger _ _ | .abort _ => true

theorem act_onward (life : Lifespan) (hwork : act.isWork = true) :
    life.drainage.Onward (life.act act).drainage := by
  cases act with
  | own act => exact Drainage.act_onward hwork
  | dispose => cases hwork
  | linger place answer =>
    simp only [act, linger]
    split
    · exact .refl _
    · exact ⟨⟨_, _, rfl⟩, Nat.le_refl _⟩
  | abort place =>
    simp only [act, abort]
    split
    · exact .refl _
    · split <;> exact .refl _

structure AtRest (life : Lifespan) : Prop where
  orphans : life.orphans = []
  drainage : life.drainage.AtRest

theorem AtRest.work (h : life.AtRest) (hwork : act.isWork = true) :
    (life.act act).drainage.reporter = life.drainage.reporter ∧ (life.act act).AtRest := by
  cases act with
  | dispose => cases hwork
  | linger place answer =>
    rw [act, linger_of_whole h.orphans]
    exact ⟨rfl, h⟩
  | abort place =>
    rw [act, abort_of_whole h.orphans]
    exact ⟨rfl, h⟩
  | own act =>
    have hreporter := h.drainage.reporter_act hwork
    have hrest : (life.drainage.act act).AtRest := fun loop hloop =>
      h.drainage loop (hreporter ▸ hloop)
    exact ⟨hreporter, become_orphans h.orphans hrest.whole, hrest⟩

theorem AtRest.stop (h : life.AtRest) : (life.act (.own .stop)).AtRest := by
  have hloop : (life.drainage.act .stop).reporter.loop = life.drainage.reporter.loop := by
    simp only [Drainage.act, Drainage.stop, Reporter.requestStop]
    split <;> rfl
  have hrest : (life.drainage.act .stop).AtRest := fun loop hsome =>
    h.drainage loop (hloop ▸ hsome)
  exact ⟨become_orphans h.orphans hrest.whole, hrest⟩

theorem AtRest.dispose (h : life.AtRest) : (life.act .dispose).AtRest := by
  have hloop : life.drainage.reporter.dispose.loop = life.drainage.reporter.loop := by
    cases hloop : life.drainage.reporter.loop with
    | none => simp only [Reporter.dispose, hloop, Option.map_none, ite_self]
    | some loop =>
      have hover : loop.isOver = true := by
        rw [DrainLoop.isOver, (h.drainage loop hloop).1]
      exact (Reporter.dispose_over hloop hover).trans hloop
  have hrest : Drainage.AtRest { life.drainage with reporter := life.drainage.reporter.dispose } :=
    fun loop hsome => h.drainage loop (hloop ▸ hsome)
  exact ⟨become_orphans h.orphans hrest.whole, hrest⟩

theorem Running.atRest (h : Running mark life) (hloop : life.drainage.reporter.loop = some loop)
    (hover : loop.isOver = true) : life.AtRest := by
  have hloop' : (life.drainage.under (.started mark)).reporter.loop = some loop := hloop
  obtain ⟨hended, -, htasks, -⟩ := h.sound.ended hloop' (Drainage.loop_eq hloop ▸ h.runs) hover
  refine ⟨h.orphans, fun other hother => ?_⟩
  obtain rfl : loop = other := Option.some.inj (hloop.symm.trans hother)
  exact ⟨hended, htasks⟩

end Lifespan

end MetricReporting
