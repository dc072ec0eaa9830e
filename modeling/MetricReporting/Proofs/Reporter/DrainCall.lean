import MetricReporting.Proofs.Reporter.Room

/-!
# One call of the drain

A drain is watched from a look of the loop at its target to the end of the call, with a tally of
what it asks consumes for and what they return; writers, sends and the owner act in between as they
please. Main statement: whatever these do, the tally adds up to the consume position, to the
consumes that have returned something and to the moves of the loop.
-/
namespace MetricReporting

namespace Ring.Consume

/-- What is asked for, if a consume begins between the two. -/
def begun : Consume → Consume → Option Nat
  | .returned _, .starting most => some most
  | _, _ => none

/-- What is returned, if a consume ends between the two. -/
def ended (before after : Consume) : Option Nat :=
  if before.isReturned then none
  else match after with
    | .returned count => some count
    | _ => none

variable {before after : Consume}

theorem begun_self (consume : Consume) : begun consume consume = none := by
  cases consume <;> rfl

theorem begun_of_busy (h : before.isReturned = false) : begun before after = none := by
  cases before with
  | returned count => cases h
  | _ => rfl

theorem begun_starting (h : before.isReturned = true) (most : Nat) :
    begun before (.starting most) = some most := by
  cases before with
  | returned count => rfl
  | _ => cases h

theorem ended_self (consume : Consume) : ended consume consume = none := by
  cases consume <;> rfl

theorem ended_of_isReturned (h : before.isReturned = true) : ended before after = none :=
  if_pos h

theorem ended_of_busy (h : after.isReturned = false) : ended before after = none := by
  cases after with
  | returned count => cases h
  | _ => exact ite_self none

theorem ended_returned (h : before.isReturned = false) (count : Nat) :
    ended before (.returned count) = some count := by
  rw [ended, h]
  rfl

end Ring.Consume

/-- What a drain has asked consumes for, what they have returned, and the moves of the loop. -/
structure Tally where
  asked : List Nat := []
  answers : List Nat := []
  moves : Nat := 0
deriving DecidableEq, Repr

def Tally.after (tally : Tally) (own : Bool) (before after : Ring.Consume) : Tally where
  asked := tally.asked ++ (Ring.Consume.begun before after).toList
  answers := tally.answers ++ (Ring.Consume.ended before after).toList
  moves := tally.moves + own.toNat

structure DrainCall where
  drainage : Drainage
  tally : Tally := {}

namespace DrainCall

def watch (d : Drainage) : DrainCall :=
  { drainage := d }

def isOver (c : DrainCall) : Bool :=
  !c.drainage.loop.phase.inDrain

/-- Any act while the call goes on; what comes after the call is not watched. -/
def act (c : DrainCall) (act : Drainage.Act) : DrainCall :=
  if c.isOver then c
  else
    let drainage := c.drainage.act act
    ⟨drainage, c.tally.after (c.drainage.isMove act) c.drainage.traffic.consumer
      drainage.traffic.consumer⟩

def run (c : DrainCall) (acts : List Drainage.Act) : DrainCall :=
  acts.foldl act c

end DrainCall

/-! ## What the phase says of the call -/

namespace DrainLoop

/-- The call goes on to its target, or has gone as far as its kind asks. -/
def Next.Aims (consumed target : Nat) (final : Bool) : Next → Prop
  | .draining target' final' => target' = target ∧ final' = final
  | .drained final' => final' = final ∧ (final = true → target ≤ consumed)

def Phase.Aims (consumed target : Nat) (final : Bool) : Phase → Prop
  | .draining target' final' => target' = target ∧ final' = final
  | .closing final' | .drained final' => final' = final ∧ (final = true → target ≤ consumed)
  | .encoding next | .submitting _ _ next => next.Aims consumed target final
  | .panicked => True
  | _ => False

/-- How many consumes can have returned nothing in a call that does not wait for entries. -/
def Next.failures : Next → Nat
  | .draining _ _ => 0
  | .drained _ => 1

def Phase.failures : Phase → Nat
  | .draining _ _ => 0
  | .encoding next | .submitting _ _ next => next.failures
  | _ => 1

/-- How many moves can be left until the call is over or asks for more. -/
def Next.cost : Next → Nat
  | .draining _ _ => 4
  | .drained _ => 0

def Phase.cost (consumer : Ring.Consume) : Phase → Nat
  | .draining _ _ => if consumer.isReturned then 4 else consumer.cost + 6
  | .closing _ => 3
  | .encoding next => next.cost + 2
  | .submitting _ _ next => next.cost + 1
  | _ => 0

end DrainLoop

def Ring.Consume.underWay (consume : Consume) : Nat :=
  if consume.isReturned then 0 else 1

/-! ## The tally of a call -/

namespace Tally

/-- What a call of the drain, begun at position `base`, has done by now. -/
structure Counts (limit base target : Nat) (final : Bool) (g : Gauge) (tally : Tally) : Prop where
  aims : g.phase.Aims g.traffic.ring.consumed target final
  rooms : ∀ most ∈ tally.asked, 1 ≤ most ∧ most ≤ limit
  paired : tally.asked.length = tally.answers.length + g.traffic.consumer.underWay
  summed : g.traffic.ring.consumed = base + tally.answers.sum + g.traffic.consumer.untold
  fruitful : tally.answers.countP (0 < ·) + g.traffic.consumer.underWay ≤ target - base
  failures : final = false → tally.answers.count 0 ≤ g.phase.failures
  cost : tally.moves + g.phase.cost g.traffic.consumer ≤ tally.asked.length * (3 * limit + 12) + 4

variable {limit base target : Nat} {final : Bool} {g g' : Gauge} {tally : Tally} {own : Bool}
  {writer : PayloadWriter}

theorem Counts.pass (h : tally.Counts limit base target final g)
    (hconsumer : g'.traffic.consumer = g.traffic.consumer)
    (hconsumed : g'.traffic.ring.consumed = g.traffic.ring.consumed)
    (haims : g'.phase.Aims g.traffic.ring.consumed target final)
    (hfailures : g.phase.failures ≤ g'.phase.failures)
    (hcost : g'.phase.cost g.traffic.consumer + own.toNat ≤ g.phase.cost g.traffic.consumer) :
    (tally.after own g.traffic.consumer g'.traffic.consumer).Counts limit base target final g' := by
  have hcosts := h.cost
  simp only [after, hconsumer, Ring.Consume.begun_self, Ring.Consume.ended_self, Option.toList_none,
    List.append_nil]
  refine ⟨hconsumed ▸ haims, h.rooms, ?_, ?_, ?_,
    fun hfinal => (h.failures hfinal).trans hfailures, ?_⟩
  · rw [hconsumer]
    exact h.paired
  · rw [hconsumer, hconsumed]
    exact h.summed
  · rw [hconsumer]
    exact h.fruitful
  · rw [hconsumer]
    simp only
    omega

theorem countP_pos_le_sum (answers : List Nat) : answers.countP (0 < ·) ≤ answers.sum := by
  induction answers with
  | nil => exact Nat.le_refl _
  | cons answer answers ih =>
    rw [List.countP_cons, List.sum_cons]
    split
    · rename_i hpos
      have := of_decide_eq_true hpos
      omega
    · omega

theorem Counts.begin (h : tally.Counts limit base target final g) (hfilled : g.Filled limit)
    {target' : Nat} {final' : Bool} (hcase : g.phase = .draining target' final')
    (hidle : g.traffic.consumer.isReturned = true) (hmore : g.traffic.ring.consumed < target') :
    (tally.after true g.traffic.consumer (.starting (limit - g.pending.length))).Counts limit base
      target final
      { g with
        traffic := { g.traffic with consumer := .starting (limit - g.pending.length) } } := by
  obtain ⟨haims, hrooms, hpaired, hsummed, hfruitful, hfailures, hcost⟩ := h
  have hfills := hfilled.fills
  rw [hcase] at haims hfailures hfills hcost
  obtain ⟨rfl, rfl⟩ := haims
  have hroom : g.pending.length < limit := hfills.2 hidle
  have huntold := Ring.Consume.untold_of_isReturned hidle
  have hpositive := countP_pos_le_sum tally.answers
  simp only [Ring.Consume.underWay, hidle, if_true, huntold] at hpaired hsummed hfruitful
  simp only [DrainLoop.Phase.cost, hidle, if_true] at hcost
  simp only [after, Ring.Consume.begun_starting hidle, Ring.Consume.ended_of_isReturned hidle,
    Option.toList_some, Option.toList_none, List.append_nil]
  refine ⟨?_, fun most hmost => ?_, ?_, ?_, ?_, fun hfinal => ?_, ?_⟩
  · show g.phase.Aims _ _ _
    rw [hcase]
    exact ⟨rfl, rfl⟩
  · rcases List.mem_append.1 hmost with hold | hnew
    · exact hrooms most hold
    · rw [List.mem_singleton.1 hnew]
      omega
  · rw [List.length_append, hpaired]
    rfl
  · exact hsummed
  · show tally.answers.countP (0 < ·) + 1 ≤ target' - base
    omega
  · show tally.answers.count 0 ≤ g.phase.failures
    rw [hcase]
    exact hfailures hfinal
  · show tally.moves + 1 + g.phase.cost (.starting (limit - g.pending.length)) ≤ _
    rw [hcase, List.length_append, List.length_singleton, Nat.add_mul, Nat.one_mul]
    simp only [DrainLoop.Phase.cost, Ring.Consume.isReturned, Ring.Consume.cost, Bool.false_eq_true,
      if_false]
    omega

theorem onward_aims {size consumed : Nat} (consumer : Ring.Consume) :
    (DrainLoop.Phase.onward limit size target final consumer).Aims consumed target final := by
  unfold DrainLoop.Phase.onward
  split
  · cases final with
    | true => exact ⟨rfl, rfl⟩
    | false => exact ⟨rfl, nofun⟩
  · split <;> exact ⟨rfl, rfl⟩
  · exact ⟨rfl, rfl⟩

theorem onward_failures {size count : Nat} :
    (if count = 0 then 1 else 0) ≤
      (DrainLoop.Phase.onward limit size target false (.returned count)).failures := by
  cases count with
  | zero => exact Nat.le_refl 1
  | succ count => exact Nat.zero_le _

theorem onward_cost {size count : Nat} :
    (DrainLoop.Phase.onward limit size target final (.returned count)).cost
      (.returned count) ≤ 6 := by
  cases count with
  | zero =>
    cases final with
    | true => exact Nat.le_add_left 4 2
    | false => exact Nat.le_add_left 3 3
  | succ count =>
    simp only [DrainLoop.Phase.onward]
    split
    · exact Nat.le_refl 6
    · exact Nat.le_add_left 4 2

theorem Counts.goes_on (h : tally.Counts limit base target final g) (hfilled : g.Filled limit)
    (hcase : g.phase = .draining target final) (hbusy : g.traffic.consumer.isReturned = false)
    {traffic : Ring.Traffic} {pending : List Entry}
    (hstep : g.traffic.consumer.Stepped g.traffic.ring traffic.ring traffic.consumer)
    (hmoved : traffic.ring.consumed + g.traffic.consumer.untold =
      g.traffic.ring.consumed + traffic.consumer.untold + traffic.consumer.count)
    (hstill : traffic.consumer.isReturned = false) :
    (tally.after true g.traffic.consumer traffic.consumer).Counts limit base target final
      ⟨traffic, .draining target final, pending, g.encoded⟩ := by
  obtain ⟨-, hrooms, hpaired, hsummed, hfruitful, hfailures, hcost⟩ := h
  have hfills := hfilled.fills
  rw [hcase] at hfills hfailures hcost
  have hcheaper := hfills.1.cost_stepped hbusy hstep
  have hcount : traffic.consumer.count = 0 := by
    cases hc : traffic.consumer with
    | returned count => rw [hc] at hstill; cases hstill
    | _ => rfl
  simp only [after, Ring.Consume.begun_of_busy hbusy, Ring.Consume.ended_of_busy hstill,
    Option.toList_none, List.append_nil]
  refine ⟨⟨rfl, rfl⟩, hrooms, ?_, ?_, ?_, hfailures, ?_⟩
  · rw [hpaired, Ring.Consume.underWay, Ring.Consume.underWay, hbusy, hstill]
  · simp only
    omega
  · rwa [Ring.Consume.underWay, hbusy, ← hstill] at hfruitful
  · simp only [DrainLoop.Phase.cost, hbusy, hstill, Bool.false_eq_true, if_false, Bool.toNat_true]
      at hcost ⊢
    omega

theorem Counts.returns (h : tally.Counts limit base target final g) (hfilled : g.Filled limit)
    (hcase : g.phase = .draining target final) (hbusy : g.traffic.consumer.isReturned = false)
    {traffic : Ring.Traffic} {pending : List Entry} {size count : Nat}
    (hstep : g.traffic.consumer.Stepped g.traffic.ring traffic.ring traffic.consumer)
    (hmoved : traffic.ring.consumed + g.traffic.consumer.untold = g.traffic.ring.consumed + count)
    (hc : traffic.consumer = .returned count) :
    (tally.after true g.traffic.consumer traffic.consumer).Counts limit base target final
      ⟨traffic, .onward limit size target final traffic.consumer, pending, g.encoded⟩ := by
  obtain ⟨-, hrooms, hpaired, hsummed, hfruitful, hfailures, hcost⟩ := h
  have hfills := hfilled.fills
  rw [hcase] at hfills hfailures hcost
  have hcheaper := hfills.1.cost_stepped hbusy hstep
  simp only [Ring.Consume.underWay, hbusy, Bool.false_eq_true, if_false] at hpaired hfruitful
  simp only [after, Ring.Consume.begun_of_busy hbusy, hc, Ring.Consume.ended_returned hbusy,
    Option.toList_some, Option.toList_none, List.append_nil]
  refine ⟨onward_aims _, hrooms, ?_, ?_, ?_, fun hfinal => ?_, ?_⟩
  · rw [List.length_append, hpaired, hc]
    rfl
  · simp only [hc, Ring.Consume.untold, List.sum_append, List.sum_singleton]
    omega
  · have hone : [count].countP (0 < ·) ≤ 1 := List.countP_le_length
    rw [List.countP_append, hc]
    simp only [Ring.Consume.underWay, Ring.Consume.isReturned, if_true]
    omega
  · subst hfinal
    have hnone := hfailures rfl
    have hlast := @onward_failures limit target size count
    simp only [DrainLoop.Phase.failures] at hnone
    rw [List.count_append, List.count_singleton]
    simp only [beq_iff_eq]
    omega
  · have hlast := @onward_cost limit target final size count
    simp only [DrainLoop.Phase.cost, hbusy, Bool.false_eq_true, if_false] at hcost
    simp only [hc, Bool.toNat_true]
    omega

theorem Counts.access (h : tally.Counts limit base target final g) (hfilled : g.Filled limit)
    (hcase : g.phase = .draining target final) (hbusy : g.traffic.consumer.isReturned = false) :
    (tally.after true g.traffic.consumer (g.traffic.proceed []).consumer).Counts limit base target
      final { g with
        traffic := g.traffic.proceed []
        phase := .onward limit (g.pending ++ g.chunk).length target final
          (g.traffic.proceed []).consumer
        pending := g.pending ++ g.chunk } := by
  have hstep := g.traffic.proceed_stepped
  have hmoved := Ring.Consume.step_consumed g.traffic.ring hbusy
  rw [← (g.traffic.proceed_nil).1, ← (g.traffic.proceed_nil).2] at hmoved
  cases hreturned : (g.traffic.proceed []).consumer.isReturned with
  | false =>
    rw [Gauge.onward_of_busy hreturned]
    exact h.goes_on hfilled hcase hbusy hstep hmoved hreturned
  | true =>
    obtain ⟨count, hc⟩ := Ring.Consume.eq_returned hreturned
    have hreleased : (g.traffic.proceed []).ring.consumed + g.traffic.consumer.untold =
        g.traffic.ring.consumed + count := by
      rw [hc] at hmoved
      exact hmoved
    exact h.returns hfilled hcase hbusy hstep hreleased hc

theorem Counts.moved (h : tally.Counts limit base target final g) (hfilled : g.Filled limit)
    (hcall : g.phase.inDrain = true) (hmoved : g.Moved limit writer own g') :
    (tally.after own g.traffic.consumer g'.traffic.consumer).Counts limit base target final g' := by
  have haims := h.aims
  cases hmoved with
  | elsewhere traffic hconsumer hconsumed hhanded =>
    exact h.pass hconsumer hconsumed haims (Nat.le_refl _) (Nat.le_refl _)
  | outside _ phase hbefore =>
    rw [hbefore] at hcall
    cases hcall
  | begin target' final' hcase hidle hmore => exact h.begin hfilled hcase hidle hmore
  | access target' final' hcase hbusy =>
    rw [hcase] at haims
    obtain ⟨rfl, rfl⟩ := haims
    exact h.access hfilled hcase hbusy
  | reach target' final' hcase hidle hreached =>
    rw [hcase] at haims
    obtain ⟨rfl, rfl⟩ := haims
    refine h.pass rfl rfl ⟨rfl, fun _ => hreached⟩ ?_ ?_
    · rw [hcase]
      exact Nat.zero_le _
    · simp only [hcase, DrainLoop.Phase.cost, hidle, if_true]
      exact Nat.le_refl 4
  | empty final' hcase hempty =>
    rw [hcase] at haims
    refine h.pass rfl rfl haims ?_ ?_
    · rw [hcase]
      exact Nat.le_refl 1
    · rw [hcase]
      exact Nat.le_add_left 1 2
  | leave final' hcase hsome =>
    rw [hcase] at haims
    refine h.pass rfl rfl haims ?_ ?_
    · rw [hcase]
      exact Nat.le_refl 1
    · rw [hcase]
      exact Nat.le_refl 3
  | encode tags payload next hcase hpayload =>
    rw [hcase] at haims
    refine h.pass rfl rfl haims ?_ ?_
    · rw [hcase]
      exact Nat.le_refl _
    · rw [hcase]
      exact Nat.le_refl _
  | panic next hcase =>
    refine h.pass rfl rfl trivial ?_ ?_
    · rw [hcase]
      cases next with
      | draining | drained => exact Nat.le_of_ble_eq_true rfl
    · rw [hcase]
      exact Nat.le_add_left 1 _
  | submit payload entries next hcase =>
    have hidle := hfilled.isReturned (by rw [hcase]; nofun)
    rw [hcase] at haims
    cases next with
    | draining target' final' =>
      refine h.pass rfl rfl haims ?_ ?_
      · rw [hcase]
        exact Nat.le_refl _
      · simp only [hcase, DrainLoop.Phase.cost, DrainLoop.Next.phase, hidle, if_true]
        exact Nat.le_refl 5
    | drained final' =>
      refine h.pass rfl rfl haims ?_ ?_
      · rw [hcase]
        exact Nat.le_refl _
      · rw [hcase]
        exact Nat.le_refl 1

end Tally

/-! ## In every run -/

namespace DrainCall

structure Sound (limit base target : Nat) (final : Bool) (c : DrainCall) : Prop where
  steady : c.drainage.Steady limit
  counts : c.tally.Counts limit base target final c.drainage.gauge

variable {limit base target : Nat} {final : Bool} {c : DrainCall} {d : Drainage}

theorem act_of_isOver (h : c.isOver = true) (act : Drainage.Act) : c.act act = c :=
  if_pos h

theorem act_of_inDrain (h : c.isOver = false) (act : Drainage.Act) :
    c.act act = ⟨c.drainage.act act, c.tally.after (c.drainage.isMove act)
      c.drainage.traffic.consumer (c.drainage.act act).traffic.consumer⟩ := by
  rw [DrainCall.act, h]
  rfl

theorem moves_act_loop (c : DrainCall) (now : Nat) :
    c.isOver = true ∨ (c.act (.loop now)).tally.moves = c.tally.moves + 1 ∨
      c.drainage.loop.phase.underWay ≠ [] ∧ c.drainage.loop.permits = 0 := by
  cases hover : c.isOver with
  | true => exact Or.inl rfl
  | false =>
    refine Or.inr ?_
    rw [act_of_inDrain hover]
    cases hmove : c.drainage.isMove (.loop now) with
    | true => exact Or.inl rfl
    | false =>
      obtain ⟨hwaits, hnone⟩ := Bool.or_eq_false_iff.1 hmove
      obtain ⟨-, hnone⟩ := Bool.or_eq_false_iff.1 hnone
      exact Or.inr ⟨List.isEmpty_eq_false_iff.1 hwaits,
        Nat.eq_zero_of_not_pos (of_decide_eq_false hnone)⟩

theorem inDrain_of_not_over (h : c.isOver = false) : c.drainage.gauge.phase.inDrain = true := by
  rwa [isOver, Bool.not_eq_false'] at h

theorem Sound.act (h : c.Sound limit base target final) (act : Drainage.Act) :
    (c.act act).Sound limit base target final := by
  cases hover : c.isOver with
  | true =>
    rw [act_of_isOver hover]
    exact h
  | false =>
    rw [act_of_inDrain hover]
    exact ⟨h.steady.act act,
      h.counts.moved h.steady.filled (inDrain_of_not_over hover) (h.steady.moved act)⟩

theorem Sound.run (h : c.Sound limit base target final) (acts : List Drainage.Act) :
    (c.run acts).Sound limit base target final := by
  induction acts generalizing c with
  | nil => exact h
  | cons act acts ih => exact ih (h.act act)

theorem watch_sound (hsteady : d.Steady limit) (hphase : d.loop.phase = .draining target final)
    (hidle : d.traffic.consumer.isReturned = true) :
    (watch d).Sound limit d.traffic.ring.consumed target final := by
  have hgauge : d.gauge.phase = .draining target final := hphase
  have hgaugeIdle : d.gauge.traffic.consumer.isReturned = true := hidle
  obtain ⟨count, hcount⟩ := Ring.Consume.eq_returned hgaugeIdle
  refine ⟨hsteady, ?_⟩
  constructor
  · rw [watch, hgauge]
    exact ⟨rfl, rfl⟩
  · exact List.forall_mem_nil _
  · rw [watch, hcount]
    rfl
  · rw [watch, hcount]
    rfl
  · rw [watch, hcount]
    exact Nat.zero_le _
  · exact fun _ => Nat.zero_le _
  · rw [watch, hgauge, hcount]
    exact Nat.le_add_left 4 _

theorem Sound.over (h : c.Sound limit base target final) (hover : c.isOver = true) :
    c.drainage.loop.phase = .drained final ∨ c.drainage.loop.phase = .panicked := by
  have haims := h.counts.aims
  rw [isOver, Bool.not_eq_true'] at hover
  simp only [Drainage.gauge] at haims
  cases hcase : c.drainage.loop.phase with
  | drained final' =>
    rw [hcase] at haims
    exact Or.inl (congrArg DrainLoop.Phase.drained haims.1)
  | panicked => exact Or.inr rfl
  | draining | closing | encoding | submitting =>
    rw [hcase] at hover
    cases hover
  | turning | watching | resting | woken | aiming | finishing | ended | aborted =>
    rw [hcase] at haims
    exact haims.elim

end DrainCall

end MetricReporting
