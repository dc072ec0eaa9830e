import MetricReporting.Proofs.Ring.Crowd.Publication
import MetricReporting.Proofs.Ring.History

/-!
# A callback that uses its own ring

While a callback has its chunk it may store into it, write into the ring and begin further consumes,
and other threads may do so too. Further consumes are turned away, writes go past the chunk, and
only the callback's own stores show in it. Its return releases the chunk and nothing else; its panic
releases nothing, and the next consume shows the chunk again as it was left.
-/
namespace MetricReporting.Ring.Crowd

variable {c : Crowd} {a : Act} {place start len p : Nat}

/-! ## Calls that nobody interrupts -/

def writers (c : Crowd) : Traffic where
  ring := c.ring
  origin := 0
  calls := c.calls
  claims := c.claims

theorem eq_of_writers {c c' : Crowd} (hwriters : c.writers = c'.writers)
    (hconsumes : c.consumes = c'.consumes) : c = c' := by
  cases c
  cases c'
  cases hwriters
  cases hconsumes
  rfl

theorem writers_access (c : Crowd) (number : Nat) (spurious : Bool) :
    (c.access number spurious).writers = c.writers.access number spurious := by
  cases hcall : c.calls[number]? with
  | none => simp only [Crowd.access, Traffic.access, writers, hcall]
  | some call =>
    simp only [Crowd.access, Traffic.access, writers, hcall]
    rfl

theorem writers_run_access (c : Crowd) (number n : Nat) :
    (c.run (List.replicate n (.access number false))).writers =
        c.writers.run (List.replicate n (.access number false)) ∧
      (c.run (List.replicate n (.access number false))).consumes = c.consumes := by
  induction n generalizing c with
  | zero => exact ⟨rfl, rfl⟩
  | succ n ih =>
    obtain ⟨hwriters, hconsumes⟩ := ih (c.access number false)
    rw [writers_access] at hwriters
    exact ⟨hwriters, hconsumes.trans (access_consumes c number false)⟩

theorem writers_call (c : Crowd) (value : Int64) (tag : Int32) :
    (c.act (.call value tag)).writers = c.writers.act (.call value tag) := rfl

theorem run_cons (c : Crowd) (a : Act) (acts : List Act) : c.run (a :: acts) = (c.act a).run acts :=
  List.foldl_cons ..

theorem run_tryWrite (c : Crowd) (value : Int64) (tag : Int32) :
    ∃ call claims', c.run (.call value tag :: List.replicate 6 (.access c.calls.length false)) =
        { c with
          ring := (c.ring.tryWrite value tag).2
          calls := c.calls ++ [call]
          claims := claims' } ∧
      call.phase = .returned (c.ring.tryWrite value tag).1 := by
  obtain ⟨call, claims', hrun, hphase⟩ := c.writers.run_tryWrite value tag
  obtain ⟨hwriters, hconsumes⟩ :=
    writers_run_access (c.act (.call value tag)) c.calls.length 6
  rw [Traffic.run, List.foldl_cons, ← Traffic.run, ← writers_call] at hrun
  rw [run_cons]
  refine ⟨call, claims', ?_, hphase⟩
  exact eq_of_writers (hwriters.trans hrun) hconsumes

theorem enter_self {consume : Consume} (hat : c.consumes[place]? = some consume) :
    c.enter place c.ring consume = c := by
  obtain ⟨hplace, hget⟩ := List.getElem?_eq_some_iff.1 hat
  have hsame : c.consumes.set place consume = c.consumes := by rw [← hget, List.set_getElem_self]
  rw [enter, hsame]

theorem run_proceed (stop : Consume → Bool) {consume : Consume}
    (hat : c.consumes[place]? = some consume) (fuel : Nat) :
    ∃ n, c.run (List.replicate n (.proceed place)) =
      c.enter place (Consume.stepsUntil stop fuel (c.ring, consume)).1
        (Consume.stepsUntil stop fuel (c.ring, consume)).2 := by
  induction fuel generalizing c consume with
  | zero => exact ⟨0, (enter_self hat).symm⟩
  | succ fuel ih =>
    rw [Consume.stepsUntil]
    cases stop consume with
    | true => exact ⟨0, (enter_self hat).symm⟩
    | false =>
      obtain ⟨n, hrun⟩ := ih (c := c.act (.proceed place)) (by
        rw [Crowd.act, proceed_eq hat]
        exact enter_consumes_self hat _ _)
      refine ⟨n + 1, ?_⟩
      rw [List.replicate_succ]
      refine Eq.trans hrun ?_
      rw [Crowd.act, proceed_eq hat]
      simp only [enter, List.set_set, Bool.false_eq_true, ↓reduceIte]

/-! ## A callback at work -/

structure AtWork (c : Crowd) (place start len : Nat) : Prop where
  tidy : c.Tidy
  delivering : c.consumes[place]? = some (.delivering start len)

namespace AtWork

theorem chunk (h : c.AtWork place start len) : c.Chunk start len 0 0 :=
  h.tidy.sound.consumes place _ h.delivering

theorem inside (h : c.AtWork place start len) : c.Inside place :=
  ⟨_, h.delivering, rfl⟩

theorem guarded (h : c.AtWork place start len) : c.ring.guarded = true :=
  h.tidy.sound.guarded place h.inside

theorem consumed (h : c.AtWork place start len) : c.ring.consumed = start :=
  h.chunk.start_eq.symm

theorem len_le (h : c.AtWork place start len) : len ≤ c.ring.capacity := by
  have := h.chunk.le_written
  have := h.consumed
  have := h.tidy.sound.written_le
  omega

theorem waiting (h : c.AtWork place start len) (hle : start ≤ p) (hpublished : c.Published p) :
    c.Waiting p := by
  refine ⟨hpublished, ?_⟩
  rintro (hpassed | ⟨other, releasing, hother, hreleases⟩)
  · have := h.consumed
    omega
  · obtain rfl := h.tidy.sound.alone place other h.inside ⟨_, hother, hreleases.isInside⟩
    rw [← Option.some.inj (h.delivering.symm.trans hother)] at hreleases
    cases hreleases

theorem waiting_chunk (h : c.AtWork place start len) {i : Nat} (hi : i < len) :
    c.Waiting (start + i) :=
  h.waiting (Nat.le_add_right _ _) (h.chunk.published i hi)

theorem act (h : c.AtWork place start len) (hreturn : a ≠ .proceed place)
    (hpanic : a ≠ .panic place) : (c.act a).AtWork place start len := by
  refine ⟨h.tidy.act a, ?_⟩
  cases c.moved_act a with
  | stepped moving consume consume' ring' ha hat hstep hc' =>
    have hne : place ≠ moving := by
      rintro rfl
      exact hreturn ha
    rw [hc', enter_consumes_of_ne hne]
    exact h.delivering
  | panicked moving start' len' ha hat hc' =>
    have hne : place ≠ moving := by
      rintro rfl
      exact hpanic ha
    rw [hc', enter_consumes_of_ne hne]
    exact h.delivering
  | aside hconsumed hguarded hkeep hnew => exact hkeep place _ h.delivering

theorem not_delivers (h : c.AtWork place start len) (hreturn : a ≠ .proceed place) (p : Nat) :
    c.delivers a p = false := by
  by_contra hcon
  obtain ⟨other, start', len', rfl, hother, -⟩ := delivers_iff.1 (Bool.not_eq_false _ ▸ hcon)
  exact hreturn (congrArg _ (h.tidy.sound.alone other place ⟨_, hother, rfl⟩ h.inside))

end AtWork

def TurnedAway (consume : Consume) : Prop :=
  (∃ most, consume = .starting most) ∨ consume = .returned 0

theorem AtWork.turnedAway_act (h : c.AtWork place start len) (hpanic : a ≠ .panic place) {n : Nat}
    (hold : ∀ (other : Nat) (consume : Consume), n ≤ other → c.consumes[other]? = some consume →
      TurnedAway consume) :
    ∀ (other : Nat) (consume : Consume), n ≤ other → (c.act a).consumes[other]? = some consume →
      TurnedAway consume := by
  intro other consume hother hat
  cases c.moved_act a with
  | stepped moving before after ring' ha hbefore hstep hc' =>
    rw [hc'] at hat
    by_cases hne : other = moving
    · subst hne
      rw [enter_consumes_self hbefore, Option.some.injEq] at hat
      subst hat
      rcases hold other before hother hbefore with ⟨most, rfl⟩ | rfl
      · cases hstep with
        | turnedAway => exact Or.inr rfl
        | entered hfree =>
          rw [h.guarded] at hfree
          cases hfree
      · cases hstep
        exact Or.inr rfl
    · rw [enter_consumes_of_ne hne] at hat
      exact hold other consume hother hat
  | panicked moving start' len' ha hbefore hc' =>
    refine absurd ha fun ha => hpanic (ha.trans (congrArg _ ?_))
    exact h.tidy.sound.alone moving place ⟨_, hbefore, rfl⟩ h.inside
  | aside hconsumed hguarded hkeep hnew =>
    rcases hnew other consume hat with hbefore | ⟨most, rfl⟩
    · exact hold other consume hother hbefore
    · exact Or.inl ⟨most, rfl⟩

/-! ## What it can do -/

/-- Whatever follows, one callback returns with this entry in its chunk and no more; until then the
fence stays raised and only callbacks store into the slot. -/
def HandedOnce (c : Crowd) (p : Nat) (entry : Entry) : Prop :=
  ∀ later : List Act,
    (c.run later).Taken p ∧ c.deliveries later p = 1 ∨
      ¬ (c.run later).Taken p ∧ c.deliveries later p = 0 ∧
        (c.run later).ring.entryAt p = c.stored later p entry ∧ (c.run later).ring.fenceAt p ≠ 0

theorem Waiting.handedOnce (h : c.Waiting p) (ht : c.Tidy) : c.HandedOnce p (c.ring.entryAt p) := by
  intro later
  rcases h.run ht.sound later with ⟨hnone, hwaits, hentry, hfence⟩ | ⟨hone, htaken⟩
  · exact Or.inr ⟨hwaits.not_taken, hnone, hentry, hfence.trans_ne (ht.raised p h)⟩
  · exact Or.inl ⟨htaken, hone⟩

/-- A write that nobody interrupts, begun while a chunk is out: it is accepted unless so many
positions as there are slots are outstanding, the chunk among them, and then published behind all
that is claimed. -/
structure NestedWrite (d : Crowd) (value : Int64) (tag : Int32) (e : Crowd) : Prop where
  alone : ∃ call claims', e = { d with
    ring := (d.ring.tryWrite value tag).2, calls := d.calls ++ [call], claims := claims' } ∧
    call.phase = .returned (decide (d.ring.outstanding < d.ring.capacity))
  rejected : d.ring.capacity ≤ d.ring.outstanding → e.ring = d.ring
  accepted : d.ring.outstanding < d.ring.capacity → e.Published d.ring.written ∧
    e.ring.entryAt d.ring.written = ⟨d.ring.clock.now, value, tag⟩
  once : d.ring.outstanding < d.ring.capacity →
    e.HandedOnce d.ring.written ⟨d.ring.clock.now, value, tag⟩

/-- The panic gives the guard back and nothing else, and a next consume shows the chunk from its
beginning, and more if more is published by then. -/
structure NestedPanic (d : Crowd) (place start len : Nat) (e : Crowd) : Prop where
  unwound : e = d.enter place { d.ring with guarded := false } (.returned 0)
  kept : ∀ i < len, e.HandedOnce (start + i) (d.ring.entryAt (start + i))
  again : ∀ (edit : List Entry → List Entry) (most : Nat), ∃ n ring',
    min most len ≤ n ∧ n ≤ most ∧ e.ring.consumeEditing edit most =
      (if n = 0 then [] else [e.ring.chunk start n], n, ring') ∧ e.ring.Released n ring'

structure Contained (c : Crowd) (during : List Act) (place start len : Nat) (d : Crowd) : Prop where
  working : d.consumes[place]? = some (.delivering start len)
  guarded : d.ring.guarded = true
  consumed : d.ring.consumed = start
  outstanding : start + len ≤ d.ring.written
  /-- Only callbacks have stored into the chunk, and its fences stay raised. -/
  chunk : ∀ i < len,
    d.ring.entryAt (start + i) = c.stored during (start + i) (c.ring.entryAt (start + i)) ∧
      d.ring.fenceAt (start + i) = c.ring.fenceAt (start + i) ∧ d.ring.fenceAt (start + i) ≠ 0
  turnedAway : ∀ (other : Nat) (consume : Consume), c.consumes.length ≤ other →
    d.consumes[other]? = some consume → TurnedAway consume
  consume : ∀ most, d.run [.consume most, .proceed d.consumes.length] =
    { d with consumes := d.consumes ++ [.returned 0] }
  write : ∀ value tag, d.NestedWrite value tag
    (d.run (.call value tag :: List.replicate 6 (.access d.calls.length false)))
  returns : ∃ n ring',
    d.run (List.replicate n (.proceed place)) = d.enter place ring' (.returned len) ∧
    d.ring.Released len ring'
  panics : d.NestedPanic place start len (d.act (.panic place))

namespace AtWork

theorem run_consume (h : c.AtWork place start len) (most : Nat) :
    c.run [.consume most, .proceed c.consumes.length] =
      { c with consumes := c.consumes ++ [.returned 0] } := by
  have hat : (c.act (.consume most)).consumes[c.consumes.length]? = some (.starting most) :=
    List.getElem?_concat_length
  have hguarded : (c.act (.consume most)).ring.guarded = true := h.guarded
  have hset : (c.consumes ++ [Consume.starting most]).set c.consumes.length (.returned 0) =
      c.consumes ++ [.returned 0] := by
    rw [List.set_append_right _ _ (Nat.le_refl _), Nat.sub_self, List.set_cons_zero]
  show (c.act (.consume most)).proceed c.consumes.length = _
  rw [proceed_eq hat]
  simp only [Consume.step, hguarded, Bool.or_true, ↓reduceIte, enter]
  rw [← hset]
  rfl

theorem write (h : c.AtWork place start len) (value : Int64) (tag : Int32) :
    c.NestedWrite value tag
      (c.run (.call value tag :: List.replicate 6 (.access c.calls.length false))) := by
  have hrun := c.run_tryWrite value tag
  have ht := h.tidy.run (.call value tag :: List.replicate 6 (.access c.calls.length false))
  generalize c.run (.call value tag :: List.replicate 6 (.access c.calls.length false)) = e at *
  obtain ⟨call, claims', he, hphase⟩ := hrun
  have hring : e.ring = (c.ring.tryWrite value tag).2 := by rw [he]
  rcases Nat.lt_or_ge c.ring.outstanding c.ring.capacity with hroom | hfull
  · have htry := tryWrite_of_room value tag hroom
    have hshaped : Shaped { c.ring with
        written := c.ring.written + 1, clock := c.ring.clock.read.2 } :=
      ⟨h.tidy.sound.shaped.capacity_pos, h.tidy.sound.shaped.fences_size⟩
    have hentry : e.ring.entryAt c.ring.written = ⟨c.ring.clock.now, value, tag⟩ := by
      rw [hring, htry]
      exact hshaped.entryAt_setEntry _ _
    have hfence : e.ring.fenceAt c.ring.written ≠ 0 := by
      rw [hring, htry]
      exact ((hshaped.setEntry _ _).fenceAt_setFence _ _).trans_ne (raisedFence_ne_zero _)
    have hwritten : e.ring.written = c.ring.written + 1 := by rw [hring, htry]; rfl
    have hpublished : e.Published c.ring.written :=
      ht.sound.published_of_fence (by omega) hfence
    have hwork : e.AtWork place start len := ⟨ht, by rw [he]; exact h.delivering⟩
    have hwaiting : e.Waiting c.ring.written :=
      hwork.waiting (by have := h.chunk.le_written; omega) hpublished
    refine ⟨⟨call, claims', he, ?_⟩, fun hcon => absurd hcon (Nat.not_le.2 hroom),
      fun _ => ⟨hpublished, hentry⟩, fun _ => hentry ▸ hwaiting.handedOnce ht⟩
    rw [hphase, htry, decide_eq_true hroom]
  · have htry := tryWrite_of_full value tag hfull
    refine ⟨⟨call, claims', he, ?_⟩, fun _ => hring.trans (by rw [htry]),
      fun hcon => absurd hfull (Nat.not_le.2 hcon), fun hcon => absurd hfull (Nat.not_le.2 hcon)⟩
    rw [hphase, htry, decide_eq_false (Nat.not_lt.2 hfull)]

theorem returns (h : c.AtWork place start len) : ∃ n ring',
    c.run (List.replicate n (.proceed place)) = c.enter place ring' (.returned len) ∧
      c.ring.Released len ring' := by
  obtain ⟨ring', hclosed, hreleased⟩ := released_closed h.tidy.sound.shaped h.len_le
  obtain ⟨n, hrun⟩ := run_proceed Consume.isReturned h.delivering (2 * c.ring.capacity + 6)
  rw [h.consumed] at hclosed
  unfold Consume.closed at hclosed
  rw [hclosed] at hrun
  exact ⟨n, ring', hrun, hreleased⟩

theorem act_panic (h : c.AtWork place start len) : c.act (.panic place) =
    c.enter place { c.ring with guarded := false } (.returned 0) := by
  simp only [Crowd.act, panic, h.delivering]
  rfl

theorem panics (h : c.AtWork place start len) :
    c.NestedPanic place start len (c.act (.panic place)) := by
  have ht := h.tidy.act (.panic place)
  have hidle : ∀ other, ¬ (c.act (.panic place)).Inside other := by
    rw [h.act_panic]
    rintro other ⟨consume, hat, hin⟩
    by_cases hne : other = place
    · subst hne
      rw [enter_consumes_self h.delivering, Option.some.injEq] at hat
      subst hat
      cases hin
    · rw [enter_consumes_of_ne hne] at hat
      exact hne (h.tidy.sound.alone other place ⟨consume, hat, hin⟩ h.inside)
  refine ⟨h.act_panic, fun i hi => ?_, fun edit most => ?_⟩
  · have hpublished := (h.chunk.published i hi).act (.panic place)
    have hconsumed : (c.act (.panic place)).ring.consumed = start := by
      rw [h.act_panic]
      exact h.consumed
    have hwaiting := (waiting_iff hidle).2 ⟨hconsumed.trans_le (Nat.le_add_right _ _), hpublished⟩
    have hentry : (c.act (.panic place)).ring.entryAt (start + i) = c.ring.entryAt (start + i) := by
      rw [h.act_panic]
      rfl
    exact hentry ▸ hwaiting.handedOnce ht
  obtain ⟨n, ring', hrun, hout, hreleased⟩ := (ht.idle hidle).consumeEditing edit most
  have hspan : c.ring.index start + len ≤ c.ring.capacity := h.tidy.contiguous place _ h.delivering
  have hwritten := h.chunk.le_written
  have hstart := h.consumed
  rw [h.act_panic] at hrun hout hreleased ⊢
  have hreach : min most len ≤ Consume.reach c.ring most c.ring.consumed := by
    unfold Consume.reach
    rw [hstart]
    omega
  refine ⟨n, ring', ?_, ?_, hstart ▸ hout, hreleased⟩
  · by_contra hcon
    have hlimit : min most len ≤ Consume.reach c.ring most c.ring.consumed := hreach
    have hends : c.ring.fenceAt (c.ring.consumed + n) = 0 := hrun.ends (by
      show n < Consume.reach c.ring most c.ring.consumed
      omega)
    rw [hstart] at hends
    exact h.chunk.raised n (by omega) (Nat.zero_le _) hends
  · refine hrun.le.trans ?_
    unfold Consume.reach
    omega

theorem run (h : c.AtWork place start len) {during : List Act}
    (hduring : ∀ a ∈ during, a ≠ .proceed place ∧ a ≠ .panic place) :
    (c.run during).AtWork place start len := by
  induction during generalizing c with
  | nil => exact h
  | cons a during ih =>
    obtain ⟨ha, hrest⟩ := List.forall_mem_cons.1 hduring
    exact ih (h.act ha.1 ha.2) hrest

theorem run_turnedAway (h : c.AtWork place start len) {during : List Act}
    (hduring : ∀ a ∈ during, a ≠ .proceed place ∧ a ≠ .panic place) {n : Nat}
    (hold : ∀ (other : Nat) (consume : Consume), n ≤ other → c.consumes[other]? = some consume →
      TurnedAway consume) :
    ∀ (other : Nat) (consume : Consume), n ≤ other →
      (c.run during).consumes[other]? = some consume → TurnedAway consume := by
  induction during generalizing c with
  | nil => exact hold
  | cons a during ih =>
    obtain ⟨ha, hrest⟩ := List.forall_mem_cons.1 hduring
    exact ih (h.act ha.1 ha.2) hrest (h.turnedAway_act ha.2 hold)

theorem deliveries_eq_zero (h : c.AtWork place start len) {during : List Act}
    (hduring : ∀ a ∈ during, a ≠ .proceed place ∧ a ≠ .panic place) (p : Nat) :
    c.deliveries during p = 0 := by
  induction during generalizing c with
  | nil => rfl
  | cons a during ih =>
    obtain ⟨ha, hrest⟩ := List.forall_mem_cons.1 hduring
    rw [deliveries, h.not_delivers ha.1, ih (h.act ha.1 ha.2) hrest]
    rfl

end AtWork

/-- Whatever a callback and others do with the ring until it returns or panics, in every run. -/
theorem callback_contained (requested : Nat) (clock : Clock) (before during : List Act)
    (hat : (run { ring := Ring.ofCapacity requested clock } before).consumes[place]? =
      some (.delivering start len))
    (hduring : ∀ a ∈ during, a ≠ .proceed place ∧ a ≠ .panic place) :
    let c := run { ring := Ring.ofCapacity requested clock } before
    c.Contained during place start len (c.run during) := by
  intro c
  have hwork : c.AtWork place start len := ⟨(ofCapacity_tidy requested clock).run before, hat⟩
  have hwork' := hwork.run hduring
  refine ⟨hwork'.delivering, hwork'.guarded, hwork'.consumed, hwork'.chunk.le_written,
    fun i hi => ?_, hwork.run_turnedAway hduring fun other consume hother hconsume => ?_,
    hwork'.run_consume, hwork'.write, hwork'.returns, hwork'.panics⟩
  · rcases (hwork.waiting_chunk hi).run hwork.tidy.sound during with
      ⟨-, -, hentry, hfence⟩ | ⟨hone, -⟩
    · exact ⟨hentry, hfence, hwork'.chunk.raised i hi (Nat.zero_le _)⟩
    · rw [hwork.deliveries_eq_zero hduring] at hone
      cases hone
  · rw [List.getElem?_eq_none hother] at hconsume
    cases hconsume

def handingOut : List Act :=
  let write (number : Nat) := List.replicate 6 (Act.access number false)
  [.call 10 1, .call 20 2, .call 30 1, .call 40 2, .call 50 1] ++ write 0 ++ write 1 ++
    [.consume 5] ++
    List.replicate 15 (.proceed 0) ++ write 2 ++ write 3 ++ write 4 ++ [.consume 5] ++
    List.replicate 6 (.proceed 1)

/-- It writes into the last free slot, stores into its chunk, consumes, and writes again. -/
def reentering : List Act :=
  let write (number : Nat) := List.replicate 6 (Act.access number false)
  .call 60 2 :: write 5 ++ [.edit 1 1 ⟨7, 8, 9⟩, .consume 5, .proceed 2] ++ .call 70 1 :: write 6

theorem callback_contained_reentering :
    let c := run { ring := Ring.ofCapacity 4 {} } handingOut
    let d := c.run reentering
    c.consumes = [.returned 2, .delivering 2 2] ∧
      (∀ a ∈ reentering, a ≠ .proceed 1 ∧ a ≠ .panic 1) ∧
      d.calls.map WriteCall.phase = List.replicate 6 (.returned true) ++ [.returned false] ∧
      d.consumes = [.returned 2, .delivering 2 2, .returned 0] ∧
      c.Contained reentering 1 2 2 d ∧
      ∃ ring', (d.act (.panic 1)).ring.consumeEditing (fun _ => []) 2 =
        ([[⟨3, 30, 1⟩, ⟨7, 8, 9⟩]], 2, ring') := by
  have hbefore : (run { ring := Ring.ofCapacity 4 {} } handingOut).consumes =
      [.returned 2, .delivering 2 2] := by decide +kernel
  have hduring : ∀ a ∈ reentering, a ≠ .proceed 1 ∧ a ≠ .panic 1 := by decide
  have hcontained :=
    callback_contained 4 {} handingOut reentering (congrArg (fun row => row[1]?) hbefore)
    hduring
  have hphases : ((run { ring := Ring.ofCapacity 4 {} } handingOut).run reentering).calls.map
      WriteCall.phase = List.replicate 6 (.returned true) ++ [.returned false] := by decide +kernel
  have hafter : ((run { ring := Ring.ofCapacity 4 {} } handingOut).run reentering).consumes =
      [.returned 2, .delivering 2 2, .returned 0] := by decide +kernel
  have hchunk : ((run { ring := Ring.ofCapacity 4 {} } handingOut).run reentering).ring.chunk 2 2 =
      [⟨3, 30, 1⟩, ⟨7, 8, 9⟩] := by decide +kernel
  dsimp only at hcontained ⊢
  generalize (run { ring := Ring.ofCapacity 4 {} } handingOut).run reentering = d at *
  obtain ⟨n, ring', hle, hge, hshown, -⟩ := hcontained.panics.again (fun _ => []) 2
  obtain rfl : n = 2 := by omega
  have hsame : (d.act (.panic 1)).ring.chunk 2 2 = d.ring.chunk 2 2 := by
    rw [hcontained.panics.unwound]
    rfl
  rw [hsame, hchunk] at hshown
  exact ⟨hbefore, hduring, hphases, hafter, hcontained, ring', hshown⟩

end MetricReporting.Ring.Crowd
