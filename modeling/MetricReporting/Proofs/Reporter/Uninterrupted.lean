import MetricReporting.Proofs.Reporter.Views
import MetricReporting.Proofs.Ring.Uninterrupted
import MetricReporting.Reporter.Settle

/-!
# A loop that nobody interrupts

Acts of the loop in a row are steps of the loop, whose consume is then `Ring.consume`. So letting a
stream come to rest, or stopping it, on one thread is one of the interleavings of a reporter at
work.
-/
namespace MetricReporting

namespace Ring.Traffic

variable {t : Traffic}

theorem run_proceed_returned (h : t.consumer.isReturned = true) (n : Nat) :
    t.run (List.replicate n (.proceed [])) = t := by
  induction n with
  | zero => rfl
  | succ n ih =>
    have hstay : t.proceed [] = t := by
      cases hc : t.consumer with
      | returned count =>
        rw [proceed_eq (by rw [hc]; rfl), hc]
        simp only [Consume.step, ← hc]
      | _ => rw [hc] at h; cases h
    rw [List.replicate_succ, run, List.foldl_cons, act, hstay]
    exact ih

theorem run_proceed_handed (t : Traffic) (n : Nat) :
    ∃ chunks, (t.run (List.replicate n (.proceed []))).handed = t.handed ++ chunks := by
  induction n generalizing t with
  | zero => exact ⟨[], (List.append_nil _).symm⟩
  | succ n ih =>
    obtain ⟨chunks, hchunks⟩ := ih (t.proceed [])
    exact ⟨_, hchunks.trans (List.append_assoc _ _ _)⟩

end Ring.Traffic

namespace MetricStream

def withLoop (stream : MetricStream) (loop : DrainLoop) : MetricStream :=
  { stream with reporter := { stream.reporter with loop := some loop } }

def counting (stream : MetricStream) (moment : SendTask.Moment) : MetricStream :=
  { stream with
    telemetry := moment.telemetry
    reporter := { stream.reporter with metrics := moment.metrics } }

theorem afterConsume_buffer (stream : MetricStream) (loop : DrainLoop) (target : Nat) (final : Bool)
    (count : Nat) : (stream.afterConsume loop target final count).1.buffer = stream.buffer := by
  unfold afterConsume
  split <;> rfl

theorem loopStep_withLoop (now : Nat) (stream : MetricStream) (old loop : DrainLoop) :
    (stream.withLoop old).loopStep now loop =
      ((stream.loopStep now loop).1.withLoop old, (stream.loopStep now loop).2) := by
  have hunread : Unread fun reporter => { reporter with loop := some old } :=
    ⟨fun _ => rfl, fun _ => rfl, fun _ => rfl, fun _ _ => rfl⟩
  exact hunread.loopStep rfl fun _ _ => rfl

end MetricStream

namespace Drainage

variable {d d' : Drainage} {loop : DrainLoop} {target count : Nat} {final : Bool}

/-- Work alone leads from one state to the other. -/
def WorksTo (d d' : Drainage) : Prop :=
  ∃ acts : List Act, (∀ act ∈ acts, act.isWork = true) ∧ d.run acts = d'

theorem WorksTo.refl (d : Drainage) : d.WorksTo d :=
  ⟨[], List.forall_mem_nil _, rfl⟩

theorem WorksTo.trans {d'' : Drainage} (h : d.WorksTo d') (h' : d'.WorksTo d'') :
    d.WorksTo d'' := by
  obtain ⟨acts, hacts, rfl⟩ := h
  obtain ⟨more, hmore, rfl⟩ := h'
  exact ⟨acts ++ more, List.forall_mem_append.2 ⟨hacts, hmore⟩, List.foldl_append⟩

theorem WorksTo.sound (h : d.WorksTo d') (hs : d.Sound) : d'.Sound := by
  obtain ⟨acts, -, rfl⟩ := h
  exact hs.run acts

theorem worksTo_act {act : Act} (hwork : act.isWork = true) : d.WorksTo (d.act act) :=
  ⟨[act], List.forall_mem_singleton.2 hwork, rfl⟩

theorem worksTo_loop (d : Drainage) (now : Nat) : d.WorksTo (d.act (.loop now)) :=
  worksTo_act rfl

theorem flatten_toList {α : Type} (chunk : Option (List α)) :
    chunk.toList.flatten = chunk.getD [] := by
  cases chunk with
  | none => rfl
  | some entries => exact List.append_nil entries

theorem put_afterConsume (d : Drainage) (traffic traffic' : Ring.Traffic) (loop filled : DrainLoop)
    (target : Nat) (final : Bool) (count : Nat) :
    let before := ({ d with traffic := traffic } : Drainage).put (d.stream, filled)
    ({ before with traffic := traffic' } : Drainage).put
        ((stream { before with traffic := traffic' }).afterConsume loop target final count) =
      ({ d with traffic := traffic' } : Drainage).put
        ((stream { d with traffic := traffic' }).afterConsume loop target final count) := by
  simp only [MetricStream.afterConsume]
  split <;> rfl

theorem run_consume {n : Nat} {chunks : List (List Entry)} {traffic' : Ring.Traffic}
    (hloop : d.reporter.loop = some loop) (hphase : loop.phase = .draining target final)
    (hbusy : d.traffic.consumer.isReturned = false)
    (hrun : d.traffic.run (List.replicate n (.proceed [])) = traffic')
    (hreturned : traffic'.consumer = .returned count)
    (hhanded : traffic'.handed = d.traffic.handed ++ chunks) (now : Nat) :
    d.WorksTo (({ d with traffic := traffic' } : Drainage).put
      ((stream { d with traffic := traffic' }).afterConsume
        { loop with pending := loop.pending ++ chunks.flatten } target final count)) := by
  induction n generalizing d loop chunks with
  | zero =>
    have hsame : d.traffic = traffic' := hrun
    rw [hsame, hreturned] at hbusy
    cases hbusy
  | succ n ih =>
    have hrun' : (d.traffic.proceed []).run (List.replicate n (.proceed [])) = traffic' := hrun
    have hact : d.act (.loop now) = d.consume loop target final := by
      simp only [Drainage.act, loopAct, hloop, hphase, hbusy, Bool.not_false, if_true]
    have hstep : (d.traffic.proceed []).handed =
        d.traffic.handed ++ (Ring.Consume.held d.traffic.ring d.traffic.consumer).toList := rfl
    cases hnext : (d.traffic.proceed []).consumer.isReturned with
    | true =>
      rw [Ring.Traffic.run_proceed_returned hnext] at hrun'
      subst hrun'
      rw [hstep, List.append_right_inj] at hhanded
      have hfirst := d.worksTo_loop now
      rw [hact] at hfirst
      simp only [Drainage.consume, hreturned, ← hhanded, flatten_toList] at hfirst ⊢
      exact hfirst
    | false =>
      obtain ⟨chunks', hchunks'⟩ := Ring.Traffic.run_proceed_handed (d.traffic.proceed []) n
      rw [hrun'] at hchunks'
      have hsplit : chunks =
          (Ring.Consume.held d.traffic.ring d.traffic.consumer).toList ++ chunks' := by
        rw [hhanded, hstep, List.append_assoc, List.append_right_inj] at hchunks'
        exact hchunks'
      let filled : DrainLoop := { loop with
        pending := loop.pending ++
          (Ring.Consume.held d.traffic.ring d.traffic.consumer).getD [] }
      have hfilled : d.consume loop target final =
          ({ d with traffic := d.traffic.proceed [] } : Drainage).put (d.stream, filled) := by
        unfold Drainage.consume
        dsimp only
        split
        · rename_i count' hcount
          rw [hcount] at hnext
          cases hnext
        · rfl
      have hpending : filled.pending ++ chunks'.flatten = loop.pending ++ chunks.flatten := by
        rw [hsplit, List.flatten_append, ← List.append_assoc, flatten_toList]
      have hrest := @ih (d.consume loop target final) filled chunks' (by rw [hfilled]; rfl) hphase
        (by rw [hfilled]; exact hnext) (by rw [hfilled]; exact hrun')
        (by rw [hfilled]; exact hchunks')
      rw [hpending, hfilled, put_afterConsume, ← hfilled, ← hact] at hrest
      exact (d.worksTo_loop now).trans hrest

theorem put_stream {result : MetricStream × DrainLoop} (h : result.1.buffer = d.stream.buffer) :
    (d.put result).stream = result.1.withLoop result.2 := by
  rw [MetricStream.withLoop, h]
  rfl

theorem Sound.run_drainStep (hs : d.Sound) (hidle : d.traffic.consumer.isReturned = true)
    (hloop : d.reporter.loop = some loop) (hphase : loop.phase = .draining target final)
    (hshort : d.traffic.ring.consumed < target) (now : Nat) :
    ∃ d', d.WorksTo d' ∧ d'.traffic.consumer.isReturned = true ∧
      d'.stream = (d.stream.drainStep loop target final).1.withLoop
        (d.stream.drainStep loop target final).2 := by
  obtain ⟨n, chunks, hrun, hchunks⟩ := hs.traffic.run_consume hidle (d.stream.room loop)
  have hact : d.act (.loop now) =
      { d with traffic := d.traffic.act (.consume (d.stream.room loop)) } := by
    simp only [Drainage.act, loopAct, hloop, hphase, hidle, Bool.not_true, Bool.false_eq_true,
      if_false, if_pos hshort]
  have hbusy : (d.traffic.act (.consume (d.stream.room loop))).consumer.isReturned = false := by
    simp only [Ring.Traffic.act, if_pos hidle]
    rfl
  have hloop' : (d.act (.loop now)).reporter.loop = some loop := by rw [hact]; exact hloop
  have hbusy' : (d.act (.loop now)).traffic.consumer.isReturned = false := by rw [hact]; exact hbusy
  have hrun' := (congrArg (fun d : Drainage =>
    d.traffic.run (List.replicate n (.proceed []))) hact).trans hrun
  have hconsumed := run_consume hloop' hphase hbusy' hrun' rfl (by
    rw [hact]
    simp only [Ring.Traffic.act, if_pos hidle]
    rfl) now
  refine ⟨_, (d.worksTo_loop now).trans hconsumed, rfl, ?_⟩
  rw [hact, hchunks]
  exact put_stream (MetricStream.afterConsume_buffer _ _ _ _ _)

/-- Between two calls of its consumer, the state shows this stream with this loop. -/
structure Shows (d : Drainage) (stream : MetricStream) (loop : DrainLoop) : Prop where
  sound : d.Sound
  idle : d.traffic.consumer.isReturned = true
  stream_eq : d.stream = stream.withLoop loop

variable {stream : MetricStream}

theorem Shows.loop_eq (h : d.Shows stream loop) : d.reporter.loop = some loop :=
  congrArg (fun stream => stream.reporter.loop) h.stream_eq

theorem Shows.loopStep (h : d.Shows stream loop) (now : Nat) :
    ∃ d', d.WorksTo d' ∧ d'.Shows (stream.loopStep now loop).1 (stream.loopStep now loop).2 := by
  have hstep := stream.loopStep_withLoop now loop loop
  rw [← h.stream_eq] at hstep
  suffices hrun : ∃ d', d.WorksTo d' ∧ d'.traffic.consumer.isReturned = true ∧
      d'.stream = (d.stream.loopStep now loop).1.withLoop (d.stream.loopStep now loop).2 by
    obtain ⟨d', hworks, hidle, hstream⟩ := hrun
    rw [hstep] at hstream
    exact ⟨d', hworks, hworks.sound h.sound, hidle, hstream⟩
  by_cases hdrain : ∃ target final, loop.phase = .draining target final ∧
      d.traffic.ring.consumed < target
  · obtain ⟨target, final, hphase, hshort⟩ := hdrain
    obtain ⟨d', hworks, hidle, hstream⟩ :=
      h.sound.run_drainStep h.idle h.loop_eq hphase hshort now
    refine ⟨d', hworks, hidle, hstream.trans ?_⟩
    have hshort' : d.stream.buffer.ring.consumed < target := hshort
    simp only [MetricStream.loopStep, hphase, if_pos hshort']
  · have hdrained : ∀ target final, loop.phase = .draining target final →
        target ≤ d.traffic.ring.consumed := by
      intro target final hphase
      exact Nat.not_lt.1 fun hshort => hdrain ⟨target, final, hphase, hshort⟩
    have hact : d.act (.loop now) = d.step now loop := by
      simp only [Drainage.act, loopAct, h.loop_eq]
      cases hphase : loop.phase with
      | draining target final =>
        simp only [h.idle, Bool.not_true, Bool.false_eq_true, if_false,
          if_neg (Nat.not_lt.2 (hdrained target final hphase))]
      | _ => rfl
    have hbuffer : (d.stream.loopStep now loop).1.buffer = d.stream.buffer :=
      (DrainLoop.loopStep_kept now hdrained).2
    exact ⟨d.step now loop, hact ▸ d.worksTo_loop now, h.idle, put_stream hbuffer⟩

theorem Shows.runLoop (h : d.Shows stream loop) (ready : MetricStream → DrainLoop → Bool)
    (now fuel : Nat) :
    ∃ d', d.WorksTo d' ∧ d'.Shows (MetricStream.runLoop ready now fuel stream loop).1
      (MetricStream.runLoop ready now fuel stream loop).2 := by
  induction fuel generalizing d stream loop with
  | zero => exact ⟨d, .refl d, h⟩
  | succ fuel ih =>
    simp only [MetricStream.runLoop]
    split
    · obtain ⟨d', hworks, hshows⟩ := h.loopStep now
      obtain ⟨d'', hworks', hshows'⟩ := ih hshows
      exact ⟨d'', hworks.trans hworks', hshows'⟩
    · exact ⟨d, .refl d, h⟩

/-! ## Sends -/

def freed (before after : SendTask) : Nat :=
  if after.isEnded && !before.isEnded then 1 else 0

theorem Shows.send (h : d.Shows stream loop) {place : Nat} {task : SendTask}
    (hplace : loop.tasks[place]? = some task) (answer : Option SendOutcome) :
    let moment := SendTask.Moment.step stream.reporter.metricType answer
      ⟨task, stream.reporter.metrics, stream.telemetry⟩
    (d.act (.send place answer)).Shows (stream.counting moment) { loop with
      tasks := loop.tasks.set place moment.task
      permits := loop.permits + freed task moment.task } := by
  intro moment
  have hloop := h.loop_eq
  have hmetricType : d.reporter.metricType = stream.reporter.metricType :=
    congrArg (fun stream => stream.reporter.metricType) h.stream_eq
  have hmetrics : d.reporter.metrics = stream.reporter.metrics :=
    congrArg (fun stream => stream.reporter.metrics) h.stream_eq
  have htelemetry : d.telemetry = stream.telemetry := congrArg MetricStream.telemetry h.stream_eq
  have hact : d.act (.send place answer) = { d with
      telemetry := moment.telemetry
      reporter := { d.reporter with
        metrics := moment.metrics
        loop := some { loop with
          tasks := loop.tasks.set place moment.task
          permits := loop.permits + freed task moment.task } }
      journal := d.journal.heard task answer } := by
    simp only [Drainage.act, Drainage.send, hloop, hplace, hmetricType, hmetrics, htelemetry]
    rfl
  refine ⟨h.sound.act _, ?_, ?_⟩
  · rw [hact]
    exact h.idle
  · have hstream := congrArg (fun shown => (shown.counting moment).withLoop { loop with
      tasks := loop.tasks.set place moment.task
      permits := loop.permits + freed task moment.task }) h.stream_eq
    rw [hact]
    exact hstream

theorem freed_trans {before between after : SendTask}
    (hbetween : before.isEnded = true → between.isEnded = true)
    (hafter : between.isEnded = true → after.isEnded = true) :
    freed before between + freed between after = freed before after := by
  unfold freed
  cases hb : before.isEnded with
  | true => simp [hbetween hb, hafter (hbetween hb)]
  | false =>
    cases hm : between.isEnded with
    | true => simp [hafter hm]
    | false => simp

variable {σ : Type}

theorem exists_answer (model : SenderModel σ) (metricType : String) (state : σ × SendTask.Moment) :
    ∃ answer, (model.step metricType state).2 = state.2.step metricType answer := by
  unfold SenderModel.step
  split
  · exact ⟨none, rfl⟩
  · exact ⟨_, rfl⟩
  · exact ⟨none, rfl⟩

theorem Shows.polls (h : d.Shows stream loop) {place : Nat} {task : SendTask}
    (hplace : loop.tasks[place]? = some task) (model : SenderModel σ) (steps : List Unit)
    (sender : σ) :
    let moment := (steps.foldl (fun state _ => model.step stream.reporter.metricType state)
      (sender, ⟨task, stream.reporter.metrics, stream.telemetry⟩)).2
    (task.isEnded = true → moment.task.isEnded = true) ∧
      ∃ d', d.WorksTo d' ∧ d'.Shows (stream.counting moment) { loop with
        tasks := loop.tasks.set place moment.task
        permits := loop.permits + freed task moment.task } := by
  induction steps generalizing d stream loop task sender with
  | nil =>
    refine ⟨id, d, .refl d, ?_⟩
    obtain ⟨hlt, hget⟩ := List.getElem?_eq_some_iff.1 hplace
    have hset : loop.tasks.set place task = loop.tasks := by rw [← hget, List.set_getElem_self]
    have hfreed : freed task task = 0 := by simp [freed]
    simp only [List.foldl_nil, hset, hfreed]
    exact h
  | cons first steps ih =>
    let state : σ × SendTask.Moment :=
      (sender, ⟨task, stream.reporter.metrics, stream.telemetry⟩)
    obtain ⟨answer, hanswer⟩ := exists_answer model stream.reporter.metricType state
    have hsend := h.send hplace answer
    have hlt := (List.getElem?_eq_some_iff.1 hplace).1
    have hended := @SendTask.Moment.step_isEnded stream.reporter.metricType answer state.2
    rw [← hanswer] at hsend hended
    obtain ⟨hlast, d', hworks, hshows⟩ := ih hsend (List.getElem?_set_self hlt)
      (model.step stream.reporter.metricType state).1
    refine ⟨fun hfirst => hlast (hended hfirst), d', (worksTo_act rfl).trans hworks, ?_⟩
    let between := (model.step stream.reporter.metricType state).2.task
    let last := ((first :: steps).foldl
      (fun state _ => model.step stream.reporter.metricType state) state).2
    have hrun : d'.Shows (stream.counting last) { loop with
        tasks := (loop.tasks.set place between).set place last.task
        permits := loop.permits + freed task between + freed between last.task } := hshows
    have htotal : freed task between + freed between last.task = freed task last.task :=
      freed_trans hended hlast
    rw [List.set_set, Nat.add_assoc, htotal] at hrun
    exact hrun

theorem Shows.pollTasks {before rest : List SendTask} {permits : Nat}
    (h : d.Shows stream { loop with tasks := before ++ rest, permits := permits + count })
    (model : SenderModel σ) (sender : σ) :
    let result := MetricStream.pollTasks model stream.reporter.metricType rest sender
      stream.reporter.metrics stream.telemetry count
    ∃ d', d.WorksTo d' ∧ d'.Shows
      { stream with
        telemetry := result.2.2.2.1
        reporter := { stream.reporter with metrics := result.2.2.1 } }
      { loop with tasks := before ++ result.1, permits := permits + result.2.2.2.2 } := by
  induction rest generalizing d stream before count sender with
  | nil => exact ⟨d, .refl d, h⟩
  | cons task rest ih =>
    have hplace : (before ++ task :: rest)[before.length]? = some task := by
      rw [List.getElem?_append_right (Nat.le_refl _), Nat.sub_self, List.getElem?_cons_zero]
    let polled := model.poll stream.reporter.metricType
      (sender, ⟨task, stream.reporter.metrics, stream.telemetry⟩)
    obtain ⟨-, d', hworks, hshows⟩ : _ ∧ ∃ d', d.WorksTo d' ∧
        d'.Shows (stream.counting polled.2) { loop with
          tasks := (before ++ task :: rest).set before.length polled.2.task
          permits := permits + count + freed task polled.2.task } :=
      h.polls hplace model [(), (), (), (), ()] sender
    have hset : (before ++ task :: rest).set before.length polled.2.task =
        (before ++ [polled.2.task]) ++ rest := by
      rw [List.set_append_right _ _ (Nat.le_refl _), Nat.sub_self, List.set_cons_zero,
        List.append_assoc, List.singleton_append]
    have hcount : (if polled.2.task.isEnded && !task.isEnded then count + 1 else count) =
        count + freed task polled.2.task := by
      unfold freed
      split <;> rfl
    rw [hset, Nat.add_assoc] at hshows
    obtain ⟨d'', hworks', hshows'⟩ := ih hshows polled.1
    rw [List.append_assoc, ← hcount] at hshows'
    exact ⟨d'', hworks.trans hworks', hshows'⟩

theorem Shows.turn (h : d.Shows stream loop) (ready : MetricStream → DrainLoop → Bool)
    (model : SenderModel σ) (now : Nat) (sender : σ) :
    let result := MetricStream.turn ready model now sender stream loop
    ∃ d', d.WorksTo d' ∧ d'.Shows result.2.1 result.2.2 := by
  obtain ⟨d', hworks, hshows⟩ := h.runLoop ready now (stream.loopFuel loop)
  generalize hloop : MetricStream.runLoop ready now (stream.loopFuel loop) stream loop = reached
    at hshows
  obtain ⟨stream', loop'⟩ := reached
  obtain ⟨d'', hworks', hshows'⟩ :=
    @Shows.pollTasks _ loop' 0 stream' σ [] loop'.tasks loop'.permits hshows model sender
  refine ⟨d'', hworks.trans hworks', ?_⟩
  simp only [MetricStream.turn, hloop]
  exact hshows'

theorem Shows.turns (h : d.Shows stream loop) (ready : MetricStream → DrainLoop → Bool)
    (model : SenderModel σ) (now fuel : Nat) (sender : σ) :
    let result := MetricStream.turns ready model now fuel sender stream loop
    ∃ d', d.WorksTo d' ∧ d'.Shows result.2.1 result.2.2 := by
  induction fuel generalizing d stream loop sender with
  | zero => exact ⟨d, .refl d, h⟩
  | succ fuel ih =>
    obtain ⟨d', hworks, hshows⟩ := h.turn ready model now sender
    simp only [MetricStream.turns]
    split
    · obtain ⟨d'', hworks', hshows'⟩ :=
        ih hshows (MetricStream.turn ready model now sender stream loop).1
      exact ⟨d'', hworks.trans hworks', hshows'⟩
    · exact ⟨d', hworks, hshows⟩

/-- Running the loop and its sends down on one thread is one of their interleavings. -/
theorem Sound.exists_runDown (hs : d.Sound) (hidle : d.traffic.consumer.isReturned = true)
    (ready : MetricStream → DrainLoop → Bool) (model : SenderModel σ) (now : Nat) (sender : σ) :
    ∃ d', d.WorksTo d' ∧ d'.stream = (d.stream.runDown ready model now sender).2 ∧
      d'.traffic.consumer.isReturned = true := by
  unfold MetricStream.runDown
  cases hloop : d.stream.reporter.loop with
  | none => exact ⟨d, .refl d, rfl, hidle⟩
  | some loop =>
    have hshows : d.Shows d.stream loop := by
      refine ⟨hs, hidle, ?_⟩
      rw [MetricStream.withLoop, ← hloop]
    obtain ⟨d', hworks, hshows'⟩ := hshows.turns ready model now
      (d.stream.buffer.ring.outstanding + loop.pending.length + loop.tasks.length + 4) sender
    exact ⟨d', hworks, hshows'.stream_eq, hshows'.idle⟩

theorem Sound.exists_stop (hs : d.Sound) (hidle : d.traffic.consumer.isReturned = true)
    (model : SenderModel σ) (now : Nat) (sender : σ) :
    ∃ d', d.stop.WorksTo d' ∧ d'.stream = (d.stream.stop model now sender).2 ∧
      d'.traffic.consumer.isReturned = true := by
  unfold MetricStream.stop
  split
  · have hstop : d.stop.stream = { d.stream with reporter := d.stream.reporter.requestStop } := rfl
    rw [← hstop]
    exact hs.stop.exists_runDown hidle (MetricStream.loopReady now) model now sender
  · rename_i hdetached
    rw [stop_detached (Bool.eq_false_iff.2 hdetached)]
    exact ⟨d, .refl d, rfl, hidle⟩

end Drainage

/-! ## What others report

All reporters report to the same telemetry. None looks at it, so what the others have reported makes
no difference to what becomes of a reporter.
-/

namespace MetricStream

def amid (stream : MetricStream) (telemetry : Telemetry) : MetricStream :=
  { stream with telemetry := telemetry }

@[simp] theorem amid_reporter (stream : MetricStream) (telemetry : Telemetry) :
    (stream.amid telemetry).reporter = stream.reporter := rfl

@[simp] theorem amid_buffer (stream : MetricStream) (telemetry : Telemetry) :
    (stream.amid telemetry).buffer = stream.buffer := rfl

theorem afterConsume_amid (stream : MetricStream) (telemetry : Telemetry) (loop : DrainLoop)
    (target : Nat) (final : Bool) (count : Nat) :
    (stream.amid telemetry).afterConsume loop target final count =
      ((stream.afterConsume loop target final count).1.amid telemetry,
        (stream.afterConsume loop target final count).2) := by
  unfold afterConsume
  split <;> rfl

theorem drainStep_amid (stream : MetricStream) (telemetry : Telemetry) (loop : DrainLoop)
    (target : Nat) (final : Bool) :
    (stream.amid telemetry).drainStep loop target final =
      ((stream.drainStep loop target final).1.amid telemetry,
        (stream.drainStep loop target final).2) :=
  afterConsume_amid { stream with buffer := (stream.buffer.drain (stream.room loop)).2 } telemetry
    { loop with pending := loop.pending ++ (stream.buffer.drain (stream.room loop)).1 }
    target final _

theorem exists_loopStep_amid (now : Nat) (stream : MetricStream) (telemetry : Telemetry)
    (loop : DrainLoop) :
    ∃ telemetry', (stream.amid telemetry).loopStep now loop =
      ((stream.loopStep now loop).1.amid telemetry', (stream.loopStep now loop).2) := by
  cases hphase : loop.phase with
  | turning lastFlush =>
    cases hasked : stream.reporter.stopRequested <;>
      simp only [loopStep, hphase, amid_reporter, hasked] <;> exact ⟨telemetry, rfl⟩
  | watching since idle =>
    have hsame : (stream.amid telemetry).waitIsOver now since = stream.waitIsOver now since := rfl
    cases hover : stream.waitIsOver now since <;>
      simp only [loopStep, hphase, hsame, hover] <;> exact ⟨_, rfl⟩
  | draining target final =>
    by_cases hshort : stream.buffer.ring.consumed < target <;>
      simp only [loopStep, hphase, amid_buffer, hshort, if_true, if_false]
    · exact ⟨telemetry, drainStep_amid stream telemetry loop target final⟩
    · exact ⟨telemetry, rfl⟩
  | encoding next =>
    cases hpayload : stream.reporter.writer.encode? stream.buffer.tags loop.pending <;>
      simp only [loopStep, hphase, amid_reporter, amid_buffer, hpayload] <;> exact ⟨telemetry, rfl⟩
  | submitting payload entries next =>
    cases hclosed : loop.closed <;> by_cases hfull : loop.permits = 0 <;>
      simp only [loopStep, hphase, hclosed, hfull, Bool.false_eq_true, if_true, if_false] <;>
      exact ⟨telemetry, rfl⟩
  | _ =>
    simp only [loopStep, hphase]
    exact ⟨telemetry, rfl⟩

end MetricStream

theorem SendTask.Moment.exists_step_amid (metricType : String) (answer : Option SendOutcome)
    (moment : SendTask.Moment) (telemetry : Telemetry) :
    ∃ telemetry', SendTask.Moment.step metricType answer { moment with telemetry := telemetry } =
      { moment.step metricType answer with telemetry := telemetry' } := by
  obtain ⟨task, metrics, old⟩ := moment
  cases hphase : task.phase with
  | calling =>
    rcases answer with - | outcome
    · simp only [step, hphase]
      exact ⟨telemetry, rfl⟩
    · cases outcome <;> simp only [step, hphase] <;> exact ⟨telemetry, rfl⟩
  | uncounted outcome =>
    cases outcome <;> simp only [step, hphase] <;> exact ⟨_, rfl⟩
  | _ =>
    simp only [step, hphase]
    exact ⟨telemetry, rfl⟩

namespace Drainage

variable {d d' : Drainage} {σ : Type}

def amid (d : Drainage) (telemetry : Telemetry) : Drainage :=
  { d with telemetry := telemetry }

theorem consume_amid (d : Drainage) (telemetry : Telemetry) (loop : DrainLoop) (target : Nat)
    (final : Bool) :
    (d.amid telemetry).consume loop target final =
      (d.consume loop target final).amid telemetry := by
  unfold consume
  cases hconsumer : (d.traffic.proceed []).consumer with
  | returned count =>
    have hafter := ({ d with traffic := d.traffic.proceed [] } : Drainage).stream.afterConsume_amid
      telemetry { loop with
        pending := loop.pending ++ (Ring.Consume.held d.traffic.ring d.traffic.consumer).getD [] }
      target final count
    simp only [amid, hconsumer]
    exact congrArg ({ d with traffic := d.traffic.proceed [] } : Drainage).put hafter
  | _ =>
    simp only [amid, hconsumer]
    rfl

theorem exists_loopAct_amid (d : Drainage) (telemetry : Telemetry) (now : Nat) :
    ∃ telemetry', (d.amid telemetry).loopAct now = (d.loopAct now).amid telemetry' := by
  have hstep : ∀ loop, ∃ telemetry', (d.amid telemetry).step now loop =
      (d.step now loop).amid telemetry' := by
    intro loop
    obtain ⟨telemetry', hstep⟩ := d.stream.exists_loopStep_amid now telemetry loop
    refine ⟨telemetry', ?_⟩
    -- the journal notes the phases of the loop, and these are the same
    show { (d.amid telemetry).put ((d.stream.amid telemetry).loopStep now loop) with
      journal := d.journal.noted loop ((d.stream.amid telemetry).loopStep now loop).2 } = _
    rw [hstep]
    rfl
  cases hloop : d.reporter.loop with
  | none =>
    simp only [loopAct, amid, hloop]
    exact ⟨telemetry, rfl⟩
  | some loop =>
    cases hphase : loop.phase with
    | draining target final =>
      cases hidle : d.traffic.consumer.isReturned with
      | false =>
        simp only [loopAct, amid, hloop, hphase, hidle, Bool.not_false, if_true]
        exact ⟨telemetry, consume_amid d telemetry loop target final⟩
      | true =>
        by_cases hshort : d.traffic.ring.consumed < target <;>
          simp only [loopAct, amid, hloop, hphase, hidle, Bool.not_true, Bool.false_eq_true,
            if_false, hshort, if_true]
        · exact ⟨telemetry, rfl⟩
        · exact hstep loop
    | _ =>
      simp only [loopAct, amid, hloop, hphase]
      exact hstep loop

theorem exists_send_amid (d : Drainage) (telemetry : Telemetry) (place : Nat)
    (answer : Option SendOutcome) :
    ∃ telemetry', (d.amid telemetry).send place answer = (d.send place answer).amid telemetry' := by
  cases hloop : d.reporter.loop with
  | none =>
    simp only [send, amid, hloop]
    exact ⟨telemetry, rfl⟩
  | some loop =>
    cases htask : loop.tasks[place]? with
    | none =>
      simp only [send, amid, hloop, htask]
      exact ⟨telemetry, rfl⟩
    | some task =>
      obtain ⟨telemetry', hstep⟩ := SendTask.Moment.exists_step_amid d.reporter.metricType answer
        ⟨task, d.reporter.metrics, d.telemetry⟩ telemetry
      simp only [send, amid, hloop, htask, hstep]
      exact ⟨telemetry', rfl⟩

theorem exists_run_amid (d : Drainage) (telemetry : Telemetry) (acts : List Act) :
    ∃ telemetry', (d.amid telemetry).run acts = (d.run acts).amid telemetry' := by
  induction acts generalizing d telemetry with
  | nil => exact ⟨telemetry, rfl⟩
  | cons act acts ih =>
    have hact : ∃ telemetry', (d.amid telemetry).act act = (d.act act).amid telemetry' := by
      cases act with
      | start now runtime =>
        simp only [Drainage.act, amid]
        split <;> exact ⟨telemetry, rfl⟩
      | loop now => exact d.exists_loopAct_amid telemetry now
      | send place answer => exact d.exists_send_amid telemetry place answer
      | drop => exact ⟨_, rfl⟩
      | _ => exact ⟨telemetry, rfl⟩
    obtain ⟨telemetry', hact⟩ := hact
    obtain ⟨telemetry'', hrun⟩ := ih (d.act act) telemetry'
    refine ⟨telemetry'', ?_⟩
    rw [run, List.foldl_cons, hact]
    exact hrun

theorem Sound.amid (hs : d.Sound) (telemetry : Telemetry) : (d.amid telemetry).Sound :=
  ⟨hs.traffic, hs.unstarted, hs.unasked, hs.marked, hs.made, hs.loop, hs.panicked⟩

theorem Sound.exists_stop_amid (hs : d.Sound) (hidle : d.traffic.consumer.isReturned = true)
    (telemetry : Telemetry) (model : SenderModel σ) (now : Nat) (sender : σ) :
    ∃ d' telemetry', d.stop.WorksTo d' ∧
      ((d.stream.amid telemetry).stop model now sender).2 = d'.stream.amid telemetry' := by
  obtain ⟨_, ⟨acts, hwork, rfl⟩, hstream, -⟩ :=
    (hs.amid telemetry).exists_stop hidle model now sender
  obtain ⟨telemetry', hrun⟩ := d.stop.exists_run_amid telemetry acts
  refine ⟨d.stop.run acts, telemetry', ⟨acts, hwork, rfl⟩, hstream.symm.trans ?_⟩
  exact congrArg stream hrun

end Drainage

end MetricReporting
