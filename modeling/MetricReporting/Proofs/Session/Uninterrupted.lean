import MetricReporting.Proofs.Reporter.Uninterrupted
import MetricReporting.Proofs.Session.Confluence

/-!
# A session stopped on one thread

The stop of a session that lets each reporter run down in turn is one of the schedules of its tasks,
so what is true of every schedule is true of it.
-/
namespace MetricReporting

variable {σ : Type}

theorem Reporter.Worked.started {reporter reporter' : Reporter} (h : reporter.Worked reporter') :
    reporter'.started = reporter.started := by
  obtain ⟨metrics, loop, rfl⟩ := h
  rfl

theorem Drainage.WorksTo.worked {d d' : Drainage} (h : d.WorksTo d') :
    d.reporter.Worked d'.reporter := by
  obtain ⟨acts, hwork, rfl⟩ := h
  induction acts generalizing d with
  | nil => exact .refl _
  | cons act acts ih =>
    obtain ⟨hact, hacts⟩ := List.forall_mem_cons.1 hwork
    obtain ⟨metrics, loop, hreporter⟩ := (Drainage.act_onward hact).reporter
    obtain ⟨metrics', loop', hreporter'⟩ := ih hacts
    rw [hreporter] at hreporter'
    exact ⟨metrics', loop', hreporter'⟩

namespace StopTask

theorem run_works (task : StopTask) {acts : List Drainage.Act}
    (hwork : ∀ act ∈ acts, act.isWork = true) :
    (task.run (acts.map fun act => .work (.own act))).stage = task.stage ∧
      (task.run (acts.map fun act => .work (.own act))).participant.life.drainage =
        task.participant.life.drainage.run acts := by
  induction acts generalizing task with
  | nil => exact ⟨rfl, rfl⟩
  | cons act acts ih =>
    obtain ⟨hact, hacts⟩ := List.forall_mem_cons.1 hwork
    obtain ⟨hstage, hdrainage⟩ := ih (task.work (.own act)) hacts
    have hstep : task.work (.own act) = ⟨task.participant.act (.life (.own act)), task.stage⟩ :=
      work_eq hact
    rw [List.map_cons, run, List.foldl_cons]
    refine ⟨hstage.trans (by rw [hstep]), hdrainage.trans ?_⟩
    rw [hstep, Participant.life_work]
    rfl

end StopTask

def Reporter.HasEnded (reporter : Reporter) : Prop :=
  reporter.started = true → reporter.loop.any DrainLoop.isOver = true

theorem Reporter.requestStop_detached (reporter : Reporter) :
    reporter.requestStop.attached = false := by
  unfold requestStop
  split
  · rfl
  · exact Bool.eq_false_iff.2 ‹_›

namespace Participant

structure Sound (p : Participant) : Prop where
  drainage : p.life.drainage.Sound
  idle : p.life.drainage.traffic.consumer.isReturned = true

variable {p : Participant}

theorem Sound.started (h : p.Sound) (hattached : p.reporter.attached = true) :
    p.reporter.started = true := by
  cases hstarted : p.reporter.started with
  | true => rfl
  | false =>
    have hdetached : p.reporter.attached = false := (h.drainage.unstarted hstarted).2.1
    rw [hdetached] at hattached
    cases hattached

/-- The steps of its task alone take a reporter to where its stop on one thread takes it. -/
theorem Sound.exists_run_stop (h : p.Sound) (telemetry : Telemetry) (model : SenderModel σ)
    (now : Nat) (sender : σ)
    (hended : ((p.life.drainage.stream.amid telemetry).stop model now
      sender).2.reporter.dispose.HasEnded) :
    ∃ acts, ((StopTask.mk p .spawned).run acts).stage = .joined ∧
      ((StopTask.mk p .spawned).run acts).participant.reporter =
        ((p.life.drainage.stream.amid telemetry).stop model now sender).2.reporter.dispose := by
  obtain ⟨d', telemetry', ⟨acts, hwork, hrun⟩, hstream⟩ :=
    h.drainage.exists_stop_amid h.idle telemetry model now sender
  have hworked : p.life.drainage.stop.reporter.Worked d'.reporter :=
    Drainage.WorksTo.worked ⟨acts, hwork, hrun⟩
  rw [hstream, MetricStream.amid_reporter] at hended ⊢
  have hkept : d'.reporter.dispose.loop = d'.reporter.loop :=
    Reporter.dispose_detached (hworked.attached.trans (Reporter.requestStop_detached _))
  -- asked, at work, told that the loop is over, and taken back
  let asked := (StopTask.mk p .spawned).poll
  let works : List StopTask.Act := acts.map fun act => .work (.own act)
  obtain ⟨hstage, hdrainage⟩ := asked.run_works hwork
  have hworks : (asked.run works).participant.life.drainage = d' := by
    have hasked : asked.participant.life.drainage = p.life.drainage.stop :=
      congrArg Lifespan.drainage p.life_stop
    exact hdrainage.trans ((congrArg (·.run acts) hasked).trans hrun)
  have hreturned : (asked.run works).poll = ⟨(asked.run works).participant, .returned⟩ := by
    cases hattached : p.reporter.attached with
    | false =>
      have hstage' : (asked.run works).stage = .returned := by
        rw [hstage]
        simp only [asked, StopTask.poll, hattached, Bool.false_eq_true, if_false]
      simp only [StopTask.poll, hstage']
      rw [← hstage']
    | true =>
      have hstage' : (asked.run works).stage = .waiting := by
        rw [hstage]
        simp only [asked, StopTask.poll, hattached, if_true]
      have hstarted : d'.reporter.started = true := by
        rw [hworked.started]
        show p.reporter.requestStop.started = true
        rw [Reporter.requestStop, if_pos hattached]
        exact h.started hattached
      have hloop : (asked.run works).participant.loopIsOver = true := by
        rw [loopIsOver, reporter, hworks]
        exact hkept ▸ hended hstarted
      simp only [StopTask.poll, hstage', hloop, if_true]
  refine ⟨.poll :: works ++ [.poll, .join], ?_⟩
  have hsplit : (StopTask.mk p .spawned).run (.poll :: works ++ [.poll, .join]) =
      (asked.run works).poll.join := by
    rw [StopTask.run, List.cons_append, List.foldl_cons, List.foldl_append]
    rfl
  rw [hsplit, hreturned]
  refine ⟨rfl, ?_⟩
  show ((asked.run works).participant.act .sessionStopped).reporter = d'.reporter.dispose
  rw [reporter_stopped, reporter, hworks]

end Participant

def Session.Member.held (member : Session.Member) : Nat × Reporter :=
  (member.source, member.reporter)

namespace Closing

variable {reporters listed : List Participant} {members : List Session.Member} {p : Participant}

def Ends (p : Participant) (acts : List StopTask.Act) (member : Session.Member) : Prop :=
  ((StopTask.mk p .spawned).run acts).stage = .joined ∧
    ((StopTask.mk p .spawned).run acts).participant.member.held = member.held

theorem trace_append (number : Nat) (first second : List Act) :
    trace number (first ++ second) = trace number first ++ trace number second :=
  List.filterMap_append

theorem trace_self (number : Nat) (acts : List StopTask.Act) :
    trace number (acts.map (.one number)) = acts := by
  induction acts with
  | nil => rfl
  | cons act acts ih => rw [List.map_cons, trace_cons_one, if_pos rfl, ih]

theorem trace_other {number other : Nat} (h : number ≠ other) (acts : List StopTask.Act) :
    trace number (acts.map (.one other)) = [] := by
  induction acts with
  | nil => rfl
  | cons act acts ih => rw [List.map_cons, trace_cons_one, if_neg h, ih]

/-- What tasks can do each on its own, they can do one after the other. -/
theorem exists_schedule (hnumbers : (reporters.map Participant.number).Nodup)
    (h : List.Forall₂ (fun p member => ∃ acts, Ends p acts member) reporters members) :
    ∃ acts, List.Forall₂ (fun p member => Ends p (trace p.number acts) member) reporters members ∧
      ∀ number, number ∉ reporters.map Participant.number → trace number acts = [] := by
  -- the steps of the rest are steps of other tasks, which is why the induction keeps track of them
  induction h with
  | nil => exact ⟨[], .nil, fun _ _ => rfl⟩
  | @cons p member reporters members hhead htail ih =>
    obtain ⟨acts, hends⟩ := hhead
    obtain ⟨hnew, hnumbers⟩ := List.nodup_cons.1 hnumbers
    obtain ⟨more, hmore, hothers⟩ := ih hnumbers
    refine ⟨acts.map (.one p.number) ++ more, .cons ?_ ?_, fun number hnumber => ?_⟩
    · rw [trace_append, trace_self, hothers p.number hnew, List.append_nil]
      exact hends
    · have hother : ∀ q ∈ reporters, q.number ≠ p.number := fun q hmem hsame =>
        hnew (hsame ▸ List.mem_map_of_mem hmem)
      refine List.Forall₂.imp (fun q member hq => ?_)
        ((List.forall₂_and_left _ _).2 ⟨hother, hmore⟩)
      rw [trace_append, trace_other hq.1, List.nil_append]
      exact hq.2
    · rw [List.map_cons, List.mem_cons, not_or] at hnumber
      rw [trace_append, trace_other hnumber.1, hothers number hnumber.2]
      rfl

theorem stopMember_eq (p : Participant) (now : Nat) {around : Surroundings}
    (hsource : around.registry.buffers[p.number]? = some p.life.drainage.stream.buffer) :
    ∃ sender, (Session.stopMember now p.member around).1 = ⟨p.number, sender,
      ((p.life.drainage.stream.amid around.registry.telemetry).stop
        (Sender.model around.network p.reporter.sendsCancelled) now
          (p.sender, around.files)).2.reporter.dispose⟩ := by
  have hsource' : around.registry.buffers[p.member.source]? = _ := hsource
  simp only [Session.stopMember, Session.within, hsource']
  exact ⟨_, rfl⟩

theorem stopMember_buffers (member : Session.Member) (now : Nat) (around : Surroundings)
    {number : Nat} (hother : number ≠ member.source) :
    (Session.stopMember now member around).2.registry.buffers[number]? =
      around.registry.buffers[number]? := by
  simp only [Session.stopMember, Session.within]
  split
  · rfl
  · exact Array.getElem?_setIfInBounds_ne hother.symm

theorem overMembers_ends (now : Nat) (hnumbers : (reporters.map Participant.number).Nodup)
    (hsound : ∀ p ∈ reporters, p.Sound) {around : Surroundings}
    (hsources : ∀ p ∈ reporters,
      around.registry.buffers[p.number]? = some p.life.drainage.stream.buffer)
    (hended : ∀ member ∈ (Session.overMembers (Session.stopMember now)
      (reporters.map Participant.member) around).1, member.reporter.HasEnded) :
    List.Forall₂ (fun p member => ∃ acts, Ends p acts member) reporters
      (Session.overMembers (Session.stopMember now) (reporters.map Participant.member)
        around).1 := by
  -- the surroundings change from one member to the next, but not the buffers of those to come
  induction reporters generalizing around with
  | nil => exact .nil
  | cons p reporters ih =>
    obtain ⟨hnew, hnumbers⟩ := List.nodup_cons.1 hnumbers
    obtain ⟨hsource, hsources⟩ := List.forall_mem_cons.1 hsources
    obtain ⟨hp, hsound⟩ := List.forall_mem_cons.1 hsound
    obtain ⟨hhead, htail⟩ := List.forall_mem_cons.1 hended
    obtain ⟨sender, hmember⟩ := stopMember_eq p now hsource
    refine .cons ?_ (ih hnumbers hsound (fun q hmem => ?_) htail)
    · have hhead' : (Session.stopMember now p.member around).1.reporter.HasEnded := hhead
      rw [hmember] at hhead'
      obtain ⟨acts, hjoined, hreporter⟩ := hp.exists_run_stop _ _ now _ hhead'
      refine ⟨acts, hjoined, ?_⟩
      show _ = (Session.stopMember now p.member around).1.held
      rw [hmember]
      exact Prod.ext (StopTask.run_same ⟨p, .spawned⟩ acts).number hreporter
    · have hother : q.number ≠ p.number := fun hsame => hnew (hsame ▸ List.mem_map_of_mem hmem)
      exact (stopMember_buffers p.member now around hother).trans (hsources q hmem)

/-- The stop of a session on one thread is one of the schedules: once it has let every loop end,
there are steps of the tasks that leave the session with the same reporters, in the same order where
their metric types differ. -/
theorem exists_run_stop (now : Nat) (hnumbers : (reporters.map Participant.number).Nodup)
    (hdistinct : (reporters.map Participant.metricType).Nodup)
    (hsound : ∀ p ∈ reporters, p.Sound) {around : Surroundings}
    (hsources : ∀ p ∈ reporters,
      around.registry.buffers[p.number]? = some p.life.drainage.stream.buffer)
    (hended :
      ∀ member ∈ ((session reporters).stop now around).1.members, member.reporter.HasEnded) :
    ∃ acts listed, ((begin reporters).run acts).listed = some listed ∧
      (session listed).members.map Session.Member.held =
        ((session reporters).stop now around).1.members.map Session.Member.held := by
  let members :=
    (Session.overMembers (Session.stopMember now) (reporters.map Participant.member) around).1
  have hmembers : ((session reporters).stop now around).1.members = Session.ordered members := rfl
  rw [hmembers] at hended ⊢
  have hends := overMembers_ends now hnumbers hsound hsources fun member hmem =>
    hended member ((Session.ordered_perm members).mem_iff.2 hmem)
  obtain ⟨acts, hacts, -⟩ := exists_schedule hnumbers hends
  obtain ⟨hjoined, hsame⟩ := (List.forall₂_and_left _ _).1 hacts
  obtain ⟨listed, hlisted⟩ := exists_listed hjoined
  refine ⟨acts ++ [.list], listed, hlisted, ?_⟩
  have hfates : (reporters.map fun p => (fate p acts).participant.member.held) =
      members.map Session.Member.held := by
    rw [← List.forall₂_eq_eq_eq, List.forall₂_map_left_iff, List.forall₂_map_right_iff]
    exact hsame
  have hperm := (listed_perm hlisted).2.map fun p => p.member.held
  simp only [fate_list, List.map_map] at hperm
  rw [session, List.map_map]
  refine eq_of_perm_of_ascending (fun pair => pair.2.metricType)
    (hperm.trans (.trans (.of_eq hfates) ((Session.ordered_perm members).symm.map _))) ?_ ?_ ?_
  · rw [List.map_map]
    exact (metricType_perm hlisted).nodup_iff.2 hdistinct
  · rw [List.map_map]
    exact listed_ascending hlisted
  · rw [List.map_map]
    exact Session.ordered_ascending members

end Closing

end MetricReporting
