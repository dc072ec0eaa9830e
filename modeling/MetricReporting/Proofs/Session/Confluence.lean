import MetricReporting.Proofs.Session.Closing

/-!
# The order of the ends does not show

A session whose stop is over has each of its reporters once, disposed of, and in the order of their
metric types; a reporter that ran has handed over what was claimed before, and its counters stay as
they are. Where the metric types differ, neither the order in which the tasks came to an end nor
a second stop can be told from what the session has.
-/
namespace MetricReporting

structure Participant.Stopped (p stopped : Participant) : Prop where
  same : p.Same stopped
  disposed : stopped.reporter.Disposed
  drained : p.reporter.isRunning = true → stopped.life.Panicked ∨ stopped.life.AtRest ∧
    ∀ q, p.life.drainage.traffic.origin ≤ q → q < p.due →
      ∃! number, stopped.life.drainage.Carries number q
  rest : p.life.AtRest → stopped.life.AtRest

namespace Closing

variable {reporters listed : List Participant} {p : Participant} {acts : List Act}

def session (reporters : List Participant) : Session :=
  ⟨reporters.map Participant.member⟩

theorem run_append (closing : Closing) (first second : List Act) :
    closing.run (first ++ second) = (closing.run first).run second :=
  List.foldl_append

/-! ## One reporter -/

theorem fate_same (p : Participant) (acts : List Act) : p.Same (fate p acts).participant :=
  StopTask.run_same ⟨p, .spawned⟩ _

theorem after_same (p : Participant) (acts : List Act) : p.Same (after p acts) :=
  StopTask.run_same ⟨p, .joined⟩ _

theorem fate_stopped (hreached : p.Reached) (hjoined : (fate p acts).stage = .joined) :
    p.Stopped (fate p acts).participant where
  same := fate_same p acts
  disposed := StopTask.disposed_of_joined p _ hjoined
  drained hruns := by
    have hrooted : (fate p acts).participant.life.drainage.Rooted p.reporter.writer
        p.life.drainage.traffic.origin :=
      StopTask.run_keeps (fun task => task.participant.life.drainage.Rooted _ _)
        (fun _ _ hmoved h => hmoved.rooted h) hreached.known.2 _
    exact ((hreached.led hruns).run _).hands_over hjoined hrooted
  rest hrest := StopTask.run_keeps (fun task => task.participant.life.AtRest)
    (fun _ _ hmoved h => hmoved.atRest h) hrest _

theorem after_reporter (hdisposed : p.reporter.Disposed) (hrest : p.life.AtRest)
    (acts : List Act) : (after p acts).reporter = p.reporter :=
  (StopTask.run_reporter ⟨p, .joined⟩ hdisposed hrest _).1

/-- What a second stop makes of a reporter, its work alone would have made of it. -/
theorem fate_member (hdisposed : p.reporter.Disposed) (acts : List Act) :
    (fate p acts).participant.member = (after p acts).member := by
  have hfate := fate_same p acts
  have hafter := after_same p acts
  have hlife : (fate p acts).participant.life = (after p acts).life :=
    (StopTask.run_of_disposed ⟨p, .spawned⟩ hdisposed _).trans
      (StopTask.run_of_disposed ⟨p, .joined⟩ hdisposed _).symm
  rw [Participant.member, Participant.member, hfate.number, hafter.number, hfate.sender,
    hafter.sender, Participant.reporter, Participant.reporter, hlife]

/-! ## The session -/

theorem trace_list (number : Nat) (acts : List Act) :
    trace number (acts ++ [.list]) = trace number acts := by
  rw [trace, List.filterMap_append]
  exact List.append_nil _

theorem fate_list (p : Participant) (acts : List Act) : fate p (acts ++ [.list]) = fate p acts :=
  congrArg (StopTask.run ⟨p, .spawned⟩) (trace_list p.number acts)

theorem exists_listed (hjoined : ∀ p ∈ reporters, (fate p acts).stage = .joined) :
    ∃ listed, ((begin reporters).run (acts ++ [.list])).listed = some listed := by
  have hmirrors := (mirrors_begin reporters).run acts
  have htasks : ((begin reporters).run acts).tasks = [] := by
    rw [hmirrors.waiting, List.map_map, List.filter_eq_nil_iff]
    refine List.forall_mem_map.2 fun p hmem => ?_
    have hback : isJoined (fate p acts) = true := isJoined_iff.2 (hjoined p hmem)
    show ¬ (!isJoined (fate p acts)) = true
    rw [hback]
    exact Bool.false_ne_true
  rw [run_append]
  show ∃ listed, (((begin reporters).run acts).act .list).listed = some listed
  simp only [Closing.act, htasks, List.isEmpty_nil, Bool.true_and]
  split
  · exact ⟨_, rfl⟩
  · rename_i hlisted
    exact Option.ne_none_iff_exists'.1 (mt Option.isNone_iff_eq_none.2 hlisted)

theorem listed_ascending (hlisted : ((begin reporters).run acts).listed = some listed) :
    Ascending listed := by
  have hbegin : ∀ listed ∈ (begin reporters).listed, Ascending listed := nofun
  exact run_ascending hbegin acts listed hlisted

theorem metricType_perm (hlisted : ((begin reporters).run acts).listed = some listed) :
    (listed.map Participant.metricType).Perm (reporters.map Participant.metricType) := by
  have hperm := (listed_perm hlisted).2.map Participant.metricType
  rw [List.map_map] at hperm
  exact hperm.trans (.of_eq (List.map_congr_left fun p _ => (fate_same p acts).metricType))

def places (reporters : List Participant) : List (Nat × String) :=
  reporters.map fun p => (p.number, p.metricType)

theorem places_snd (reporters : List Participant) :
    (places reporters).map Prod.snd = reporters.map Participant.metricType :=
  List.map_map

theorem places_perm (hlisted : ((begin reporters).run acts).listed = some listed) :
    (places listed).Perm (places reporters) := by
  have hperm := (listed_perm hlisted).2.map fun p => (p.number, p.metricType)
  rw [List.map_map] at hperm
  refine hperm.trans (.of_eq (List.map_congr_left fun p _ => ?_))
  exact Prod.ext (fate_same p acts).number (fate_same p acts).metricType

/-- Where the metric types differ, there is one order that the reporters can stand in. -/
theorem places_eq {listed' : List Participant} {acts' : List Act}
    (hdistinct : (reporters.map Participant.metricType).Nodup)
    (hlisted : ((begin reporters).run acts).listed = some listed)
    (hlisted' : ((begin reporters).run acts').listed = some listed') :
    places listed' = places listed := by
  refine eq_of_perm_of_ascending Prod.snd ((places_perm hlisted').trans (places_perm hlisted).symm)
    ?_ ?_ ?_
  · rw [places_snd]
    exact (metricType_perm hlisted').nodup_iff.2 hdistinct
  · rw [places_snd]
    exact listed_ascending hlisted'
  · rw [places_snd]
    exact listed_ascending hlisted

theorem listed_eq {listed' : List Participant} {acts' : List Act}
    (hdistinct : (reporters.map Participant.metricType).Nodup)
    (hlisted : ((begin reporters).run acts).listed = some listed)
    (hlisted' : ((begin reporters).run acts').listed = some listed')
    (htraces : ∀ p ∈ reporters, trace p.number acts' = trace p.number acts) :
    listed' = listed := by
  have hfates : (reporters.map fun p => (fate p acts').participant) =
      reporters.map fun p => (fate p acts).participant :=
    List.map_congr_left fun p hmem => by rw [fate, fate, htraces p hmem]
  have hperm := (listed_perm hlisted').2
  rw [hfates] at hperm
  exact eq_of_perm_of_ascending Participant.metricType (hperm.trans (listed_perm hlisted).2.symm)
    ((metricType_perm hlisted').nodup_iff.2 hdistinct) (listed_ascending hlisted')
    (listed_ascending hlisted)

theorem listed_again {listed' : List Participant} {again : List Act}
    (hdistinct : (listed.map Participant.metricType).Nodup) (hascending : Ascending listed)
    (hlisted : ((begin listed).run again).listed = some listed') :
    listed' = listed.map fun p => (fate p again).participant :=
  eq_of_perm_of_ascending Participant.metricType (listed_perm hlisted).2
    ((metricType_perm hlisted).nodup_iff.2 hdistinct) (listed_ascending hlisted)
    (hascending.map fun p => (fate_same p again).metricType)

theorem metrics_session (reporters : List Participant) :
    (session reporters).metrics = reporters.map fun p => (p.metricType, p.reporter.metrics) :=
  List.map_map

theorem metrics_after {i : Nat} (h : listed[i]? = some p) (hdisposed : p.reporter.Disposed)
    (hrest : p.life.AtRest) (more : List Act) :
    (session (listed.map (after · more))).metrics[i]? =
      some (p.metricType, p.reporter.metrics) := by
  rw [metrics_session, List.getElem?_map, List.getElem?_map, h]
  show some ((after p more).reporter.metricType, (after p more).reporter.metrics) = _
  rw [after_reporter hdisposed hrest]
  rfl

/-- In whatever order the tasks of its reporters come to an end, a session that has stopped has each
of them once, in the order of metric types. Each is disposed of, and one that ran has handed over
what it was due to, unless its writer panicked: what was claimed before the call, or before its
start where it was disposed of even earlier. The counters of a loop that has come to rest stay as
the session shows them. Where the metric types differ, the session has the same list for every order
of the ends, and a second stop makes no difference. -/
theorem stop_confluent (hreached : ∀ p ∈ reporters, p.Reached)
    (hjoined : ∀ p ∈ reporters, (fate p acts).stage = .joined) :
    ∃ listed, ((begin reporters).run (acts ++ [.list])).listed = some listed ∧
      listed.Perm (reporters.map fun p => (fate p acts).participant) ∧
      (∀ p ∈ reporters, p.Stopped (fate p acts).participant) ∧
      Ascending listed ∧
      (∀ more, ∃ later, ((begin reporters).run (acts ++ [.list] ++ more)).listed = some later ∧
        ∀ (i : Nat) (p : Participant), listed[i]? = some p → p.life.AtRest →
          (session later).metrics[i]? = some (p.metricType, p.reporter.metrics)) ∧
      ((reporters.map Participant.metricType).Nodup →
        (∀ acts' listed', ((begin reporters).run acts').listed = some listed' →
          places listed' = places listed ∧
          ((∀ p ∈ reporters, trace p.number acts' = trace p.number acts) → listed' = listed)) ∧
        ∀ again listed', ((begin listed).run again).listed = some listed' →
          ∃ later, ((begin reporters).run (acts ++ [.list] ++ again)).listed = some later ∧
            session listed' = session later) := by
  obtain ⟨listed, hlisted⟩ := exists_listed hjoined
  have hperm : listed.Perm (reporters.map fun p => (fate p acts).participant) := by
    have hperm := (listed_perm hlisted).2
    simp only [fate_list] at hperm
    exact hperm
  have hstopped : ∀ p ∈ reporters, p.Stopped (fate p acts).participant := fun p hmem =>
    fate_stopped (hreached p hmem) (hjoined p hmem)
  have hdisposed : ∀ p ∈ listed, p.reporter.Disposed := by
    intro p hmem
    obtain ⟨q, hq, rfl⟩ := List.mem_map.1 (hperm.mem_iff.1 hmem)
    exact (hstopped q hq).disposed
  have hascending := listed_ascending hlisted
  -- from here on each reporter goes its own way, and none changes its place
  have hlater : ∀ more, ((begin reporters).run (acts ++ [.list] ++ more)).listed =
      some (listed.map (after · more)) := by
    intro more
    rw [run_append]
    exact run_listed hlisted more
  refine ⟨listed, hlisted, hperm, hstopped, hascending, fun more => ⟨_, hlater more, ?_⟩, ?_⟩
  · intro i p h hrest
    exact metrics_after h (hdisposed p (List.mem_of_getElem? h)) hrest more
  · intro hdistinct
    refine ⟨fun acts' listed' hlisted' => ⟨places_eq hdistinct hlisted hlisted', fun htraces => ?_⟩,
      fun again listed' hlisted' => ⟨_, hlater again, ?_⟩⟩
    · refine listed_eq hdistinct hlisted hlisted' fun p hmem => ?_
      rw [trace_list]
      exact htraces p hmem
    · rw [listed_again ((metricType_perm hlisted).nodup_iff.2 hdistinct) hascending hlisted']
      rw [session, session, List.map_map, List.map_map]
      exact congrArg Session.mk
        (List.map_congr_left fun p hmem => fate_member (hdisposed p hmem) again)

def filled (number : Nat) (metricType : String) : Participant where
  number := number
  sender := .file ⟨metricType, "out", 0⟩
  cycle :=
    (Lifecycle.ready metricType ⟨0, 0, 0, 0⟩ Drainage.bareValues (Ring.startingAt 2 5 {}) {}).run
      (.sessionStart 0 true :: .life (.own (.write 10 0)) ::
        List.replicate 6 (.life (.own (.access 0 false))))

def working (number : Nat) (acts : List Drainage.Act) : List Act :=
  acts.map fun act => .one number (.work (.own act))

def emptying (number : Nat) : List Act :=
  working number (List.replicate 20 (.loop 0) ++ [.send 0 none, .send 0 none,
    .send 0 (some .delivered), .send 0 none, .send 0 none, .loop 0])

def inTurn : List Act :=
  [.one 0 .poll, .one 1 .poll] ++ emptying 1 ++ emptying 0 ++
    [.one 0 .poll, .one 0 .join, .one 1 .poll, .one 1 .join]

theorem filled_reached (number : Nat) (metricType : String) : (filled number metricType).Reached :=
  ⟨metricType, _, _, _, _, _, _, _, rfl⟩

theorem stop_confluent_pair :
    let pair := [filled 0 "QueueLength", filled 1 "ProcessingTime"]
    (∀ p ∈ pair, p.reporter.isRunning = true ∧ p.due = 6) ∧
      ∃ listed, ((begin pair).run (inTurn ++ [.list])).listed = some listed ∧
        places listed = [(1, "ProcessingTime"), (0, "QueueLength")] ∧
        ∀ p ∈ listed, ∃! number, p.life.drainage.Carries number 5 := by
  intro pair
  have hruns : ∀ p ∈ pair, p.reporter.isRunning = true ∧ p.due = 6 := by decide +kernel
  have hjoined : ∀ p ∈ pair, (fate p inTurn).stage = .joined := by decide +kernel
  have hended : ∀ p ∈ pair, (fate p inTurn).participant.reporter.loop.map DrainLoop.phase =
      some .ended ∧ p.life.drainage.traffic.origin = 5 := by decide +kernel
  have hreached : ∀ p ∈ pair, p.Reached := by
    refine List.forall_mem_cons.2 ⟨filled_reached 0 _,
      List.forall_mem_cons.2 ⟨filled_reached 1 _, ?_⟩⟩
    exact List.forall_mem_nil _
  obtain ⟨listed, hlisted, hperm, hstopped, hascending, -⟩ := stop_confluent hreached hjoined
  have hplaces : [(1, "ProcessingTime"), (0, "QueueLength")] = places listed := by
    refine eq_of_perm_of_ascending Prod.snd
      ((List.Perm.swap _ _ []).trans (places_perm hlisted).symm) (by decide) (by decide) ?_
    rw [places_snd]
    exact hascending
  refine ⟨hruns, listed, hlisted, hplaces.symm, fun p hmem => ?_⟩
  obtain ⟨q, hq, rfl⟩ := List.mem_map.1 (hperm.mem_iff.1 hmem)
  obtain ⟨hrunning, hdue⟩ := hruns q hq
  obtain ⟨hended, horigin⟩ := hended q hq
  rcases (hstopped q hq).drained hrunning with ⟨loop, htorn, hphase, -⟩ | ⟨-, hcarried⟩
  · have hloop : (fate q inTurn).participant.reporter.loop = some loop := htorn.loop_eq
    rw [hloop, Option.map_some, hphase] at hended
    cases hended
  · exact hcarried 5 (by rw [horigin]) (by rw [hdue]; decide)

def doomed : Participant where
  number := 0
  sender := .file ⟨"Values", "out", 0⟩
  cycle :=
    (Lifecycle.ready "Values" ⟨0, 0, 0, 0⟩ Lifecycle.panickingWriter (Ring.startingAt 2 5 {})
      {}).run
      ([.sessionStart 0 true, .life (.own (.write 10 0))] ++
        List.replicate 6 (.life (.own (.access 0 false))) ++ [.life (.own (.write 20 0))] ++
        List.replicate 6 (.life (.own (.access 1 false))))

def breakingOff : List Act :=
  [.one 0 .poll] ++ working 0 (List.replicate 20 (.loop 0)) ++ [.one 0 .poll, .one 0 .join]

/-- A session that has stopped a running reporter has an entry that was claimed before, and that is
neither drained nor in a payload. -/
theorem stop_leaves_entry_behind :
    (doomed.Reached ∧ doomed.reporter.isRunning = true ∧
      doomed.life.drainage.traffic.ring.written = 7 ∧
      doomed.life.drainage.traffic.recorded? 6 = some ⟨2, 20, 0⟩) ∧
    ∃ stopped, ((begin [doomed]).run (breakingOff ++ [.list])).listed = some [stopped] ∧
      stopped.life.drainage.traffic.ring.consumed = 6 ∧
      ∀ number, ¬ stopped.life.drainage.Carries number 6 := by
  have hcalls : doomed.reporter.isRunning = true ∧
      doomed.life.drainage.traffic.ring.written = 7 ∧
      doomed.life.drainage.traffic.recorded? 6 = some ⟨2, 20, 0⟩ := by decide +kernel
  have hjoined : ∀ p ∈ [doomed], (fate p breakingOff).stage = .joined := by decide +kernel
  have hconsumed :
      (fate doomed breakingOff).participant.life.drainage.traffic.ring.consumed = 6 := by
    decide +kernel
  have hcalled : (fate doomed breakingOff).participant.life.drainage.journal.called = [] := by
    decide +kernel
  obtain ⟨listed, hlisted⟩ := exists_listed hjoined
  have hperm := (listed_perm hlisted).2
  simp only [fate_list, List.map_cons, List.map_nil] at hperm
  rw [List.perm_singleton.1 hperm] at hlisted
  refine ⟨⟨⟨_, _, _, _, _, _, _, _, rfl⟩, hcalls⟩, _, hlisted, hconsumed, ?_⟩
  rintro number ⟨batch, payload, place, entry, -, -, -, -, -, hcall⟩
  rw [hcalled] at hcall
  cases hcall

end Closing

end MetricReporting
