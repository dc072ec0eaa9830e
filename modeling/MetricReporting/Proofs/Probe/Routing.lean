import MetricReporting.Proofs.Probe.Ledger
import MetricReporting.Proofs.Text.Numerals

/-!
# Routing of events

The registry, with its lists of listeners, does what the ledger says. Main statement: every event
goes once to each observer registered before it and once to each buffer attached for its probe
before it; what a buffer is offered is drained in order, or lies in its ring, or was lost to a full
ring and counted.
-/
namespace MetricReporting.Probing

open Ledger

/-- The buffers are those of the accounts, and every loss is counted. -/
structure Tallies (registry : Registry) (ledger : Ledger) : Prop where
  buffers : registry.buffers.toList = ledger.map fun entry => entry.2.buffer
  dropped : ∀ metricType,
    registry.telemetry.count .bufferDropped metricType = ledger.lost metricType

variable {registry : Registry} {ledger : Ledger} {number : Nat}

theorem Tallies.getElem?_buffers (h : Tallies registry ledger) (number : Nat) :
    registry.buffers[number]? = ledger[number]?.map fun entry => entry.2.buffer := by
  rw [← Array.getElem?_toList, h.buffers, List.getElem?_map]

theorem serveAt_of_absent (h : ledger[number]? = none) (request : Account.Request) :
    ledger.serveAt number request = ledger := by
  apply List.ext_getElem?
  intro i
  rw [serveAt, List.getElem?_modify]
  by_cases hi : number = i
  · subst hi
    simp [h]
  · simp [hi]

/-- A request served in the registry and in the ledger; what it loses is counted. -/
theorem Tallies.serveAt (h : Tallies registry ledger) {probe : Probe} {account : Account}
    (hentry : ledger[number]? = some (probe, account)) {request : Account.Request} {accepted : Bool}
    (hlost : (account.serve request).lost = account.lost + if accepted then 0 else 1) :
    Tallies { registry with
      buffers := registry.buffers.setIfInBounds number (account.serve request).buffer
      telemetry :=
        if accepted then registry.telemetry
        else registry.telemetry.dropped account.buffer.metricType }
      (ledger.serveAt number request) := by
  refine ⟨?_, fun metricType => ?_⟩
  · rw [Array.toList_setIfInBounds, h.buffers, Ledger.serveAt, map_modify_eq_set _ _ hentry]
  · have hsum := sum_map_modify (fun entry : Probe × Account => (entry.1, entry.2.serve request))
      (fun entry => if entry.2.buffer.metricType = metricType then entry.2.lost else 0) hentry
    have hbefore := h.dropped metricType
    rw [account.serve_metricType request, hlost] at hsum
    unfold Ledger.lost at hbefore ⊢
    unfold Ledger.serveAt
    cases accepted with
    | true =>
      simp only [if_true, Nat.add_zero] at hsum ⊢
      omega
    | false =>
      simp only [Bool.false_eq_true, if_false]
      unfold Telemetry.dropped
      by_cases hsame : account.buffer.metricType = metricType
      · subst hsame
        rw [Telemetry.count_add_self]
        simp only [if_true, Bool.false_eq_true, if_false] at hsum
        omega
      · have hother : (Telemetry.Counter.bufferDropped, metricType) ≠
            (.bufferDropped, account.buffer.metricType) := by
          simpa using Ne.symm hsame
        rw [registry.telemetry.count_add_other hother]
        simp only [hsame, if_false] at hsum
        omega

theorem Tallies.recordIn (h : Tallies registry ledger) (number : Nat) (value : Int64)
    (tag : String) :
    Tallies (registry.recordIn number value tag) (ledger.serveAt number (.record value tag)) := by
  have hbuffers := h.getElem?_buffers number
  cases hentry : ledger[number]? with
  | none =>
    rw [hentry] at hbuffers
    rw [serveAt_of_absent hentry, Registry.recordIn, hbuffers]
    exact h
  | some entry =>
    obtain ⟨probe, account⟩ := entry
    rw [hentry] at hbuffers
    have hbuffer : registry.buffers[number]? = some account.buffer := hbuffers
    have hserve := h.serveAt hentry (account.lost_record value tag)
    rw [Account.serve, MetricBuffer.record_eq_recorded] at hserve
    rw [Registry.recordIn, hbuffer]
    simp only [MetricBuffer.record_eq_recorded]
    exact hserve

theorem Tallies.notify (h : Tallies registry ledger) (event : Probe.Event)
    (listeners : List Listener) (seen : List Sighting) :
    let state := listeners.foldl (Registry.notify event) (registry, seen)
    Tallies state.1 (ledger.serveEach (.record event.value event.tag)
        (listeners.filterMap Listener.number?)) ∧
      state.1.listeners = registry.listeners ∧
      state.2 = seen ++ (listeners.filterMap Listener.name?).map fun name => ⟨name, event⟩ := by
  induction listeners generalizing registry ledger seen with
  | nil => exact ⟨h, rfl, (List.append_nil _).symm⟩
  | cons listener listeners ih =>
    cases listener with
    | observer name =>
      obtain ⟨htallies, hlisteners, hseen⟩ := ih h (seen ++ [⟨name, event⟩])
      refine ⟨htallies, hlisteners, hseen.trans ?_⟩
      simp [Listener.name?]
    | buffer number =>
      obtain ⟨htallies, hlisteners, hseen⟩ := ih (h.recordIn number event.value event.tag) seen
      refine ⟨htallies, hlisteners.trans ?_, hseen⟩
      unfold Registry.recordIn
      split <;> rfl

/-- The listeners of a probe: everyone registered, and once each buffer of the probe. -/
structure Listens (listeners : List Listener) (probes : List Probe) (probe : Probe)
    (names : List String) : Prop where
  names : listeners.filterMap Listener.name? = names
  nodup : (listeners.filterMap Listener.number?).Nodup
  mem_numbers : ∀ number,
    number ∈ listeners.filterMap Listener.number? ↔ probes[number]? = some probe

structure Tracks (probing : Probing) (ledger : Ledger) (names : List String) : Prop where
  tallies : Tallies probing.registry ledger
  drained : ∀ number, probing.drained number = ledger.drained number
  listens : ∀ probe, Listens (probing.registry.listeners probe) ledger.probes probe names

variable {probing : Probing} {listeners : List Listener} {probes : List Probe} {probe : Probe}
  {names : List String}

theorem Listens.register (h : Listens listeners probes probe names) (name : String) :
    Listens (listeners ++ [.observer name]) probes probe (names ++ [name]) := by
  have hnumbers : (listeners ++ [Listener.observer name]).filterMap Listener.number? =
      listeners.filterMap Listener.number? := by
    rw [List.filterMap_append]
    exact List.append_nil _
  refine ⟨?_, hnumbers ▸ h.nodup, fun number => hnumbers ▸ h.mem_numbers number⟩
  rw [List.filterMap_append, h.names]
  rfl

theorem Listens.attach (h : Listens listeners probes probe names) :
    Listens (listeners ++ [.buffer probes.length]) (probes ++ [probe]) probe names := by
  have hnumbers : (listeners ++ [Listener.buffer probes.length]).filterMap Listener.number? =
      listeners.filterMap Listener.number? ++ [probes.length] := by
    rw [List.filterMap_append]
    rfl
  have hnew : probes.length ∉ listeners.filterMap Listener.number? := by
    rw [h.mem_numbers, List.getElem?_eq_none le_rfl]
    exact nofun
  refine ⟨?_, ?_, fun number => ?_⟩
  · rw [List.filterMap_append, h.names]
    exact List.append_nil names
  · rw [hnumbers, ← List.concat_eq_append]
    exact (List.nodup_concat _ _).2 ⟨hnew, h.nodup⟩
  · rw [hnumbers, List.mem_append, h.mem_numbers, List.mem_singleton]
    rcases Nat.lt_trichotomy number probes.length with hlt | rfl | hgt
    · rw [List.getElem?_append_left hlt]
      exact or_iff_left (Nat.ne_of_lt hlt)
    · simp
    · have hlength : (probes ++ [probe]).length ≤ number := by
        rw [List.length_append, List.length_singleton]
        exact hgt
      rw [List.getElem?_eq_none hlength, List.getElem?_eq_none (Nat.le_of_lt hgt)]
      simp [Nat.ne_of_gt hgt]

theorem Listens.elsewhere (h : Listens listeners probes probe names) {other : Probe}
    (hother : probe ≠ other) : Listens listeners (probes ++ [other]) probe names := by
  refine ⟨h.names, h.nodup, fun number => (h.mem_numbers number).trans ?_⟩
  rw [List.getElem?_append]
  split
  · rfl
  · rename_i hnumber
    rw [List.getElem?_eq_none (by omega)]
    have : [other][number - probes.length]? ≠ some probe := by
      intro hsome
      obtain ⟨hlt, hget⟩ := List.getElem?_eq_some_iff.1 hsome
      simp at hlt
      simp [hlt] at hget
      exact hother hget.symm
    simp [this]

theorem tracks_empty : Tracks {} [] [] :=
  ⟨⟨rfl, fun _ => rfl⟩, fun _ => rfl, fun _ => ⟨rfl, List.nodup_nil, by simp [Ledger.probes]⟩⟩

theorem Tracks.length_probes (h : Tracks probing ledger names) :
    ledger.probes.length = probing.registry.buffers.size := by
  rw [← Array.length_toList, h.tallies.buffers, List.length_map, Ledger.probes, List.length_map]

theorem Tracks.attachFor (h : Tracks probing ledger names) (capacity : Nat) (clock : Clock)
    (probe : Probe) :
    Tracks { probing with registry := Registry.attachFor capacity clock probing.registry probe }
      (ledger ++ [(probe, .ofCapacity probe.metricType capacity clock)]) names := by
  have hlost : ∀ metricType, Ledger.lost
      (ledger ++ [(probe, .ofCapacity probe.metricType capacity clock)]) metricType =
        ledger.lost metricType := by
    simp [Ledger.lost, Account.ofCapacity, Account.lost]
  have hprobes : Ledger.probes (ledger ++ [(probe, .ofCapacity probe.metricType capacity clock)]) =
      ledger.probes ++ [probe] := List.map_append
  refine ⟨⟨?_, fun metricType => (h.tallies.dropped metricType).trans (hlost metricType).symm⟩,
    fun number => (h.drained number).trans ?_, fun other => ?_⟩
  · simp [Registry.attachFor, Registry.listen, h.tallies.buffers, Account.ofCapacity]
  · rw [Ledger.drained, Ledger.drained, List.getElem?_append]
    split
    · rfl
    · rename_i hnumber
      rw [List.getElem?_eq_none (by omega)]
      cases number - ledger.length with
      | zero => rfl
      | succ n => rfl
  · rw [hprobes]
    by_cases hother : other = probe
    · subst hother
      have hattach := (h.listens other).attach
      rw [h.length_probes] at hattach
      simpa [Registry.attachFor, Registry.listen] using hattach
    · simpa [Registry.attachFor, Registry.listen, hother] using (h.listens other).elsewhere hother

theorem Tracks.attach (h : Tracks probing ledger names) (capacity : Nat) (clock : Clock)
    (probes : List Probe) :
    Tracks { probing with
      registry := probes.foldl (Registry.attachFor capacity clock) probing.registry }
      (ledger ++ probes.map fun probe => (probe, .ofCapacity probe.metricType capacity clock))
      names := by
  induction probes generalizing probing ledger with
  | nil => simpa using h
  | cons probe probes ih => simpa using ih (h.attachFor capacity clock probe)

theorem observe_listeners (registry : Registry) (name : String) (probe : Probe) :
    (registry.observe name).listeners probe = registry.listeners probe ++ [.observer name] := by
  cases probe <;> simp [Registry.observe, Probe.all, Registry.listen]

theorem Tracks.register (h : Tracks probing ledger names) (name : String) :
    Tracks { probing with registry := probing.registry.observe name } ledger (names ++ [name]) := by
  refine ⟨⟨h.tallies.buffers, h.tallies.dropped⟩, h.drained, fun probe => ?_⟩
  rw [observe_listeners]
  exact (h.listens probe).register name

theorem Tracks.signal (h : Tracks probing ledger names) (event : Probe.Event) :
    Tracks { probing with registry := (probing.registry.signal event).1 }
        (ledger.act (.signal event)) names ∧
      (probing.registry.signal event).2 = names.map fun name => ⟨name, event⟩ := by
  have hlistens := h.listens event.probe
  obtain ⟨htallies, hlisteners, hseen⟩ :=
    h.tallies.notify event (probing.registry.listeners event.probe) []
  have hact := Ledger.act_signal hlistens.nodup hlistens.mem_numbers
  refine ⟨⟨?_, fun number => ?_, fun probe => ?_⟩, ?_⟩
  · rw [hact]
    exact htallies
  · refine (h.drained number).trans ?_
    rw [Ledger.drained, Ledger.drained, Ledger.getElem?_act_of_opened rfl, Option.map_map]
    congr 2
    funext entry
    simp only [Function.comp_apply, Ledger.serve, Act.requests]
    split <;> rfl
  · rw [hact, Ledger.probes_serveEach]
    have hsame : (probing.registry.signal event).1.listeners = probing.registry.listeners :=
      hlisteners
    rw [hsame]
    exact h.listens probe
  · rw [← hlistens.names]
    exact hseen

theorem Tracks.serveAt (h : Tracks probing ledger names) {account : Account}
    (hentry : ledger[number]? = some (probe, account)) {request : Account.Request}
    {drained : Nat → List Entry} (hlost : (account.serve request).lost = account.lost)
    (hdrained : ∀ n, drained n = (ledger.serveAt number request).drained n) :
    Tracks {
      registry := { probing.registry with
        buffers := probing.registry.buffers.setIfInBounds number (account.serve request).buffer }
      drained := drained } (ledger.serveAt number request) names := by
  have hkept : (account.serve request).lost = account.lost + if true then 0 else 1 := hlost
  refine ⟨h.tallies.serveAt hentry hkept, hdrained, fun other => ?_⟩
  rw [Ledger.probes_serveAt]
  exact h.listens other

theorem drained_serveAt {account : Account} (hentry : ledger[number]? = some (probe, account))
    (request : Account.Request) (n : Nat) :
    (ledger.serveAt number request).drained n =
      if n = number then (account.serve request).drained else ledger.drained n := by
  rw [Ledger.drained, Ledger.serveAt, List.getElem?_modify]
  by_cases hn : n = number
  · subst hn
    simp [hentry]
  · simp [hn, Ne.symm hn, Ledger.drained]

theorem Tracks.drain (h : Tracks probing ledger names) (number most : Nat) :
    Tracks (probing.drain number most) (ledger.serveAt number (.drain most)) names := by
  have hbuffers := h.tallies.getElem?_buffers number
  unfold Probing.drain Registry.drain
  cases hentry : ledger[number]? with
  | none =>
    rw [hentry] at hbuffers
    rw [serveAt_of_absent hentry, hbuffers]
    exact h
  | some entry =>
    obtain ⟨probe, account⟩ := entry
    rw [hentry] at hbuffers
    rw [hbuffers]
    have hlost : (account.serve (.drain most)).lost = account.lost := rfl
    refine h.serveAt hentry hlost fun n => ?_
    rw [drained_serveAt hentry]
    by_cases hn : n = number
    · subst hn
      rw [if_pos rfl, if_pos rfl, h.drained, Ledger.drained, hentry]
      rfl
    · rw [if_neg hn, if_neg hn]
      exact h.drained n

theorem Tracks.tick (h : Tracks probing ledger names) (number : Nat) (clock : Clock) :
    Tracks (probing.tick number clock) (ledger.serveAt number (.tick clock)) names := by
  have hbuffers := h.tallies.getElem?_buffers number
  unfold Probing.tick
  cases hentry : ledger[number]? with
  | none =>
    rw [hentry] at hbuffers
    rw [serveAt_of_absent hentry, hbuffers]
    exact h
  | some entry =>
    obtain ⟨probe, account⟩ := entry
    rw [hentry] at hbuffers
    rw [hbuffers]
    have hlost : (account.serve (.tick clock)).lost = account.lost := rfl
    refine h.serveAt hentry hlost fun n => ?_
    rw [drained_serveAt hentry]
    by_cases hn : n = number
    · subst hn
      rw [if_pos rfl, h.drained, Ledger.drained, hentry]
      rfl
    · rw [if_neg hn]
      exact h.drained n

theorem Tracks.silent {act : Act} (h : Tracks (probing.act act) (ledger.act act) names)
    (hsilent : registered [act] = []) :
    Tracks (probing.act act) (ledger.act act) (names ++ registered [act]) := by
  rwa [hsilent, List.append_nil]

theorem Tracks.act (h : Tracks probing ledger names) (act : Act) :
    Tracks (probing.act act) (ledger.act act) (names ++ registered [act]) := by
  cases act with
  | attach capacity clock =>
    refine Tracks.silent ?_ rfl
    rw [Ledger.act_of_silent fun _ _ => rfl]
    exact h.attach capacity clock Probe.all
  | register name =>
    have hopened : Ledger.opened (.register name) = [] := rfl
    rw [Ledger.act_of_silent fun _ _ => rfl, hopened, List.append_nil]
    exact h.register name
  | signal event => exact Tracks.silent (h.signal event).1 rfl
  | drain number most =>
    refine Tracks.silent ?_ rfl
    rw [Ledger.act_of_single (fun _ _ => rfl) rfl]
    exact h.drain number most
  | tick number clock =>
    refine Tracks.silent ?_ rfl
    rw [Ledger.act_of_single (fun _ _ => rfl) rfl]
    exact h.tick number clock

theorem Tracks.run (h : Tracks probing ledger names) (acts : List Act) :
    Tracks (probing.run acts) (ledger.run acts) (names ++ registered acts) := by
  induction acts generalizing probing ledger names with
  | nil => exact (List.append_nil names).symm ▸ h
  | cons act acts ih =>
    have hregistered : registered (act :: acts) = registered [act] ++ registered acts :=
      List.filterMap_append (l := [act])
    rw [hregistered, ← List.append_assoc]
    exact ih (h.act act)

/-- However a registry is used, an event is seen by the observers registered before it, once by
each, and the buffers are those of the ledger, four for each time some were attached, with every
loss counted under its metric type. What such a buffer is offered are the later events of its probe,
in order, and its books are right, which as to names means: up to the `2 ^ 31` names that ids can
tell apart. -/
theorem events_accounted (acts : List Act) :
    let registry := (run {} acts).registry
    let ledger := Ledger.run [] acts
    (∀ before event after, acts = before ++ .signal event :: after →
      ((run {} before).registry.signal event).2 =
        (registered before).map fun name => ⟨name, event⟩) ∧
    (registry.buffers.toList = (ledger.map fun entry => entry.2.buffer) ∧
      ledger.length = 4 * acts.countP Act.attaches) ∧
    (∀ metricType, registry.telemetry.count .bufferDropped metricType = ledger.lost metricType) ∧
    ∀ before capacity clock after i probe, acts = before ++ .attach capacity clock :: after →
      Probe.all[i]? = some probe →
        let number := (run {} before).registry.buffers.size + i
        ∃ account, ledger[number]? = some (probe, account) ∧
          account.buffer.metricType = probe.metricType ∧
          (run {} acts).drained number = account.drained ∧
          (account.offers.map fun offer => (offer.value.toInt, offer.tag)) =
            (((signalled after).filter fun event => event.probe = probe).map fun event =>
              (event.reading, event.tag)) ∧
          account.Balanced := by
  intro registry ledger
  have htracks : ∀ acts, Tracks (run {} acts) (Ledger.run [] acts) (registered acts) :=
    fun acts => tracks_empty.run acts
  refine ⟨fun before event after _ => ((htracks before).signal event).2,
    ⟨(htracks acts).tallies.buffers, (Ledger.length_run [] acts).trans (Nat.zero_add _)⟩,
    (htracks acts).tallies.dropped, ?_⟩
  rintro before capacity clock after i probe rfl hprobe number
  have hnumber : (Ledger.run [] before).length + i = number := by
    have hlength := (htracks before).length_probes
    rw [Ledger.probes, List.length_map] at hlength
    exact congrArg (fun size => size + i) hlength
  have hentry := Ledger.getElem?_attached before after capacity clock hprobe
  rw [hnumber] at hentry
  refine ⟨_, hentry, Account.run_metricType _ _, ?_, ?_,
    ((Account.ofCapacity_sound _ _ _).run _).balanced⟩
  · rw [(htracks _).drained, Ledger.drained, hentry]
    rfl
  · have hoffers := Account.run_offers (Account.ofCapacity probe.metricType capacity clock)
      (after.flatMap (Act.requests number probe))
    rw [Ledger.offered_requests] at hoffers
    have hreadings := congrArg (List.map fun offer : Int64 × String => (offer.1.toInt, offer.2))
      hoffers
    simpa [Account.ofCapacity, Function.comp_def, Probe.Event.value_toInt] using hreadings

/-- Two rows of buffers with two slots each, of which the first fills up and is drained late. -/
def crowded : List Act :=
  [.attach 2 {}, .register "log", .signal (.retried "a"), .signal (.queued "q" 7),
    .signal (.retried "b"), .attach 2 {}, .signal (.retried "c"), .drain 2 1, .register "trace",
    .signal (.retried "a")]

theorem events_accounted_crowded :
    (run {} crowded).registry.buffers.size = 8 ∧
    ((run {} (crowded.take 9)).registry.signal (.retried "a")).2 =
      [⟨"log", .retried "a"⟩, ⟨"trace", .retried "a"⟩] ∧
    (run {} crowded).registry.telemetry.count .bufferDropped "Retries" = 1 ∧
    ∃ account : Account, (run {} crowded).drained 2 = account.drained ∧
      (account.offers.map fun offer => (offer.value.toInt, offer.tag)) =
        [(1, "a"), (1, "b"), (1, "c"), (1, "a")] ∧ account.Balanced := by
  obtain ⟨hseen, ⟨hbuffers, hlength⟩, hdropped, hattached⟩ := events_accounted crowded
  have hsize := congrArg List.length hbuffers
  rw [Array.length_toList, List.length_map, hlength] at hsize
  obtain ⟨account, -, -, hdrained, hoffers, hbalanced⟩ :=
    hattached [] 2 {} (crowded.drop 1) 2 .retries rfl rfl
  refine ⟨hsize, hseen (crowded.take 9) (.retried "a") [] rfl, ?_, account, hdrained, hoffers,
    hbalanced⟩
  rw [hdropped]
  decide +kernel

def retries (count : Nat) : List Act :=
  (List.range count).map fun number => .signal (.retried number.repr)

def recorded (count : Nat) : List (Int64 × String) :=
  (List.range count).map fun number => (1, number.repr)

theorem tags_recorded (count : Nat) :
    (recorded count).map Prod.snd = (List.range count).map Nat.repr :=
  List.map_map

theorem run_retries (account : Account) (number count : Nat) :
    account.run ((retries (count + 1)).flatMap (Act.requests number .retries)) =
      (account.run ((recorded count).map fun item => .record item.1 item.2)).serve
        (.record 1 count.repr) := by
  have hrequests : (retries (count + 1)).flatMap (Act.requests number .retries) =
      ((recorded count).map fun item => Account.Request.record item.1 item.2) ++
        [.record 1 count.repr] := by
    rw [retries, List.range_succ, List.flatMap_map, List.flatMap_append, recorded, List.map_map,
      List.map_eq_flatMap]
    rfl
  rw [hrequests]
  exact List.foldl_concat _ _ _ _

theorem not_mem_reprs (count : Nat) : "" ∉ (List.range count).map Nat.repr := by
  intro hmem
  obtain ⟨n, -, hn⟩ := List.mem_map.1 hmem
  exact Nat.repr_ne_empty hn

/-- Where as many message types leave no id for the next one, that one has no name in its buffer. -/
theorem exists_nameless_retry (metricType : String) (capacity : Nat) (clock : Clock) {count : Nat}
    (hcount : Int32.ofNat (count + 1) < 0) (number : Nat) :
    ∃ offer ∈ ((Account.ofCapacity metricType capacity clock).run
        ((retries (count + 1)).flatMap (Act.requests number .retries))).offers,
      offer.tag = count.repr ∧ ∀ table : TagTable, table.name? offer.id = none := by
  have hsound := (Account.ofCapacity_sound metricType capacity clock).run
    ((recorded count).map fun item => .record item.1 item.2)
  have hnodup : ((recorded count).map Prod.snd).Nodup := by
    rw [tags_recorded]
    exact List.nodup_range.map Text.repr_injective
  have hnames := Account.names_run_record metricType capacity clock hnodup
    (tags_recorded count ▸ not_mem_reprs count)
  rw [run_retries]
  generalize (Account.ofCapacity metricType capacity clock).run
    ((recorded count).map fun item => .record item.1 item.2) = before at hsound hnames ⊢
  rw [tags_recorded] at hnames
  have hnew : count.repr ∉ before.buffer.tags.names := by
    rw [← Array.mem_toList_iff, hnames, List.mem_cons]
    rintro (hnone | hmem)
    · exact Nat.repr_ne_empty hnone
    · obtain ⟨n, hn, hrepr⟩ := List.mem_map.1 hmem
      exact Nat.ne_of_lt (List.mem_range.1 hn) (Text.repr_injective hrepr)
  have hsize : before.buffer.tags.names.size = count + 1 := by
    rw [← Array.length_toList, hnames, List.length_cons, List.length_map, List.length_range]
  exact hsound.exists_nameless 1 hnew (hsize ▸ hcount)

theorem getElem?_retries (after : List Act) (capacity : Nat) (clock : Clock) :
    (Ledger.run [] (.attach capacity clock :: after))[2]? = some (.retries,
      (Account.ofCapacity Probe.retries.metricType capacity clock).run
        (after.flatMap (Act.requests 2 .retries))) := by
  have hprobe : Probe.all[2]? = some .retries := rfl
  exact Ledger.getElem?_attached [] after capacity clock hprobe

/-- After so many message types that there are no ids left, the id of the last is not its name's.
And while an entry lies in its buffer, what was drained is not all that was offered and not lost. -/
theorem events_unresolved :
    (∃ account, (Ledger.run [] (.attach 2 {} :: retries (2147483647 + 1)))[2]? =
        some (.retries, account) ∧
      ∃ offer ∈ account.offers, offer.tag = Nat.repr 2147483647 ∧
        ∀ table : TagTable, table.name? offer.id = none) ∧
    ∃ account, (Ledger.run [] [.attach 2 {}, .signal (.retried "a"), .signal (.retried "b"),
        .drain 2 1])[2]? = some (.retries, account) ∧
      account.lost = 0 ∧ account.drained ≠ account.kept :=
  ⟨⟨_, getElem?_retries _ 2 {}, exists_nameless_retry _ 2 {} (by decide) 2⟩,
    _, getElem?_retries _ 2 {}, by decide +kernel, by decide +kernel⟩

end MetricReporting.Probing
