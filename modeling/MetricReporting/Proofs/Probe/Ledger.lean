import MetricReporting.Probe.Registry
import MetricReporting.Proofs.Probe.Account

/-!
# The ledger of a registry

A registry is used in any way: buffers are attached and observers registered at any time, and events
and drains come in any order. The ledger has one account for each buffer, of which a record is asked
at each event of the buffer's own probe and at nothing else.
-/
namespace MetricReporting

namespace Probe.Event

def reading : Event → Int
  | processed duration _ => min duration.toMillis (2 ^ 63 - 1)
  | delivered duration _ => min duration.toMillis (2 ^ 63 - 1)
  | retried _ => 1
  | queued _ length => length.toInt

end Probe.Event

theorem TimeSpan.clampedMillis_toInt (span : TimeSpan) :
    span.clampedMillis.toInt = min (span.toMillis : Int) (2 ^ 63 - 1) := by
  have hgreatest : Int64.maxValue.toInt = 2 ^ 63 - 1 := by decide
  rw [clampedMillis, hgreatest, Int64.toInt_ofNat_of_lt (by omega)]
  omega

theorem Probe.Event.value_toInt (event : Event) : event.value.toInt = event.reading := by
  cases event with
  | processed duration messageType => exact duration.clampedMillis_toInt
  | delivered duration messageType => exact duration.clampedMillis_toInt
  | retried messageType => rfl
  | queued queue length => rfl

namespace Listener

def number? : Listener → Option Nat
  | observer _ => none
  | buffer number => some number

def name? : Listener → Option String
  | observer name => some name
  | buffer _ => none

end Listener

/-- A registry in use, with what was drained from each of its buffers. -/
structure Probing where
  registry : Registry := {}
  drained : Nat → List Entry := fun _ => []

namespace Probing

inductive Act
  | attach (capacity : Nat) (clock : Clock)
  | register (name : String)
  | signal (event : Probe.Event)
  | drain (number most : Nat)
  | tick (number : Nat) (clock : Clock)

def drain (probing : Probing) (number most : Nat) : Probing :=
  match probing.registry.drain number most with
  | none => probing
  | some (entries, registry) =>
      { registry := registry
        drained := fun n =>
          if n = number then probing.drained n ++ entries else probing.drained n }

def tick (probing : Probing) (number : Nat) (clock : Clock) : Probing :=
  match probing.registry.buffers[number]? with
  | none => probing
  | some buffer =>
      let buffers := probing.registry.buffers.setIfInBounds number (buffer.setClock clock)
      { probing with registry := { probing.registry with buffers := buffers } }

def act (probing : Probing) : Act → Probing
  | .attach capacity clock => { probing with registry := probing.registry.attach capacity clock }
  | .register name => { probing with registry := probing.registry.observe name }
  | .signal event => { probing with registry := (probing.registry.signal event).1 }
  | .drain number most => probing.drain number most
  | .tick number clock => probing.tick number clock

def Act.attaches : Act → Bool
  | .attach _ _ => true
  | _ => false

def run (probing : Probing) (acts : List Act) : Probing :=
  acts.foldl act probing

def registered (acts : List Act) : List String :=
  acts.filterMap fun
    | .register name => some name
    | _ => none

def signalled (acts : List Act) : List Probe.Event :=
  acts.filterMap fun
    | .signal event => some event
    | _ => none

/-- What an act asks of the buffer with a number and a probe. -/
def Act.requests (number : Nat) (probe : Probe) : Act → List Account.Request
  | .signal event => if event.probe = probe then [.record event.value event.tag] else []
  | .drain other most => if other = number then [.drain most] else []
  | .tick other clock => if other = number then [.tick clock] else []
  | _ => []

abbrev Ledger : Type := List (Probe × Account)

namespace Ledger

def opened : Act → Ledger
  | .attach capacity clock =>
      Probe.all.map fun probe => (probe, .ofCapacity probe.metricType capacity clock)
  | _ => []

def serve (act : Act) (number : Nat) (entry : Probe × Account) : Probe × Account :=
  (entry.1, entry.2.run (act.requests number entry.1))

def act (ledger : Ledger) (act : Act) : Ledger :=
  ledger.mapIdx (serve act) ++ opened act

def run (ledger : Ledger) (acts : List Act) : Ledger :=
  acts.foldl act ledger

def serveAt (ledger : Ledger) (number : Nat) (request : Account.Request) : Ledger :=
  ledger.modify number fun entry => (entry.1, entry.2.serve request)

def lost (ledger : Ledger) (metricType : String) : Nat :=
  (ledger.map fun entry =>
    if entry.2.buffer.metricType = metricType then entry.2.lost else 0).sum

def drained (ledger : Ledger) (number : Nat) : List Entry :=
  (ledger[number]?.map fun entry => entry.2.drained).getD []

end Ledger

/-! ## The ledger -/

namespace Ledger

variable {ledger : Ledger} {number : Nat} {probe : Probe} {account : Account}

theorem getElem?_act (h : ledger[number]? = some (probe, account)) (act : Act) :
    (ledger.act act)[number]? = some (probe, account.run (act.requests number probe)) := by
  have hlt := (List.getElem?_eq_some_iff.1 h).1
  rw [Ledger.act, List.getElem?_append_left (by rwa [List.length_mapIdx]), List.getElem?_mapIdx, h]
  rfl

theorem getElem?_run (h : ledger[number]? = some (probe, account)) (acts : List Act) :
    (ledger.run acts)[number]? =
      some (probe, account.run (acts.flatMap (Act.requests number probe))) := by
  induction acts generalizing ledger account with
  | nil => exact h
  | cons act acts ih =>
    rw [List.flatMap_cons, Account.run, List.foldl_append]
    exact ih (getElem?_act h act)

theorem run_append (ledger : Ledger) (acts more : List Act) :
    ledger.run (acts ++ more) = (ledger.run acts).run more :=
  List.foldl_append

theorem length_run (ledger : Ledger) (acts : List Act) :
    (ledger.run acts).length = ledger.length + 4 * acts.countP Act.attaches := by
  induction acts generalizing ledger with
  | nil => rfl
  | cons act acts ih =>
    have hact : (ledger.act act).length = ledger.length + (opened act).length := by
      rw [Ledger.act, List.length_append, List.length_mapIdx]
    have hopened : (opened act).length = if act.attaches then 4 else 0 := by
      cases act <;> rfl
    refine (ih (ledger.act act)).trans ?_
    rw [hact, hopened, List.countP_cons]
    split <;> omega

theorem offered_requests (number : Nat) (probe : Probe) (acts : List Act) :
    (acts.flatMap (Act.requests number probe)).filterMap Account.Request.offered? =
      ((signalled acts).filter fun event => event.probe = probe).map fun event =>
        (event.value, event.tag) := by
  induction acts with
  | nil => rfl
  | cons act acts ih =>
    rw [List.flatMap_cons, List.filterMap_append, ih]
    cases act with
    | signal event =>
      by_cases hprobe : event.probe = probe <;>
        simp [signalled, Act.requests, hprobe, Account.Request.offered?]
    | drain other most =>
      by_cases hother : other = number <;>
        simp [signalled, Act.requests, hother, Account.Request.offered?]
    | tick other clock =>
      by_cases hother : other = number <;>
        simp [signalled, Act.requests, hother, Account.Request.offered?]
    | _ => rfl

theorem getElem?_attached (before after : List Act) (capacity : Nat) (clock : Clock) {i : Nat}
    (hprobe : Probe.all[i]? = some probe) :
    let number := (Ledger.run [] before).length + i
    (Ledger.run [] (before ++ .attach capacity clock :: after))[number]? =
      some (probe, (Account.ofCapacity probe.metricType capacity clock).run
        (after.flatMap (Act.requests number probe))) := by
  intro number
  rw [run_append, Ledger.run, List.foldl_cons]
  refine getElem?_run ?_ after
  rw [Ledger.act, List.getElem?_append_right (by simp [number]), List.length_mapIdx]
  simp [number, opened, hprobe]

theorem act_of_silent {act : Act} (h : ∀ number probe, act.requests number probe = []) :
    ledger.act act = ledger ++ opened act := by
  have hserve : serve act = fun _ entry => entry := by
    funext number entry
    rw [serve, h]
    rfl
  have hsame : ledger.mapIdx (fun _ entry => entry) = ledger := by
    apply List.ext_getElem?
    simp
  rw [Ledger.act, hserve, hsame]

theorem getElem?_act_of_opened {act : Act} (h : opened act = []) (i : Nat) :
    (ledger.act act)[i]? = ledger[i]?.map (serve act i) := by
  rw [Ledger.act, h, List.append_nil, List.getElem?_mapIdx]

theorem act_of_single {act : Act} {request : Account.Request}
    (h : ∀ other probe, act.requests other probe = if number = other then [request] else [])
    (hopened : opened act = []) : ledger.act act = ledger.serveAt number request := by
  apply List.ext_getElem?
  intro other
  rw [getElem?_act_of_opened hopened, serveAt, List.getElem?_modify]
  congr 1
  funext entry
  rw [serve, h]
  split <;> rfl

section Sums

variable {α β : Type} (f : α → α) {rows : List α} {i : Nat} {a : α}

theorem map_modify_eq_set (g : α → β) (h : rows[i]? = some a) :
    (rows.modify i f).map g = (rows.map g).set i (g (f a)) := by
  induction rows generalizing i with
  | nil => simp at h
  | cons row rows ih =>
    cases i with
    | zero =>
      obtain rfl : row = a := by simpa using h
      simp
    | succ i => simpa using ih (i := i) (by simpa using h)

theorem sum_map_modify (g : α → Nat) (h : rows[i]? = some a) :
    ((rows.modify i f).map g).sum + g a = (rows.map g).sum + g (f a) := by
  induction rows generalizing i with
  | nil => simp at h
  | cons row rows ih =>
    cases i with
    | zero =>
      obtain rfl : row = a := by simpa using h
      simp
      omega
    | succ i =>
      have hrest := ih (i := i) (by simpa using h)
      simp
      omega

end Sums

def serveEach (ledger : Ledger) (request : Account.Request) (numbers : List Nat) : Ledger :=
  numbers.foldl (fun ledger number => ledger.serveAt number request) ledger

theorem getElem?_serveEach (request : Account.Request) {numbers : List Nat} (h : numbers.Nodup)
    (i : Nat) :
    (ledger.serveEach request numbers)[i]? =
      if i ∈ numbers then ledger[i]?.map fun entry => (entry.1, entry.2.serve request)
      else ledger[i]? := by
  induction numbers generalizing ledger with
  | nil => simp [serveEach]
  | cons number numbers ih =>
    obtain ⟨hnot, hrest⟩ := List.nodup_cons.1 h
    have hstep : ledger.serveEach request (number :: numbers) =
        (ledger.serveAt number request).serveEach request numbers := rfl
    rw [hstep, ih hrest, serveAt, List.getElem?_modify]
    by_cases hi : number = i
    · subst hi
      simp [hnot]
    · simp [hi, Ne.symm hi]

def probes (ledger : Ledger) : List Probe :=
  ledger.map Prod.fst

theorem probes_serveAt (ledger : Ledger) (number : Nat) (request : Account.Request) :
    (ledger.serveAt number request).probes = ledger.probes := by
  apply List.ext_getElem?
  intro i
  rw [probes, probes, serveAt, List.getElem?_map, List.getElem?_map, List.getElem?_modify]
  cases ledger[i]? with
  | none => rfl
  | some entry => by_cases hi : number = i <;> simp [hi]

theorem probes_serveEach (ledger : Ledger) (request : Account.Request) (numbers : List Nat) :
    (ledger.serveEach request numbers).probes = ledger.probes := by
  induction numbers generalizing ledger with
  | nil => rfl
  | cons number numbers ih => exact (ih _).trans (probes_serveAt ledger number request)

theorem act_signal {event : Probe.Event} {numbers : List Nat} (h : numbers.Nodup)
    (hmem : ∀ number, number ∈ numbers ↔ ledger.probes[number]? = some event.probe) :
    ledger.act (.signal event) = ledger.serveEach (.record event.value event.tag) numbers := by
  apply List.ext_getElem?
  intro i
  have hmem := hmem i
  rw [getElem?_serveEach _ h, getElem?_act_of_opened rfl]
  rw [probes, List.getElem?_map] at hmem
  cases hentry : ledger[i]? with
  | none => simp
  | some entry =>
    rw [hentry, Option.map_some, Option.some.injEq] at hmem
    by_cases hprobe : entry.1 = event.probe
    · rw [if_pos (hmem.2 hprobe)]
      simp [serve, Act.requests, hprobe, Account.run]
    · rw [if_neg (mt hmem.1 hprobe)]
      simp [serve, Act.requests, Ne.symm hprobe, Account.run]

end Ledger

end Probing

end MetricReporting
