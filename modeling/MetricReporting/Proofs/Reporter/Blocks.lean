import MetricReporting.Proofs.Reporter.DrainCall
import MetricReporting.Proofs.Reporter.DrainOnStop

/-!
# The blocks of a drain

A drain cuts what it consumes into batches as it goes, in chunks whose sizes the ring decides on.
Main statement: a call that begins with nothing pending encodes the entries of the positions it
consumes, in the order of these positions, in full batches and one last batch of what is left, if
anything is.
-/
namespace MetricReporting

/-- The sizes of the blocks that so many entries come in: full ones, and a last one of what is
left. -/
def blockSizes (limit count : Nat) : List Nat :=
  List.replicate (count / limit) limit ++ if count % limit = 0 then [] else [count % limit]

section Sizes

variable {limit size : Nat} {sizes : List Nat}

theorem blockSizes_mul_add (count : Nat) (h : size < limit) :
    blockSizes limit (count * limit + size) =
      List.replicate count limit ++ if size = 0 then [] else [size] := by
  have hquotient : (count * limit + size) / limit = count := by
    rw [Nat.mul_comm, Nat.mul_add_div (Nat.zero_lt_of_lt h), Nat.div_eq_of_lt h, Nat.add_zero]
  have hrest : (count * limit + size) % limit = size := by
    rw [Nat.mul_comm, Nat.mul_add_mod, Nat.mod_eq_of_lt h]
  rw [blockSizes, hquotient, hrest]

theorem length_blockSizes (hlimit : 0 < limit) (count : Nat) :
    (blockSizes limit count).length = (count + limit - 1) / limit := by
  have hcount := Nat.div_add_mod' count limit
  have hrest := Nat.mod_lt count hlimit
  generalize count / limit = quotient, count % limit = rest at hcount hrest
  subst hcount
  rw [blockSizes_mul_add quotient hrest, List.length_append, List.length_replicate]
  split
  · rename_i hnone
    subst hnone
    rw [Nat.add_zero, Nat.add_sub_assoc hlimit, Nat.mul_comm, Nat.mul_add_div hlimit,
      Nat.div_eq_of_lt (Nat.sub_lt hlimit Nat.one_pos)]
    rfl
  · rename_i hsome
    have hround : quotient * limit + rest + limit - 1 = limit * (quotient + 1) + (rest - 1) := by
      rw [Nat.mul_add, Nat.mul_comm limit]
      omega
    rw [hround, Nat.mul_add_div hlimit, Nat.div_eq_of_lt (by omega)]
    rfl

theorem pos_of_mem_blockSizes (hlimit : 0 < limit) {count : Nat}
    (h : size ∈ blockSizes limit count) :
    0 < size := by
  rcases List.mem_append.1 h with hfull | hlast
  · rw [List.eq_of_mem_replicate hfull]
    exact hlimit
  · split at hlast
    · cases hlast
    · rename_i hsome
      rw [List.mem_singleton.1 hlast]
      exact Nat.pos_of_ne_zero hsome

theorem sizes_of_full (hlimit : 0 < limit) (h : ∀ size ∈ sizes, size = limit) :
    sizes = blockSizes limit sizes.sum := by
  obtain ⟨count, rfl⟩ : ∃ count, sizes = List.replicate count limit :=
    ⟨_, List.eq_replicate_of_mem h⟩
  have hblocks := blockSizes_mul_add count hlimit
  rw [if_pos rfl, List.append_nil, Nat.add_zero] at hblocks
  rw [List.sum_replicate_nat, hblocks]

theorem sizes_of_rest (h : ∀ size ∈ sizes, size = limit) (hsome : 0 < size) (hrest : size < limit) :
    sizes ++ [size] = blockSizes limit (sizes ++ [size]).sum := by
  obtain ⟨count, rfl⟩ : ∃ count, sizes = List.replicate count limit :=
    ⟨_, List.eq_replicate_of_mem h⟩
  have hblocks := blockSizes_mul_add count hrest
  rw [if_neg (Nat.ne_of_gt hsome)] at hblocks
  rw [List.sum_append, List.sum_replicate_nat, List.sum_singleton, hblocks]

end Sizes

/-! ## What the phase says of the blocks so far -/

/-- The blocks are full until the call has none but its last batch to encode. -/
def DrainLoop.Next.Lays (limit : Nat) (sizes : List Nat) : DrainLoop.Next → Prop
  | .draining _ _ => ∀ size ∈ sizes, size = limit
  | .drained _ => sizes = blockSizes limit sizes.sum

def DrainLoop.Phase.Lays (limit : Nat) (sizes : List Nat) : DrainLoop.Phase → Prop
  | .submitting _ _ next => next.Lays limit sizes
  | .drained _ => sizes = blockSizes limit sizes.sum
  | .panicked => True
  | _ => ∀ size ∈ sizes, size = limit

namespace Gauge

variable {limit : Nat} {writer : PayloadWriter} {old : List (List Entry × Bytes)} {g g' : Gauge}
  {own : Bool}

/-- What has been encoded since the journal read `old`. -/
def Laid (limit : Nat) (writer : PayloadWriter) (old : List (List Entry × Bytes)) (g : Gauge) :
    Prop :=
  ∃ new, g.encoded = old ++ new ∧ g.phase.Lays limit (new.map fun item => item.1.length) ∧
    ∀ item ∈ new, ∃ tags, writer.encode? tags item.1 = some item.2

theorem Laid.pass (h : g.Laid limit writer old) (hencoded : g'.encoded = g.encoded)
    (hphase : ∀ sizes, g.phase.Lays limit sizes → g'.phase.Lays limit sizes) :
    g'.Laid limit writer old := by
  obtain ⟨new, hnew, hsizes, hmade⟩ := h
  exact ⟨new, hencoded.trans hnew, hphase _ hsizes, hmade⟩

theorem onward_lays {size target : Nat} {final : Bool} {sizes : List Nat} (consumer : Ring.Consume)
    (h : ∀ size ∈ sizes, size = limit) :
    (DrainLoop.Phase.onward limit size target final consumer).Lays limit sizes := by
  unfold DrainLoop.Phase.onward
  split
  · split <;> exact h
  · split <;> exact h
  · exact h

theorem Laid.encode (h : g.Laid limit writer old) (hfilled : g.Filled limit)
    {tags : TagTable} {payload : Bytes} {next : DrainLoop.Next} (hcase : g.phase = .encoding next)
    (hpayload : writer.encode? tags g.pending = some payload) : Laid limit writer old { g with
      phase := .submitting payload g.pending.length next
      pending := []
      encoded := g.encoded ++ [(g.pending, payload)] } := by
  obtain ⟨new, hnew, hfull, hmade⟩ := h
  have hfills := hfilled.fills
  rw [hcase] at hfull hfills
  refine ⟨new ++ [(g.pending, payload)], ?_, ?_, fun item hitem => ?_⟩
  · rw [← List.append_assoc, ← hnew]
  · rw [List.map_append]
    cases next with
    | draining target final =>
      intro size hsize
      rcases List.mem_append.1 hsize with hold | hlast
      · exact hfull size hold
      · exact (List.mem_singleton.1 hlast).trans hfills
    | drained final => exact sizes_of_rest hfull hfills.1 hfills.2
  · rcases List.mem_append.1 hitem with hold | hlast
    · exact hmade item hold
    · rw [List.mem_singleton.1 hlast]
      exact ⟨tags, hpayload⟩

theorem Laid.moved (hlimit : 0 < limit) (h : g.Laid limit writer old) (hfilled : g.Filled limit)
    (hcall : g.phase.inDrain = true) (hmoved : g.Moved limit writer own g') :
    g'.Laid limit writer old := by
  cases hmoved with
  | elsewhere traffic hconsumer hconsumed hhanded => exact h
  | outside _ phase hbefore =>
    rw [hbefore] at hcall
    cases hcall
  | begin target final hcase hidle hmore => exact h
  | access target final hcase hbusy =>
    refine h.pass rfl fun sizes hsizes => onward_lays _ ?_
    rwa [hcase] at hsizes
  | reach target final hcase hidle hreached =>
    refine h.pass rfl fun sizes hsizes => ?_
    rwa [hcase] at hsizes
  | empty final hcase hempty =>
    refine h.pass rfl fun sizes hsizes => sizes_of_full hlimit ?_
    rwa [hcase] at hsizes
  | leave final hcase hsome =>
    refine h.pass rfl fun sizes hsizes => ?_
    rwa [hcase] at hsizes
  | encode tags payload next hcase hpayload => exact h.encode hfilled hcase hpayload
  | panic next hcase => exact h.pass rfl fun sizes hsizes => trivial
  | submit payload entries next hcase =>
    refine h.pass rfl fun sizes hsizes => ?_
    rw [hcase] at hsizes
    cases next with
    | draining | drained => exact hsizes

theorem Filled.encoded_of_empty (h : g.Filled limit) (hempty : g.pending = []) :
    (g.encoded.map Prod.fst).flatten = g.traffic.handed.flatten := by
  rw [← h.drained, hempty, List.append_nil]

end Gauge

/-! ## In every run -/

namespace DrainCall

open Drainage (ready)

variable {limit base target : Nat} {final : Bool} {d : Drainage} {c : DrainCall}

structure Blocked (limit : Nat) (d : Drainage) (c : DrainCall) : Prop where
  origin : c.drainage.traffic.origin = d.traffic.origin
  writer : c.drainage.reporter.writer = d.reporter.writer
  laid : c.drainage.gauge.Laid limit d.reporter.writer d.journal.encoded

theorem Blocked.act (h : c.Blocked limit d) (hsound : c.Sound limit base target final)
    (act : Drainage.Act) : (c.act act).Blocked limit d := by
  cases hover : c.isOver with
  | true =>
    rw [act_of_isOver hover]
    exact h
  | false =>
    rw [act_of_inDrain hover]
    have hmoved := hsound.steady.moved act
    rw [h.writer] at hmoved
    exact ⟨(c.drainage.act_origin act).trans h.origin, (c.drainage.act_writer act).trans h.writer,
      h.laid.moved hsound.steady.pos hsound.steady.filled (inDrain_of_not_over hover) hmoved⟩

theorem Blocked.run (h : c.Blocked limit d) (hsound : c.Sound limit base target final)
    (acts : List Drainage.Act) : (c.run acts).Blocked limit d := by
  induction acts generalizing c with
  | nil => exact h
  | cons act acts ih => exact ih (h.act hsound act) (hsound.act act)

theorem watch_blocked (hphase : d.loop.phase = .draining target final) :
    (watch d).Blocked limit d := by
  have hgauge : d.gauge.phase = .draining target final := hphase
  refine ⟨rfl, rfl, [], (List.append_nil _).symm, ?_, List.forall_mem_nil _⟩
  rw [watch, hgauge]
  exact List.forall_mem_nil _

theorem Sound.rests (h : c.Sound limit base target final) {last : Bool}
    (hdrained : c.drainage.loop.phase = .drained last) :
    c.drainage.loop.pending = [] ∧ c.drainage.traffic.consumer.isReturned = true ∧
      c.drainage.traffic.ring.consumed = base + c.tally.answers.sum ∧
      (final = true → target ≤ c.drainage.traffic.ring.consumed) := by
  have hphase : c.drainage.gauge.phase = .drained last := hdrained
  have hfills := h.steady.filled.fills
  have haims := h.counts.aims
  have hsummed := h.counts.summed
  have hidle : c.drainage.gauge.traffic.consumer.isReturned = true :=
    h.steady.filled.isReturned (by rw [hphase]; nofun)
  rw [hphase] at hfills haims
  rw [Ring.Consume.untold_of_isReturned hidle, Nat.add_zero] at hsummed
  exact ⟨List.length_eq_zero_iff.1 hfills, hidle, hsummed, haims.2⟩

/-- What is encoded between two moments with nothing pending and no consume under way are the
entries of the positions consumed in between. -/
theorem Blocked.positions (h : c.Blocked limit d) (hbefore : d.Steady limit)
    (hafter : c.drainage.Steady limit) (hidle : d.traffic.consumer.isReturned = true)
    (hrests : c.drainage.traffic.consumer.isReturned = true) (hpending : d.loop.pending = [])
    (hempty : c.drainage.loop.pending = []) {new : List (List Entry × Bytes)}
    (hnew : c.drainage.journal.encoded = d.journal.encoded ++ new) :
    d.traffic.ring.consumed + (new.map Prod.fst).flatten.length = c.drainage.traffic.ring.consumed ∧
      (new.map Prod.fst).flatten.map some =
        (List.range (new.map Prod.fst).flatten.length).map fun place =>
          c.drainage.traffic.recorded? (d.traffic.ring.consumed + place) := by
  have hold : (d.journal.encoded.map Prod.fst).flatten = d.traffic.handed.flatten :=
    hbefore.filled.encoded_of_empty hpending
  have hsplit : c.drainage.traffic.handed.flatten =
      d.traffic.handed.flatten ++ (new.map Prod.fst).flatten := by
    rw [← hold, ← List.flatten_append, ← List.map_append, ← hnew]
    exact (hafter.filled.encoded_of_empty hempty).symm
  have hplace : d.traffic.origin + d.traffic.handed.flatten.length = d.traffic.ring.consumed := by
    rw [hbefore.traffic.handed_length, Ring.Traffic.reached_of_isReturned hidle]
  constructor
  · have hlength := hafter.traffic.handed_length
    rw [Ring.Traffic.reached_of_isReturned hrests, hsplit, h.origin, List.length_append] at hlength
    omega
  · have hrecorded := hafter.traffic.recorded?_of_split hsplit
    rwa [h.origin, hplace] at hrecorded

/-- A drain cuts what it consumes into blocks. However the ring lays the entries out, whatever its
consumes return and whatever anyone does in between, a call that begins with nothing pending and
drains encodes just the entries of the positions it consumes, in the order of the positions, in full
batches but for the last, and it leaves nothing pending; one that waits for entries consumes all
positions up to its target. -/
theorem drained_in_blocks (metricType : String) (settings : DrainSettings) (writer : PayloadWriter)
    (requested position : Nat) (clock : Clock) (tags : TagTable) (before : List Drainage.Act)
    (target : Nat) (final : Bool) (acts : List Drainage.Act) :
    let d := (ready metricType settings writer (Ring.startingAt requested position clock) tags).run
      before
    let limit := max settings.maxFlushSize 1
    let c := (watch d).run acts
    let consumed := c.tally.answers.sum
    d.loop.phase = .draining target final → d.traffic.consumer.isReturned = true →
      d.loop.pending = [] → c.drainage.loop.phase = .drained final →
      c.drainage.traffic.ring.consumed = d.traffic.ring.consumed + consumed ∧
      (final = true → target - d.traffic.ring.consumed ≤ consumed) ∧
      c.drainage.loop.pending = [] ∧
      ∃ new, c.drainage.journal.encoded = d.journal.encoded ++ new ∧
        new.length = (consumed + limit - 1) / limit ∧
        new.map (fun item => item.1.length) = blockSizes limit consumed ∧
        (∀ item ∈ new, item.1 ≠ [] ∧ ∃ tags, writer.encode? tags item.1 = some item.2) ∧
        (new.map Prod.fst).flatten.map some = (List.range consumed).map fun place =>
          c.drainage.traffic.recorded? (d.traffic.ring.consumed + place) := by
  intro d limit c consumed hphase hidle hpending hdrained
  have hsteady : d.Steady limit :=
    (Drainage.ready_steady metricType settings writer
      (Ring.startingAt_fresh requested position clock) tags).run before
  have hstart := watch_sound hsteady hphase hidle
  have hsound : c.Sound limit d.traffic.ring.consumed target final := hstart.run acts
  have hblocked : c.Blocked limit d := (watch_blocked hphase).run hstart acts
  have hwriter : d.reporter.writer = writer := Drainage.run_writer _ before
  obtain ⟨hempty, hrests, hconsumed, hreaches⟩ := hsound.rests hdrained
  obtain ⟨new, hnew, hsizes, hmade⟩ := hblocked.laid
  have hgauge : c.drainage.gauge.phase = .drained final := hdrained
  rw [hgauge] at hsizes
  obtain ⟨hend, hrecorded⟩ :=
    hblocked.positions hsteady hsound.steady hidle hrests hpending hempty hnew
  have hcount : (new.map Prod.fst).flatten.length = consumed :=
    Nat.add_left_cancel (hend.trans hconsumed)
  have hblocks : new.map (fun item => item.1.length) = blockSizes limit consumed := by
    rw [← hcount, List.length_flatten, List.map_map]
    exact hsizes
  rw [hcount] at hrecorded
  refine ⟨hconsumed, fun hfinal => ?_, hempty, new, hnew, ?_, hblocks, fun item hitem => ?_,
    hrecorded⟩
  · have hall := hreaches hfinal
    omega
  · rw [← length_blockSizes hsteady.pos, ← hblocks, List.length_map]
  · refine ⟨fun hnone => ?_, hwriter ▸ hmade item hitem⟩
    have hmem : item.1.length ∈ blockSizes limit consumed := by
      rw [← hblocks]
      exact List.mem_map_of_mem hitem
    have hpositive := pos_of_mem_blockSizes hsteady.pos hmem
    rw [hnone] at hpositive
    exact Nat.lt_irrefl 0 hpositive

/-- Five entries, of which the second is not published and the end of the array comes after the
third; then a stop, and the loop as far as the target of its last drain. -/
def holed : List Drainage.Act :=
  let access (number count : Nat) := List.replicate count (Drainage.Act.access number false)
  List.replicate 5 (.write 10 0) ++ access 0 6 ++ access 1 3 ++ access 2 6 ++ access 3 6 ++
    access 4 6 ++ [.start 0 true, .stop, .loop 0, .loop 0]

def filling : List Drainage.Act :=
  List.replicate 23 (.loop 0) ++ List.replicate 3 (.access 1 false) ++ List.replicate 60 (.loop 0)

def filled : DrainCall :=
  (watch ((ready "Values" ⟨0, 2, 4, 0⟩ Drainage.bareValues (Ring.startingAt 8 5 {}) {}).run
    holed)).run filling

theorem drained_in_blocks_filled :
    let d := (ready "Values" ⟨0, 2, 4, 0⟩ Drainage.bareValues (Ring.startingAt 8 5 {}) {}).run holed
    d.loop.phase = .draining 10 true ∧ filled.tally.answers = [1, 0, 1, 1, 1, 1] ∧
      filled.drainage.loop.pending = [] ∧
      ∃ new, filled.drainage.journal.encoded = d.journal.encoded ++ new ∧
        new.map (fun item => item.1.length) = [2, 2, 1] := by
  intro d
  have hphase : d.loop.phase = .draining 10 true := by decide +kernel
  have hidle : d.traffic.consumer.isReturned = true := by decide +kernel
  have hpending : d.loop.pending = [] := by decide +kernel
  have hdrained : filled.drainage.loop.phase = .drained true := by decide +kernel
  have hanswers : filled.tally.answers = [1, 0, 1, 1, 1, 1] := by decide +kernel
  have h :=
    drained_in_blocks "Values" ⟨0, 2, 4, 0⟩ Drainage.bareValues 8 5 {} {} holed 10 true filling
    hphase hidle hpending hdrained
  rw [← filled, hanswers] at h
  obtain ⟨-, -, hempty, new, hnew, -, hblocks, -⟩ := h
  exact ⟨hphase, hanswers, hempty, new, hnew, hblocks⟩

end DrainCall

end MetricReporting
