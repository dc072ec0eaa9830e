import MetricReporting.Payload.Encode
import MetricReporting.Proofs.Keyed
import MetricReporting.Proofs.Payload.Gathering
import MetricReporting.Proofs.Payload.Grammar
import MetricReporting.Proofs.Payload.TaggedRoundTrip
import Mathlib.Data.List.Basic
import Mathlib.Data.List.Induction

/-!
# Grouping per tag

What gathering in one pass comes to, said of all values at once: the values of an id are cut into
runs of 512, a run counts as closed at the value that begins the next one, the closed runs come
first in that order, and then the last run of every id by ascending id. The name of an id plays no
part but to label its messages.
-/
namespace MetricReporting

namespace Payload

/-! ## Runs -/

section Runs

variable {α : Type}

/-- Cuts a row into runs of 512, the last one with what is left. -/
def runsOf (values : List α) : List (List α) :=
  match values with
  | [] => []
  | first :: rest => (first :: rest).take 512 :: runsOf ((first :: rest).drop 512)
termination_by values.length
decreasing_by
  rw [List.length_drop, List.length_cons]
  omega

def closedLength (values : List α) : Nat :=
  (values.length - 1) / 512 * 512

def lastRun (values : List α) : List α :=
  values.drop (closedLength values)

theorem runsOf_of_ne_nil {values : List α} (h : values ≠ []) :
    runsOf values = values.take 512 :: runsOf (values.drop 512) := by
  cases values with
  | nil => exact absurd rfl h
  | cons first rest => rw [runsOf]

theorem runsOf_append {front : List α} (h : 512 ∣ front.length) (back : List α) :
    runsOf (front ++ back) = runsOf front ++ runsOf back := by
  obtain ⟨k, hk⟩ := h
  induction k generalizing front with
  | zero =>
    obtain rfl : front = [] := List.eq_nil_of_length_eq_zero hk
    rw [List.nil_append, runsOf, List.nil_append]
  | succ k ih =>
    have hne : front ≠ [] := by
      rintro rfl
      rw [List.length_nil] at hk
      omega
    have hle : 512 ≤ front.length := by omega
    have hrest : (front.drop 512).length = 512 * k := by
      rw [List.length_drop]
      omega
    rw [runsOf_of_ne_nil (List.append_ne_nil_of_left_ne_nil hne back), runsOf_of_ne_nil hne,
      List.take_append_of_le_length hle, List.drop_append_of_le_length hle, ih hrest,
      List.cons_append]

theorem runsOf_of_le {values : List α} (h : values ≠ []) (hle : values.length ≤ 512) :
    runsOf values = [values] := by
  rw [runsOf_of_ne_nil h, List.take_of_length_le hle, List.drop_eq_nil_of_le hle, runsOf]

theorem runsOf_closed {values : List α} (h : values ≠ []) :
    runsOf values = runsOf (values.take (closedLength values)) ++ [lastRun values] := by
  have hpos := List.length_pos_iff.2 h
  have hlast : (lastRun values).length = values.length - closedLength values := List.length_drop
  have htake : (values.take (closedLength values)).length = closedLength values :=
    List.length_take_of_le (by unfold closedLength; omega)
  have hne : lastRun values ≠ [] := by
    intro hnil
    rw [hnil, List.length_nil, closedLength] at hlast
    omega
  have hle : (lastRun values).length ≤ 512 := by
    rw [hlast, closedLength]
    omega
  rw [← runsOf_of_le hne hle, ← runsOf_append, lastRun, List.take_append_drop]
  rw [htake]
  exact Nat.dvd_mul_left 512 _

theorem flatten_runsOf (values : List α) : (runsOf values).flatten = values := by
  fun_induction runsOf values with
  | case1 => rfl
  | case2 first rest ih => rw [List.flatten_cons, ih, List.take_append_drop]

theorem length_of_mem_runsOf {values run : List α} (h : run ∈ runsOf values) :
    1 ≤ run.length ∧ run.length ≤ 512 := by
  fun_induction runsOf values with
  | case1 => cases h
  | case2 first rest ih =>
    rcases List.mem_cons.1 h with rfl | hrest
    · rw [List.length_take, List.length_cons]
      omega
    · exact ih hrest

end Runs

/-! ## The runs of all ids -/

/-- The run of its id that an item closes by beginning the next one. -/
def closing (before : List TaggedItem) (item : TaggedItem) : Option (Int32 × List TimedValue) :=
  let values := valuesOf item.id before
  if values ≠ [] ∧ 512 ∣ values.length then some (item.id, values.drop (values.length - 512))
  else none

/-- The runs that are followed by another one of their id, in the order in which the others
begin. -/
def closedRuns (items : List TaggedItem) : List (Int32 × List TimedValue) :=
  (List.range items.length).filterMap fun i => items[i]?.bind (closing (items.take i))

def ascendingIds (items : List TaggedItem) : List Int32 :=
  dedupAdjacent ((items.map TaggedItem.id).mergeSort fun a b => decide (a ≤ b))

def lastRuns (items : List TaggedItem) : List (Int32 × List TimedValue) :=
  (ascendingIds items).map fun id => (id, lastRun (valuesOf id items))

def groupedRuns (items : List TaggedItem) : List (Int32 × List TimedValue) :=
  closedRuns items ++ lastRuns items

def runsUnder (id : Int32) (runs : List (Int32 × List TimedValue)) : List (List TimedValue) :=
  (runs.filter fun run => run.1 = id).map Prod.snd

variable {items : List TaggedItem} {item : TaggedItem} {id : Int32}

theorem closedRuns_concat (items : List TaggedItem) (item : TaggedItem) :
    closedRuns (items ++ [item]) = closedRuns items ++ (closing items item).toList := by
  have hold : ∀ i ∈ List.range items.length,
      (items ++ [item])[i]?.bind (closing ((items ++ [item]).take i)) =
        items[i]?.bind (closing (items.take i)) := by
    intro i hi
    have hlt := List.mem_range.1 hi
    rw [List.getElem?_append_left hlt, List.take_append_of_le_length (Nat.le_of_lt hlt)]
  have hnew : (items ++ [item])[items.length]?.bind
      (closing ((items ++ [item]).take items.length)) = closing items item := by
    rw [List.getElem?_concat_length, List.take_left]
    rfl
  rw [closedRuns, List.length_append, List.length_singleton, List.range_succ, List.filterMap_append,
    List.filterMap_congr hold, ← closedRuns]
  congr 1
  simp only [List.filterMap_cons, hnew, List.filterMap_nil]
  cases closing items item <;> rfl

theorem valuesOf_ne_nil_iff : valuesOf id items ≠ [] ↔ ∃ item ∈ items, item.id = id := by
  rw [valuesOf, ne_eq, List.map_eq_nil_iff, List.filter_eq_nil_iff]
  simp

theorem mem_ascendingIds : id ∈ ascendingIds items ↔ valuesOf id items ≠ [] := by
  rw [ascendingIds, mem_dedupAdjacent, List.mem_mergeSort, List.mem_map, valuesOf_ne_nil_iff]

theorem dedupAdjacent_ascending {ids : List Int32} (h : ids.Pairwise fun a b => a ≤ b) :
    (dedupAdjacent ids).Pairwise fun a b => a < b := by
  fun_induction dedupAdjacent ids with
  | case1 => exact List.Pairwise.nil
  | case2 a => exact List.pairwise_singleton _ _
  | case3 a rest ih => exact ih (List.pairwise_cons.1 h).2
  | case4 a b rest hne ih =>
    obtain ⟨hhead, hrest⟩ := List.pairwise_cons.1 h
    refine List.pairwise_cons.2 ⟨fun c hc => ?_, ih hrest⟩
    have hlt : a < b := Int32.lt_of_le_of_ne (hhead b List.mem_cons_self) hne
    rcases List.mem_cons.1 ((mem_dedupAdjacent _).1 hc) with rfl | hmem
    · exact hlt
    · exact Int32.lt_of_lt_of_le hlt ((List.pairwise_cons.1 hrest).1 c hmem)

theorem sortedIds_ascending (ids : List Int32) :
    (dedupAdjacent (ids.mergeSort fun a b => decide (a ≤ b))).Pairwise fun a b => a < b := by
  refine dedupAdjacent_ascending ?_
  refine (List.pairwise_mergeSort (fun a b c hab hbc => ?_) (fun a b => ?_) _).imp of_decide_eq_true
  · exact decide_eq_true (Int32.le_trans (of_decide_eq_true hab) (of_decide_eq_true hbc))
  · rcases Int32.le_total a b with h | h <;> simp [h]

theorem ascendingIds_ascending (items : List TaggedItem) :
    (ascendingIds items).Pairwise fun a b => a < b :=
  sortedIds_ascending _

theorem runsUnder_append (id : Int32) (runs more : List (Int32 × List TimedValue)) :
    runsUnder id (runs ++ more) = runsUnder id runs ++ runsUnder id more := by
  simp [runsUnder]

theorem closedLength_concat {α : Type} (values : List α) (value : α) :
    closedLength (values ++ [value]) =
      if values ≠ [] ∧ 512 ∣ values.length then values.length else closedLength values := by
  have hlength : (values ++ [value]).length - 1 = values.length := by
    rw [List.length_append, List.length_singleton, Nat.add_sub_cancel]
  rw [closedLength, hlength]
  split
  · rename_i h
    exact Nat.div_mul_cancel h.2
  · rename_i h
    rw [closedLength]
    by_cases hnil : values = []
    · rw [hnil]
      rfl
    · have hpos := List.length_pos_iff.2 hnil
      have hnot : ¬ 512 ∣ values.length := fun hdvd => h ⟨hnil, hdvd⟩
      omega

theorem runsUnder_closedRuns (id : Int32) (items : List TaggedItem) :
    runsUnder id (closedRuns items) =
      runsOf ((valuesOf id items).take (closedLength (valuesOf id items))) := by
  induction items using List.reverseRecOn with
  | nil =>
    have hnil : valuesOf id [] = [] := rfl
    rw [hnil, List.take_nil, runsOf]
    rfl
  | append_singleton items item ih =>
    rw [closedRuns_concat, runsUnder_append, ih]
    by_cases hid : id = item.id
    · subst hid
      have hle : closedLength (valuesOf item.id items) ≤ (valuesOf item.id items).length := by
        unfold closedLength
        omega
      rw [valuesOf_append_self, closedLength_concat, closing]
      split
      · rename_i h
        have hclosed : closedLength (valuesOf item.id items) =
            (valuesOf item.id items).length - 512 := by
          have := List.length_pos_iff.2 h.1
          unfold closedLength
          omega
        rw [List.take_left, runsOf_closed h.1, lastRun, hclosed]
        simp [runsUnder]
      · rw [List.take_append_of_le_length hle]
        simp [runsUnder]
    · rw [valuesOf_append_other hid]
      have hnone : runsUnder id (closing items item).toList = [] := by
        rw [closing]
        split
        · simp [runsUnder, Ne.symm hid]
        · rfl
      rw [hnone, List.append_nil]

theorem lastRuns_ascending (items : List TaggedItem) :
    (lastRuns items).Pairwise fun a b => a.1 < b.1 :=
  List.pairwise_map.2 (ascendingIds_ascending items)

theorem find?_lastRuns (id : Int32) (items : List TaggedItem) :
    Keyed.find? id (lastRuns items) =
      if valuesOf id items ≠ [] then some (lastRun (valuesOf id items)) else none := by
  rw [lastRuns, Keyed.find?_map]
  simp only [mem_ascendingIds]

/-- Under each id stand its values in the order of the payload, cut into runs. -/
theorem runsUnder_groupedRuns (id : Int32) (items : List TaggedItem) :
    runsUnder id (groupedRuns items) = runsOf (valuesOf id items) := by
  have hkeys : (lastRuns items).Pairwise fun a b => a.1 ≠ b.1 :=
    (lastRuns_ascending items).imp fun hlt => Int32.ne_of_lt hlt
  have hlast : runsUnder id (lastRuns items) = (Keyed.find? id (lastRuns items)).toList :=
    Keyed.filter_eq_find? id hkeys
  rw [groupedRuns, runsUnder_append, runsUnder_closedRuns, hlast, find?_lastRuns]
  by_cases h : valuesOf id items = []
  · rw [h, List.take_nil, if_neg fun hne => hne rfl, runsOf]
    rfl
  · rw [if_pos h, runsOf_closed h]
    rfl

theorem length_of_mem_groupedRuns {run : Int32 × List TimedValue} (h : run ∈ groupedRuns items) :
    1 ≤ run.2.length ∧ run.2.length ≤ 512 := by
  have hunder : run.2 ∈ runsUnder run.1 (groupedRuns items) :=
    List.mem_map.2 ⟨run, List.mem_filter.2 ⟨h, decide_eq_true rfl⟩, rfl⟩
  rw [runsUnder_groupedRuns] at hunder
  exact length_of_mem_runsOf hunder

/-! ## Gathering in one pass -/

theorem Preamble.name?_eq_getLast? (start : Preamble) (id : Int32) :
    start.name? id = ((start.dictionary.filter fun pair => pair.1 = id).getLast?).map Prod.snd := by
  rw [Preamble.name?, Keyed.find?_eq_head?, List.filter_reverse, List.head?_reverse]

theorem Preamble.name?_eq_none_iff {start : Preamble} :
    start.name? id = none ↔ ¬ start.Names id := by
  rw [Preamble.name?, Keyed.find?_eq_none_iff, Preamble.Names]
  refine ⟨fun h ⟨name, hmem⟩ => h (id, name) (List.mem_reverse.2 hmem) rfl,
    fun h pair hpair hid => ?_⟩
  exact h ⟨pair.2, hid ▸ List.mem_reverse.1 hpair⟩

theorem Preamble.exists_name {start : Preamble} (h : start.Names id) :
    ∃ name, start.name? id = some name :=
  Option.ne_none_iff_exists'.1 fun hnone => name?_eq_none_iff.1 hnone h

def messageOf (start : Preamble) (run : Int32 × List TimedValue) : Message :=
  ⟨(start.name? run.1).getD "", run.2.toArray⟩

variable {name : String} {values : List TimedValue} {aside : List (Int32 × Message)}
  {rest : List Message} {last message : Message} {start : Preamble} {state opened : Gathering}

theorem Filling.last_eq (h : Filling name values rest last) :
    last = ⟨name, (values.drop (values.length - last.values.size)).toArray⟩ := by
  have hlast : values.drop (values.length - last.values.size) = last.values.toList := by
    have hsize : last.values.size = last.values.toList.length := rfl
    rw [← h.content, List.length_append, hsize, Nat.add_sub_cancel, List.drop_left]
  rw [hlast, Array.toArray_toList, ← h.last_tag]

theorem Filling.last_eq_lastRun (h : Filling name values rest last) (hpos : 0 < last.values.size) :
    last = ⟨name, (lastRun values).toArray⟩ := by
  have hlength := h.length_eq
  have hle := h.last_le
  have hstart : values.length - last.values.size = closedLength values := by
    unfold closedLength
    omega
  rw [lastRun, ← hstart]
  exact h.last_eq

namespace Gathering

structure Grouped (start : Preamble) (items : List TaggedItem) (state : Gathering) : Prop where
  sound : ∃ aside, state.Sound start items aside
  named : ∀ item ∈ items, start.Names item.id
  finished : state.finished.toList = (closedRuns items).map (messageOf start)

theorem grouped_empty (start : Preamble) {pool : Pool} (h : pool.Clean) :
    Grouped start [] { pool := pool } :=
  ⟨⟨[], sound_empty start h⟩, nofun, rfl⟩

theorem Sound.isFull_open (h : Sound start items aside state) (hname : start.name? id = some name)
    (hopen : state.open? (some name) id = some (message, opened)) :
    opened.finished = state.finished ∧
      (message.isFull = true ↔ valuesOf id items ≠ [] ∧ 512 ∣ (valuesOf id items).length) ∧
      (message.isFull = true → message =
        ⟨name, ((valuesOf id items).drop ((valuesOf id items).length - 512)).toArray⟩) := by
  have hunderway := h.underway id
  rw [hname, Option.getD_some] at hunderway
  unfold Gathering.open? at hopen
  cases hfind : Keyed.find? id state.active with
  | some last =>
    rw [hfind] at hunderway hopen
    obtain ⟨rfl, rfl⟩ : last = message ∧ state = opened := by simpa using hopen
    obtain ⟨hfilling, hpos⟩ := hunderway
    have hlength := hfilling.length_eq
    have hle := hfilling.last_le
    have hne : valuesOf id items ≠ [] := List.length_pos_iff.1 (by omega)
    have hiff : last.isFull = true ↔ 512 ≤ last.values.size := decide_eq_true_iff
    refine ⟨rfl, ?_, fun hfull => ?_⟩
    · rw [hiff]
      exact ⟨fun hfull => ⟨hne, by omega⟩, fun hdvd => by omega⟩
    · have hsize : last.values.size = 512 := Nat.le_antisymm hle (hiff.1 hfull)
      rw [← hsize]
      exact hfilling.last_eq
  | none =>
    rw [hfind] at hunderway hopen
    obtain ⟨hvalues, -⟩ := hunderway
    obtain ⟨hfresh, -⟩ := h.clean.lease
    simp only [Option.map_some, hfresh, Option.some.injEq, Prod.mk.injEq] at hopen
    obtain ⟨rfl, rfl⟩ := hopen
    rw [hvalues]
    exact ⟨rfl, ⟨nofun, fun hne => absurd rfl hne.1⟩, nofun⟩

theorem rolled_finished (state : Gathering) (message : Message) :
    (state.rolled message).2.finished.toList =
      state.finished.toList ++ if message.isFull then [message] else [] := by
  unfold rolled
  split
  · exact Array.toList_push
  · exact (List.append_nil _).symm

theorem Grouped.gather (h : Grouped start items state) (hnamed : start.Names item.id) :
    ∃ next, state.gather start item = .ok next ∧ Grouped start (items ++ [item]) next := by
  obtain ⟨aside, hsound⟩ := h.sound
  obtain ⟨name, hname⟩ := Preamble.exists_name hnamed
  obtain ⟨next, aside', hgather, hnext⟩ := hsound.gather item hname
  obtain ⟨message, pool, hopen, -, -⟩ := hsound.open? hname
  obtain ⟨hkept, hfull, hmessage⟩ := hsound.isFull_open hname hopen
  refine ⟨next, hgather, ⟨aside', hnext⟩, ?_, ?_⟩
  · exact List.forall_mem_append.2 ⟨h.named, List.forall_mem_singleton.2 hnamed⟩
  · have heq := hgather.symm.trans (gather_eq hname hopen)
    rw [Except.ok.inj heq, Gathering.put, rolled_finished, hkept, h.finished, closedRuns_concat,
      List.map_append]
    congr 1
    by_cases hroom : message.isFull = true
    · rw [if_pos hroom, closing, if_pos (hfull.1 hroom), hmessage hroom]
      simp [messageOf, hname]
    · rw [if_neg hroom, closing, if_neg fun hdvd => hroom (hfull.2 hdvd)]
      rfl

theorem Grouped.gather_unknown (h : Grouped start items state) (hunknown : ¬ start.Names item.id) :
    state.gather start item = .error (.unknownTag item.id) := by
  obtain ⟨aside, hsound⟩ := h.sound
  have hfind : Keyed.find? item.id state.active = none := by
    cases hfind : Keyed.find? item.id state.active with
    | none => rfl
    | some last =>
      have hunderway := hsound.underway item.id
      rw [hfind] at hunderway
      obtain ⟨hfilling, hpos⟩ := hunderway
      have hlength := hfilling.length_eq
      obtain ⟨other, hother, hid⟩ :=
        valuesOf_ne_nil_iff.1
          (List.length_pos_iff.1 (by omega : 0 < (valuesOf item.id items).length))
      exact absurd (hid ▸ h.named other hother) hunknown
  simp only [Gathering.gather, Gathering.open?, hfind, Preamble.name?_eq_none_iff.2 hunknown,
    Option.map_none]

theorem Grouped.messages_eq (h : Grouped start items state) :
    state.messages = (groupedRuns items).map (messageOf start) := by
  obtain ⟨aside, hsound⟩ := h.sound
  have hactive : state.active = (lastRuns items).map fun run => (run.1, messageOf start run) := by
    refine Keyed.eq_of_find?_eq hsound.ascending ?_ fun id => ?_
    · exact List.pairwise_map.2 (lastRuns_ascending items)
    · have hunderway := hsound.underway id
      rw [lastRuns, List.map_map]
      have hfind := Keyed.find?_map id
        (fun id => messageOf start (id, lastRun (valuesOf id items))) (ascendingIds items)
      refine Eq.trans ?_ hfind.symm
      simp only [mem_ascendingIds]
      cases hfound : Keyed.find? id state.active with
      | none =>
        rw [hfound] at hunderway
        rw [if_neg fun hne => hne hunderway.1]
      | some last =>
        rw [hfound] at hunderway
        have hlength := hunderway.1.length_eq
        have hpos := hunderway.2
        rw [if_pos (List.length_pos_iff.1 (by omega)), hunderway.1.last_eq_lastRun hpos]
        rfl
  rw [Gathering.messages, h.finished, hactive, groupedRuns, List.map_append, List.map_map]
  rfl

end Gathering

end Payload

end MetricReporting
