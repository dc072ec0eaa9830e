import MetricReporting.Payload.Decode
import MetricReporting.Proofs.Keyed

/-!
# Gathering per tag

While a payload is read, every tag has some full messages set aside and one under way. Gathering one
more value keeps this, so the messages of a tag hold its values in the order read, 512 in each but
the last. Messages come from the pool as good as new.
-/
namespace MetricReporting.Payload

namespace Pool

variable {pool : Pool}

inductive Reachable : Pool → Prop
  | new : Reachable {}
  | lease {pool : Pool} : Reachable pool → Reachable pool.lease.2
  | release {pool : Pool} (message : Message) : Reachable pool → Reachable (pool.release message)

def Clean (pool : Pool) : Prop :=
  ∀ message ∈ pool.free, message = {}

theorem Clean.lease (h : pool.Clean) : pool.lease.1 = {} ∧ pool.lease.2.Clean := by
  unfold Pool.lease
  split
  · exact ⟨rfl, h⟩
  · rename_i message rest hfree
    rw [Clean, hfree] at h
    exact ⟨h message List.mem_cons_self, fun m hm => h m (List.mem_cons_of_mem message hm)⟩

theorem Clean.release (h : pool.Clean) (message : Message) : (pool.release message).Clean := by
  intro m hm
  rcases List.mem_cons.1 hm with rfl | hrest
  · rfl
  · exact h m hrest

theorem Reachable.clean (h : pool.Reachable) : pool.Clean := by
  induction h with
  | new => exact fun _ hm => nomatch hm
  | lease _ ih => exact ih.lease.2
  | release message _ ih => exact ih.release message

end Pool

structure Filled (name : String) (values : List TimedValue) (messages : List Message) : Prop where
  tag : ∀ message ∈ messages, message.tag = name
  length : messages.length = (values.length + 511) / 512
  full : ∀ message ∈ messages.dropLast, message.values.size = 512
  content : (messages.flatMap fun message => message.values.toList) = values

structure Filling (name : String) (values : List TimedValue) (aside : List Message)
    (last : Message) : Prop where
  tag : ∀ message ∈ aside, message.tag = name
  full : ∀ message ∈ aside, message.values.size = 512
  last_tag : last.tag = name
  last_le : last.values.size ≤ 512
  content : (aside.flatMap fun message => message.values.toList) ++ last.values.toList = values

section Filling

variable {name : String} {values : List TimedValue} {aside : List Message} {last : Message}

theorem Filling.fresh (name : String) : Filling name [] [] (Message.retag {} name) :=
  ⟨by simp, by simp, rfl, Nat.zero_le 512, rfl⟩

theorem Filling.roll (h : Filling name values aside last) (hfull : last.isFull = true) :
    Filling name values (aside ++ [last]) (Message.retag {} last.tag) := by
  have hsize : 512 ≤ last.values.size := of_decide_eq_true hfull
  have hle := h.last_le
  refine ⟨?_, ?_, h.last_tag, Nat.zero_le 512, ?_⟩
  · intro message hm
    rcases List.mem_append.1 hm with haside | hlast
    · exact h.tag message haside
    · rw [List.mem_singleton.1 hlast]
      exact h.last_tag
  · intro message hm
    rcases List.mem_append.1 hm with haside | hlast
    · exact h.full message haside
    · rw [List.mem_singleton.1 hlast]
      omega
  · rw [← h.content]
    simp [Message.retag]

theorem Filling.record (h : Filling name values aside last) (hroom : last.isFull = false)
    (item : TimedValue) :
    Filling name (values ++ [item]) aside (last.record item).2 ∧
      0 < (last.record item).2.values.size := by
  have hlt : last.values.size < 512 := Nat.lt_of_not_le (of_decide_eq_false hroom)
  have hrecord : (last.record item).2 = { last with values := last.values.push item } := by
    simp [Message.record, hroom]
  rw [hrecord]
  refine ⟨⟨h.tag, h.full, h.last_tag, ?_, ?_⟩, ?_⟩
  · rw [Array.size_push]
    omega
  · simp [← h.content]
  · simp

theorem Filling.length_eq (h : Filling name values aside last) :
    values.length = 512 * aside.length + last.values.size := by
  have haside : (aside.flatMap fun message => message.values.toList).length =
      512 * aside.length := by
    have hfull := h.full
    clear h
    induction aside with
    | nil => rfl
    | cons message rest ih =>
      have hhead := hfull message List.mem_cons_self
      have htail := ih fun m hm => hfull m (List.mem_cons_of_mem message hm)
      simp only [List.flatMap_cons, List.length_append, Array.length_toList, List.length_cons]
      omega
  have hlast : last.values.toList.length = last.values.size := Array.length_toList
  rw [← h.content, List.length_append, haside, hlast]

theorem Filling.filled (h : Filling name values aside last) (hpos : 0 < last.values.size) :
    Filled name values (aside ++ [last]) := by
  have hlength := h.length_eq
  have hle := h.last_le
  refine ⟨?_, ?_, ?_, ?_⟩
  · intro message hm
    rcases List.mem_append.1 hm with haside | hlast
    · exact h.tag message haside
    · rw [List.mem_singleton.1 hlast]
      exact h.last_tag
  · rw [List.length_append, List.length_singleton]
    omega
  · rw [List.dropLast_concat]
    exact h.full
  · rw [← h.content]
    simp

theorem Filled.nil (name : String) : Filled name [] [] :=
  ⟨by simp, rfl, by simp, rfl⟩

end Filling

def under (id : Int32) (pairs : List (Int32 × Message)) : List Message :=
  (pairs.filter fun pair => pair.1 = id).map Prod.snd

def valuesOf (id : Int32) (items : List TaggedItem) : List TimedValue :=
  (items.filter fun item => item.id = id).map TaggedItem.item

theorem under_append (id : Int32) (pairs more : List (Int32 × Message)) :
    under id (pairs ++ more) = under id pairs ++ under id more := by
  simp [under]

theorem under_singleton_self (id : Int32) (message : Message) :
    under id [(id, message)] = [message] := by
  simp [under]

theorem under_singleton_other {id other : Int32} (hne : other ≠ id) (message : Message) :
    under other [(id, message)] = [] := by
  simp [under, hne.symm]

theorem valuesOf_append_self (items : List TaggedItem) (item : TaggedItem) :
    valuesOf item.id (items ++ [item]) = valuesOf item.id items ++ [item.item] := by
  simp [valuesOf]

theorem valuesOf_append_other {id : Int32} {item : TaggedItem} (hne : id ≠ item.id)
    (items : List TaggedItem) : valuesOf id (items ++ [item]) = valuesOf id items := by
  simp [valuesOf, hne.symm]

def Underway (name : String) (values : List TimedValue) (aside : List Message) :
    Option Message → Prop
  | none => values = [] ∧ aside = []
  | some last => Filling name values aside last ∧ 0 < last.values.size

namespace Gathering

/-- The invariant of gathering: `aside` says under which id each message was set aside. -/
structure Sound (start : Preamble) (items : List TaggedItem) (aside : List (Int32 × Message))
    (state : Gathering) : Prop where
  clean : state.pool.Clean
  finished : state.finished.toList = aside.map Prod.snd
  ascending : state.active.Pairwise fun a b => a.1 < b.1
  underway : ∀ id, Underway ((start.name? id).getD "") (valuesOf id items) (under id aside)
    (Keyed.find? id state.active)

variable {start : Preamble} {items : List TaggedItem} {aside : List (Int32 × Message)}
  {state : Gathering} {item : TaggedItem} {name : String} {id : Int32} {message : Message}
  {values : List TimedValue}

theorem sound_empty (start : Preamble) {pool : Pool} (hclean : pool.Clean) :
    Sound start [] [] { pool := pool } :=
  ⟨hclean, rfl, List.Pairwise.nil, fun _ => ⟨rfl, rfl⟩⟩

theorem Sound.open? (h : Sound start items aside state) (hname : start.name? id = some name) :
    ∃ message pool, state.open? (some name) id = some (message, { state with pool := pool }) ∧
      pool.Clean ∧ Filling name (valuesOf id items) (under id aside) message := by
  have hunderway := h.underway id
  rw [hname, Option.getD_some] at hunderway
  unfold Gathering.open?
  cases hfind : Keyed.find? id state.active with
  | some message =>
    rw [hfind] at hunderway
    exact ⟨message, state.pool, rfl, h.clean, hunderway.1⟩
  | none =>
    rw [hfind] at hunderway
    obtain ⟨hvalues, haside⟩ := hunderway
    obtain ⟨hfresh, hclean⟩ := h.clean.lease
    refine ⟨Message.retag {} name, state.pool.lease.2, ?_, hclean, ?_⟩
    · simp only [Option.map_some, hfresh]
    · rw [hvalues, haside]
      exact Filling.fresh name

theorem Filling.rolled (state : Gathering) (h : Filling name values (under id aside) message)
    (hclean : state.pool.Clean) (hfinished : state.finished.toList = aside.map Prod.snd) :
    ∃ aside', (state.rolled message).2.pool.Clean ∧
      (state.rolled message).2.finished.toList = aside'.map Prod.snd ∧
      (state.rolled message).2.active = state.active ∧
      (∀ other, other ≠ id → under other aside' = under other aside) ∧
      Filling name values (under id aside') (state.rolled message).1 ∧
      (state.rolled message).1.isFull = false := by
  unfold Gathering.rolled
  split
  · rename_i hfull
    obtain ⟨hfresh, hclean'⟩ := hclean.lease
    refine ⟨aside ++ [(id, message)], hclean', ?_, rfl, fun other hne => ?_, ?_, ?_⟩
    · simp [hfinished]
    · rw [under_append, under_singleton_other hne, List.append_nil]
    · rw [under_append, under_singleton_self]
      simp only [hfresh]
      exact h.roll hfull
    · simp only [hfresh]
      rfl
  · rename_i hroom
    exact ⟨aside, hclean, hfinished, rfl, fun _ _ => rfl, h, Bool.eq_false_iff.2 hroom⟩

theorem gather_eq {opened : Gathering} (hname : start.name? item.id = some name)
    (hopen : state.open? (some name) item.id = some (message, opened)) :
    state.gather start item =
      .ok ((opened.rolled message).2.put item.id
        ((opened.rolled message).1.record item.item).2) := by
  simp only [Gathering.gather, hname, hopen]

theorem Sound.gather (h : Sound start items aside state) (item : TaggedItem)
    (hname : start.name? item.id = some name) :
    ∃ next aside', state.gather start item = .ok next ∧
      Sound start (items ++ [item]) aside' next := by
  obtain ⟨message, pool, hopen, hclean, hfilling⟩ := h.open? hname
  obtain ⟨aside', hclean', hfinished, hactive, hothers, hfilling', hroom⟩ :=
    Filling.rolled { state with pool := pool } hfilling hclean h.finished
  obtain ⟨hrecord, hpos⟩ := hfilling'.record hroom item.item
  refine ⟨_, aside', gather_eq hname hopen, hclean', hfinished, ?_, ?_⟩
  · simp only [Gathering.put, hactive]
    exact Keyed.ascending_adjustAscending h.ascending _ _
  · intro id
    simp only [Gathering.put, hactive]
    by_cases hid : id = item.id
    · subst hid
      rw [Keyed.find?_adjustAscending_self, hname, valuesOf_append_self]
      exact ⟨hrecord, hpos⟩
    · rw [Keyed.find?_adjustAscending_other _ hid, valuesOf_append_other hid, hothers id hid]
      exact h.underway id

def labelled (aside : List (Int32 × Message)) (state : Gathering) : List (Int32 × Message) :=
  aside ++ state.active

theorem Sound.messages_eq (h : Sound start items aside state) :
    state.messages = (labelled aside state).map Prod.snd := by
  rw [Gathering.messages, h.finished, labelled, List.map_append]

theorem Sound.filled (h : Sound start items aside state) (id : Int32) :
    Filled ((start.name? id).getD "") (valuesOf id items) (under id (labelled aside state)) := by
  have hkeys : state.active.Pairwise fun a b => a.1 ≠ b.1 :=
    h.ascending.imp fun hlt => Int32.ne_of_lt hlt
  have hactive : under id state.active = (Keyed.find? id state.active).toList :=
    Keyed.filter_eq_find? id hkeys
  have hunderway := h.underway id
  rw [labelled, under_append, hactive]
  cases hfind : Keyed.find? id state.active with
  | none =>
    rw [hfind] at hunderway
    rw [hunderway.1, hunderway.2]
    exact Filled.nil _
  | some last =>
    rw [hfind] at hunderway
    exact hunderway.1.filled hunderway.2

end Gathering

end MetricReporting.Payload
