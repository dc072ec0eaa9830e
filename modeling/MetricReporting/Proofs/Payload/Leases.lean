import MetricReporting.Proofs.Payload.Circulation

/-!
# Leases of a decoding

Here every message has a number of its own, so that messages of the same content can be told apart,
and a pool remembers which numbers it gave out and got back. Apart from the numbers, decoding goes
the same way. Main statement: a payload that fails gives back each message that was leased for it,
once; one that is decoded hands out each of them, once.
-/
namespace MetricReporting.Payload

structure Numbered where
  number : Nat
  message : Message

namespace Numbered

def retag (numbered : Numbered) (tag : String) : Numbered :=
  { numbered with message := numbered.message.retag tag }

def record (numbered : Numbered) (item : TimedValue) : Numbered :=
  { numbered with message := (numbered.message.record item).2 }

end Numbered

structure Stock where
  free : List Numbered := []
  /-- The number of the message that is made next. -/
  fresh : Nat := 0
  leased : List Nat := []
  returned : List Nat := []

namespace Stock

def ofPool (pool : Pool) : Stock where
  free := pool.free.mapIdx Numbered.mk
  fresh := pool.available

def pool (stock : Stock) : Pool :=
  ⟨stock.free.map Numbered.message⟩

def lease (stock : Stock) : Numbered × Stock :=
  match stock.free with
  | [] => (⟨stock.fresh, {}⟩,
      { stock with fresh := stock.fresh + 1, leased := stock.leased ++ [stock.fresh] })
  | numbered :: rest => (numbered,
      { stock with free := rest, leased := stock.leased ++ [numbered.number] })

def release (stock : Stock) (numbered : Numbered) : Stock :=
  { stock with
    free := ⟨numbered.number, numbered.message.clear⟩ :: stock.free
    returned := stock.returned ++ [numbered.number] }

def releaseAll (stock : Stock) (messages : List Numbered) : Stock :=
  messages.foldl release stock

end Stock

structure Handling where
  stock : Stock
  active : List (Int32 × Numbered) := []
  finished : Array Numbered := #[]

namespace Handling

def messages (state : Handling) : List Numbered :=
  state.finished.toList ++ state.active.map Prod.snd

def open? (state : Handling) (name : Option String) (id : Int32) : Option (Numbered × Handling) :=
  match Keyed.find? id state.active with
  | some numbered => some (numbered, state)
  | none => name.map fun text =>
      (state.stock.lease.1.retag text, { state with stock := state.stock.lease.2 })

def rolled (state : Handling) (numbered : Numbered) : Numbered × Handling :=
  if numbered.message.isFull then
    (state.stock.lease.1.retag numbered.message.tag,
      { state with stock := state.stock.lease.2, finished := state.finished.push numbered })
  else (numbered, state)

def put (state : Handling) (id : Int32) (numbered : Numbered) : Handling :=
  { state with
    active :=
      Keyed.adjustAscending (fun a b => decide (a < b)) id (fun _ => numbered) state.active }

def gather (state : Handling) (start : Preamble) (item : TaggedItem) :
    Except DecodeError Handling :=
  match state.open? (start.name? item.id) item.id with
  | none => .error (.unknownTag item.id)
  | some (numbered, opened) =>
      .ok ((opened.rolled numbered).2.put item.id ((opened.rolled numbered).1.record item.item))

def gatherAll (start : Preamble) : Nat → Bytes → Handling → Handling × Option DecodeError
  | 0, _, state => (state, none)
  | n + 1, bytes, state =>
      match taggedItem start.base bytes with
      | .error error => (state, some error)
      | .ok (item, rest) =>
          match state.gather start item with
          | .error error => (state, some error)
          | .ok next => gatherAll start n rest next

/-- The same without the numbers. -/
def plain (state : Handling) : Gathering where
  pool := state.stock.pool
  active := state.active.map fun pair => (pair.1, pair.2.message)
  finished := state.finished.map Numbered.message

end Handling

def Stock.decodeTagged (stock : Stock) (payload : Bytes) :
    Except DecodeError (List Numbered) × Stock :=
  match preamble payload with
  | .error error => (.error error, stock)
  | .ok (start, rest) =>
      match Handling.gatherAll start start.count rest { stock := stock } with
      | (state, none) => (.ok state.messages, state.stock)
      | (state, some error) => (.error error, state.stock.releaseAll state.messages)

variable {stock : Stock} {pool : Pool} {state opened next : Handling} {numbered : Numbered}
  {start : Preamble} {item : TaggedItem}

/-! ## Without the numbers -/

namespace Stock

theorem pool_ofPool (pool : Pool) : (ofPool pool).pool = pool := by
  have hfree : (ofPool pool).free.map Numbered.message = pool.free := by
    apply List.ext_getElem
    · simp [ofPool]
    · simp [ofPool]
  rw [Stock.pool, hfree]

theorem pool_lease (stock : Stock) :
    stock.pool.lease = (stock.lease.1.message, stock.lease.2.pool) := by
  cases hfree : stock.free with
  | nil => simp [Stock.pool, Pool.lease, Stock.lease, hfree]
  | cons numbered rest => simp [Stock.pool, Pool.lease, Stock.lease, hfree]

theorem pool_releaseAll (stock : Stock) (messages : List Numbered) :
    (stock.releaseAll messages).pool = stock.pool.releaseAll (messages.map Numbered.message) := by
  induction messages generalizing stock with
  | nil => rfl
  | cons numbered rest ih => exact ih (stock.release numbered)

end Stock

namespace Handling

theorem find?_plain (state : Handling) (id : Int32) :
    Keyed.find? id state.plain.active = (Keyed.find? id state.active).map Numbered.message := by
  show Keyed.find? id (state.active.map fun pair => (pair.1, pair.2.message)) = _
  induction state.active with
  | nil => rfl
  | cons pair rest ih =>
    by_cases hkey : pair.1 = id
    · simp [Keyed.find?, hkey]
    · simp [Keyed.find?, hkey, ih]

theorem plain_open? (state : Handling) (name : Option String) (id : Int32) :
    state.plain.open? name id =
      (state.open? name id).map fun pair => (pair.1.message, pair.2.plain) := by
  have hlease : state.plain.pool.lease = (state.stock.lease.1.message, state.stock.lease.2.pool) :=
    state.stock.pool_lease
  simp only [Gathering.open?, open?, find?_plain, hlease]
  cases Keyed.find? id state.active with
  | some numbered => rfl
  | none =>
    cases name with
    | none => rfl
    | some text => rfl

theorem plain_rolled (state : Handling) (numbered : Numbered) :
    state.plain.rolled numbered.message =
      ((state.rolled numbered).1.message, (state.rolled numbered).2.plain) := by
  have hlease : state.plain.pool.lease = (state.stock.lease.1.message, state.stock.lease.2.pool) :=
    state.stock.pool_lease
  by_cases hfull : numbered.message.isFull = true
  · simp only [Gathering.rolled, rolled, hfull, if_true, hlease]
    simp [plain, Numbered.retag]
  · simp [Gathering.rolled, rolled, hfull]

theorem plain_put (state : Handling) (id : Int32) (numbered : Numbered) :
    state.plain.put id numbered.message = (state.put id numbered).plain := by
  have hactive : ∀ active : List (Int32 × Numbered),
      Keyed.adjustAscending (fun a b => decide (a < b)) id (fun _ => numbered.message)
          (active.map fun pair => (pair.1, pair.2.message)) =
        (Keyed.adjustAscending (fun a b => decide (a < b)) id (fun _ => numbered) active).map
          fun pair => (pair.1, pair.2.message) := by
    intro active
    induction active with
    | nil => rfl
    | cons pair rest ih =>
      simp only [List.map_cons, Keyed.adjustAscending]
      split
      · rfl
      · split
        · rfl
        · rw [ih, List.map_cons]
  simp [Gathering.put, put, plain, hactive]

theorem plain_gather (state : Handling) (start : Preamble) (item : TaggedItem) :
    state.plain.gather start item = (state.gather start item).map plain := by
  simp only [Gathering.gather, gather, plain_open?]
  cases state.open? (start.name? item.id) item.id with
  | none => rfl
  | some pair =>
    have hput :=
      plain_put (pair.2.rolled pair.1).2 item.id ((pair.2.rolled pair.1).1.record item.item)
    simp only [Option.map_some, plain_rolled, Except.map, ← hput]
    rfl

theorem plain_gatherAll (start : Preamble) (n : Nat) (bytes : Bytes) (state : Handling) :
    Gathering.gatherAll start n bytes state.plain =
      ((gatherAll start n bytes state).1.plain, (gatherAll start n bytes state).2) := by
  induction n generalizing bytes state with
  | zero => rfl
  | succ n ih =>
    cases hitem : taggedItem start.base bytes with
    | error error => simp only [Gathering.gatherAll, gatherAll, hitem]
    | ok read =>
      cases hgather : state.gather start read.1 with
      | error error =>
        simp only [Gathering.gatherAll, gatherAll, hitem, plain_gather, hgather, Except.map]
      | ok next =>
        simp only [Gathering.gatherAll, gatherAll, hitem, plain_gather, hgather, Except.map]
        exact ih read.2 next

theorem plain_messages (state : Handling) :
    state.plain.messages = state.messages.map Numbered.message := by
  simp [Gathering.messages, messages, plain]

end Handling

theorem Stock.decodeTagged_plain (stock : Stock) (payload : Bytes) :
    Payload.decodeTagged payload stock.pool =
      ((stock.decodeTagged payload).1.map (List.map Numbered.message),
        (stock.decodeTagged payload).2.pool) := by
  cases hstart : preamble payload with
  | error error => simp only [Payload.decodeTagged, Stock.decodeTagged, hstart, Except.map]
  | ok read =>
    have hall := Handling.plain_gatherAll read.1 read.1.count read.2 { stock := stock }
    have hempty : Handling.plain { stock := stock } = { pool := stock.pool } := by
      simp [Handling.plain]
    rw [hempty] at hall
    simp only [Payload.decodeTagged, Stock.decodeTagged, hstart, hall]
    generalize Handling.gatherAll read.1 read.1.count read.2 { stock := stock } = outcome
    obtain ⟨last, stopped⟩ := outcome
    cases stopped with
    | none => simp only [Except.map, Handling.plain_messages]; rfl
    | some error => simp only [Except.map, Stock.pool_releaseAll, Handling.plain_messages]; rfl

/-! ## Numbers given out -/

/-- A stock that some messages of a pool were leased from, and then new ones, with nothing given
back. -/
structure Stock.LeasedFrom (pool : Pool) (stock : Stock) : Prop where
  leased : stock.leased = List.range stock.leased.length
  free : stock.free.map Numbered.number =
    List.range' stock.leased.length (pool.available - stock.leased.length)
  fresh : stock.fresh = max pool.available stock.leased.length
  returned : stock.returned = []

namespace Stock

theorem ofPool_numbers (pool : Pool) :
    (ofPool pool).free.map Numbered.number = List.range pool.available := by
  apply List.ext_getElem
  · simp [ofPool, Pool.available]
  · simp [ofPool]

theorem leasedFrom_ofPool (pool : Pool) : (ofPool pool).LeasedFrom pool := by
  constructor
  · rfl
  · rw [ofPool_numbers, List.range_eq_range']
    rfl
  · exact (Nat.max_zero _).symm
  · rfl

theorem lease_leased (stock : Stock) :
    stock.lease.2.leased = stock.leased ++ [stock.lease.1.number] := by
  cases hfree : stock.free with
  | nil => simp [lease, hfree]
  | cons numbered rest => simp [lease, hfree]

theorem lease_returned (stock : Stock) : stock.lease.2.returned = stock.returned := by
  cases hfree : stock.free with
  | nil => simp [lease, hfree]
  | cons numbered rest => simp [lease, hfree]

theorem LeasedFrom.lease_number (h : stock.LeasedFrom pool) :
    stock.lease.1.number = stock.leased.length := by
  have hnumbers := h.free
  have hlength := congrArg List.length hnumbers
  rw [List.length_map, List.length_range'] at hlength
  cases hfree : stock.free with
  | nil =>
    rw [hfree, List.length_nil] at hlength
    have hfresh := h.fresh
    simp only [Stock.lease, hfree]
    omega
  | cons numbered rest =>
    rw [hfree, List.length_cons] at hlength
    rw [← hlength, hfree, List.map_cons, List.range'_succ, List.cons.injEq] at hnumbers
    simp only [Stock.lease, hfree]
    exact hnumbers.1

theorem LeasedFrom.lease (h : stock.LeasedFrom pool) : stock.lease.2.LeasedFrom pool := by
  have hnumbers := h.free
  have hfresh := h.fresh
  have hlength := congrArg List.length hnumbers
  rw [List.length_map, List.length_range'] at hlength
  have hleased : stock.lease.2.leased.length = stock.leased.length + 1 := by
    rw [lease_leased, List.length_append, List.length_singleton]
  constructor
  · rw [hleased, lease_leased, h.lease_number, List.range_succ, ← h.leased]
  · rw [hleased]
    cases hfree : stock.free with
    | nil =>
      rw [hfree, List.length_nil] at hlength
      have hnone : pool.available - (stock.leased.length + 1) = 0 := by omega
      simp [Stock.lease, hfree, hnone]
    | cons numbered rest =>
      rw [hfree, List.length_cons] at hlength
      have hrest : pool.available - (stock.leased.length + 1) = rest.length := by omega
      rw [← hlength, hfree, List.map_cons, List.range'_succ, List.cons.injEq] at hnumbers
      simp only [Stock.lease, hfree, hrest]
      exact hnumbers.2
  · rw [hleased]
    cases hfree : stock.free with
    | nil =>
      rw [hfree, List.length_nil] at hlength
      simp only [Stock.lease, hfree]
      omega
    | cons numbered rest =>
      rw [hfree, List.length_cons] at hlength
      simp only [Stock.lease, hfree]
      omega
  · rw [lease_returned, h.returned]

theorem releaseAll_returned (stock : Stock) (messages : List Numbered) :
    (stock.releaseAll messages).returned = stock.returned ++ messages.map Numbered.number := by
  induction messages generalizing stock with
  | nil => simp [releaseAll]
  | cons numbered rest ih =>
    have hrest := ih (stock.release numbered)
    simpa [releaseAll, release] using hrest

theorem releaseAll_numbers (stock : Stock) (messages : List Numbered) :
    ((stock.releaseAll messages).free.map Numbered.number).Perm
      (messages.map Numbered.number ++ stock.free.map Numbered.number) := by
  induction messages generalizing stock with
  | nil => exact List.Perm.refl _
  | cons numbered rest ih =>
    exact (ih (stock.release numbered)).trans List.perm_middle

end Stock

namespace Handling

/-- The numbers of the messages that values were gathered in. -/
def numbers (state : Handling) : List Nat :=
  state.messages.map Numbered.number

/-- The numbers of the messages under way under an id: one, or none. -/
def numbersUnder (state : Handling) (id : Int32) : List Nat :=
  (Keyed.find? id state.active).toList.map Numbered.number

structure Kept (pool : Pool) (state : Handling) : Prop where
  stock : state.stock.LeasedFrom pool
  numbers : state.numbers.Perm state.stock.leased
  ascending : state.active.Pairwise fun a b => a.1 < b.1

theorem kept_empty (pool : Pool) : Kept pool { stock := .ofPool pool } :=
  ⟨Stock.leasedFrom_ofPool pool, List.Perm.nil, List.Pairwise.nil⟩

theorem numbers_put (h : state.active.Pairwise fun a b => a.1 < b.1) (id : Int32)
    (numbered : Numbered) :
    (state.numbersUnder id ++ (state.put id numbered).numbers).Perm
      (numbered.number :: state.numbers) := by
  have hactive : ∀ active : List (Int32 × Numbered), (active.Pairwise fun a b => a.1 < b.1) →
      ((Keyed.find? id active).toList ++
        (Keyed.adjustAscending (fun a b => decide (a < b)) id (fun _ => numbered) active).map
          Prod.snd).Perm (numbered :: active.map Prod.snd) := by
    intro active h
    induction active with
    | nil => exact List.Perm.refl _
    | cons pair rest ih =>
      obtain ⟨hhead, hrest⟩ := List.pairwise_cons.1 h
      by_cases hkey : pair.1 = id
      · simp only [Keyed.find?, Keyed.adjustAscending, hkey, if_true]
        exact List.Perm.swap _ _ _
      · by_cases hlt : id < pair.1
        · have hnone : Keyed.find? id rest = none := by
            apply Keyed.find?_eq_none_iff.2
            intro other hother
            exact (Int32.ne_of_lt (Int32.lt_trans hlt (hhead other hother))).symm
          simp [Keyed.find?, Keyed.adjustAscending, hkey, hlt, hnone]
        · simp only [Keyed.find?, Keyed.adjustAscending, hkey, hlt, if_false, decide_false,
            List.map_cons]
          apply List.perm_middle.trans
          exact ((ih hrest).cons pair.2).trans (List.Perm.swap _ _ _)
  have hnumbers := (hactive state.active h).map Numbered.number
  rw [List.map_append, List.map_cons] at hnumbers
  rw [numbersUnder, numbers, numbers, messages, messages, List.map_append, List.map_append]
  apply (List.perm_append_comm_assoc _ _ _).trans
  exact (hnumbers.append_left _).trans List.perm_middle

/-- A message in hand, while that of an id still stands in its place: apart from the latter, each
message leased so far is in hand or in its place once. -/
structure InHand (pool : Pool) (before : List Nat) (numbered : Numbered) (state : Handling) :
    Prop where
  stock : state.stock.LeasedFrom pool
  numbers : (numbered.number :: state.numbers).Perm (before ++ state.stock.leased)

theorem Kept.open? (h : state.Kept pool) {name : Option String} {id : Int32}
    (hopen : state.open? name id = some (numbered, opened)) :
    InHand pool (state.numbersUnder id) numbered opened ∧ opened.active = state.active := by
  cases hfind : Keyed.find? id state.active with
  | some found =>
    simp only [Handling.open?, hfind, Option.some.injEq, Prod.mk.injEq] at hopen
    obtain ⟨rfl, rfl⟩ := hopen
    refine ⟨⟨h.stock, ?_⟩, rfl⟩
    rw [numbersUnder, hfind]
    exact h.numbers.cons _
  | none =>
    cases name with
    | none => simp [Handling.open?, hfind] at hopen
    | some text =>
      simp only [Handling.open?, hfind, Option.map_some, Option.some.injEq, Prod.mk.injEq] at hopen
      obtain ⟨rfl, rfl⟩ := hopen
      refine ⟨⟨h.stock.lease, ?_⟩, rfl⟩
      rw [numbersUnder, hfind, Stock.lease_leased]
      exact (h.numbers.cons _).trans (List.perm_append_singleton _ _).symm

theorem InHand.rolled {before : List Nat} (h : InHand pool before numbered state) :
    InHand pool before (state.rolled numbered).1 (state.rolled numbered).2 := by
  by_cases hfull : numbered.message.isFull = true
  · constructor
    · simp only [Handling.rolled, hfull, if_true]
      exact h.stock.lease
    · simp only [Handling.rolled, hfull, if_true]
      have hpushed : (Handling.numbers { state with
          stock := state.stock.lease.2, finished := state.finished.push numbered }).Perm
          (numbered.number :: state.numbers) := by
        simp [Handling.numbers, messages]
      apply ((hpushed.trans h.numbers).cons _).trans
      rw [Stock.lease_leased, ← List.append_assoc]
      exact (List.perm_append_singleton _ _).symm
  · simp only [Handling.rolled, hfull]
    exact h

theorem rolled_active (state : Handling) (numbered : Numbered) :
    (state.rolled numbered).2.active = state.active := by
  unfold Handling.rolled
  split <;> rfl

theorem InHand.put {id : Int32} (h : InHand pool (state.numbersUnder id) numbered state)
    (hascending : state.active.Pairwise fun a b => a.1 < b.1) :
    Kept pool (state.put id numbered) := by
  constructor
  · exact h.stock
  · have hput := (numbers_put hascending id numbered).trans h.numbers
    exact (List.perm_append_left_iff _).1 hput
  · exact Keyed.ascending_adjustAscending hascending id _

theorem Kept.gather (h : state.Kept pool) (hgather : state.gather start item = .ok next) :
    next.Kept pool := by
  cases hopen : state.open? (start.name? item.id) item.id with
  | none => simp [Handling.gather, hopen] at hgather
  | some pair =>
    obtain ⟨hhand, hopened⟩ := h.open? hopen
    have hactive : (pair.2.rolled pair.1).2.active = state.active :=
      (rolled_active pair.2 pair.1).trans hopened
    have hrolled : InHand pool ((pair.2.rolled pair.1).2.numbersUnder item.id)
        ((pair.2.rolled pair.1).1.record item.item) (pair.2.rolled pair.1).2 := by
      rw [numbersUnder, hactive]
      exact ⟨hhand.rolled.stock, hhand.rolled.numbers⟩
    simp only [Handling.gather, hopen, Except.ok.injEq] at hgather
    rw [← hgather]
    apply hrolled.put
    rw [hactive]
    exact h.ascending

theorem Kept.gatherAll (h : state.Kept pool) (start : Preamble) (n : Nat) (bytes : Bytes) :
    (gatherAll start n bytes state).1.Kept pool := by
  induction n generalizing bytes state with
  | zero => exact h
  | succ n ih =>
    cases hitem : taggedItem start.base bytes with
    | error error =>
      simp only [Handling.gatherAll, hitem]
      exact h
    | ok read =>
      cases hgather : state.gather start read.1 with
      | error error =>
        simp only [Handling.gatherAll, hitem, hgather]
        exact h
      | ok next =>
        simp only [Handling.gatherAll, hitem, hgather]
        exact ih (h.gather hgather) read.2

end Handling

namespace Stock

structure Handed (pool : Pool) (messages : List Numbered) (stock : Stock) : Prop where
  supply : stock.LeasedFrom pool
  numbers : (messages.map Numbered.number).Perm stock.leased

variable {messages : List Numbered}

theorem Handed.length_eq (h : stock.Handed pool messages) :
    messages.length = stock.leased.length := by
  rw [← List.length_map Numbered.number, h.numbers.length_eq]

theorem LeasedFrom.available_eq (h : stock.LeasedFrom pool) :
    stock.pool.available = pool.available - stock.leased.length := by
  have hlength := congrArg List.length h.free
  rw [List.length_map, List.length_range'] at hlength
  rw [← hlength, Pool.available, Stock.pool, List.length_map]

/-- A decoding hands out what it leased, or else releases it. -/
theorem decodeTagged_handed (pool : Pool) (payload : Bytes) :
    (∃ messages stock, (ofPool pool).decodeTagged payload = (.ok messages, stock) ∧
      Handed pool messages stock) ∨
    ∃ error messages kept, (ofPool pool).decodeTagged payload =
      (.error error, kept.releaseAll messages) ∧ Handed pool messages kept := by
  cases hstart : preamble payload with
  | error error =>
    refine Or.inr ⟨error, [], ofPool pool, ?_, leasedFrom_ofPool pool, List.Perm.nil⟩
    simp only [Stock.decodeTagged, hstart]
    rfl
  | ok read =>
    have hkept := (Handling.kept_empty pool).gatherAll read.1 read.1.count read.2
    have hhanded := Handed.mk hkept.stock hkept.numbers
    simp only [Stock.decodeTagged, hstart]
    split
    · rename_i last hall
      rw [hall] at hhanded
      exact Or.inl ⟨_, _, rfl, hhanded⟩
    · rename_i last error hall
      rw [hall] at hhanded
      exact Or.inr ⟨error, _, _, rfl, hhanded⟩

theorem releaseAll_leased (stock : Stock) (messages : List Numbered) :
    (stock.releaseAll messages).leased = stock.leased := by
  induction messages generalizing stock with
  | nil => rfl
  | cons numbered rest ih => exact ih (stock.release numbered)

theorem Handed.releaseAll_available (h : stock.Handed pool messages) :
    (stock.releaseAll messages).pool.available = max pool.available stock.leased.length := by
  have hlength := h.length_eq
  have havailable := h.supply.available_eq
  rw [pool_releaseAll, Pool.available_releaseAll, List.length_map]
  omega

/-- Once all are given back, each message stands in the pool once. -/
theorem Handed.releaseAll_numbers (h : stock.Handed pool messages) :
    ((stock.releaseAll messages).free.map Numbered.number).Perm
      (List.range (max pool.available stock.leased.length)) := by
  have hsplit : List.range (max pool.available stock.leased.length) =
      stock.leased ++ stock.free.map Numbered.number := by
    have hmax : max pool.available stock.leased.length =
        stock.leased.length + (pool.available - stock.leased.length) := by omega
    have happend := @List.range'_append_1 0 stock.leased.length
      (pool.available - stock.leased.length)
    rw [Nat.zero_add, ← List.range_eq_range', ← h.supply.leased, ← h.supply.free] at happend
    rw [hmax, List.range_eq_range', happend]
  rw [hsplit]
  exact (Stock.releaseAll_numbers stock messages).trans (h.numbers.append_right _)

end Stock

/-- A decoding that leases some messages: if it fails, all of them are back in the pool, each once
and as good as new; if it does not, they are what it hands out, and the pool has what it had too
many. -/
theorem leases_returned (hpool : pool.Reachable) (payload : Bytes) :
    let outcome := (Stock.ofPool pool).decodeTagged payload
    let leases := outcome.2.leased.length
    let decoded := decodeTagged payload pool
    decoded = (outcome.1.map (List.map Numbered.message), outcome.2.pool) ∧
    outcome.2.leased = List.range leases ∧
    (∀ error, decoded.1 = .error error →
      decoded.2.available = max pool.available leases ∧
      (∀ message ∈ decoded.2.free, message = {}) ∧
      outcome.2.returned.Perm outcome.2.leased ∧
      (outcome.2.free.map Numbered.number).Perm (List.range (max pool.available leases))) ∧
    ∀ messages, decoded.1 = .ok messages →
      messages.length = leases ∧
      decoded.2.available = max pool.available leases - leases ∧
      (decoded.2.releaseAll messages).available = max pool.available leases ∧
      outcome.2.returned = [] ∧
      ∃ handed, outcome.1 = .ok handed ∧ (handed.map Numbered.number).Perm outcome.2.leased := by
  intro outcome leases decoded
  have hplain : decoded = (outcome.1.map (List.map Numbered.message), outcome.2.pool) := by
    have h := Stock.decodeTagged_plain (Stock.ofPool pool) payload
    rwa [Stock.pool_ofPool] at h
  have hclean : decoded.2.Clean := (hpool.decodeTagged payload).clean
  rcases Stock.decodeTagged_handed pool payload with
    ⟨handed, stock, houtcome, hhanded⟩ | ⟨failure, messages, kept, houtcome, hhanded⟩
  · have hresult : outcome.1 = .ok handed := congrArg Prod.fst houtcome
    have hstock : outcome.2 = stock := congrArg Prod.snd houtcome
    rw [← hstock] at hhanded
    have havailable := hhanded.supply.available_eq
    have hlength := hhanded.length_eq
    refine ⟨hplain, hhanded.supply.leased, fun error herror => ?_, fun messages hok => ?_⟩
    · rw [hplain, hresult] at herror
      cases herror
    · rw [hplain, hresult] at hok
      obtain rfl : handed.map Numbered.message = messages := Except.ok.inj hok
      have hmessages : (handed.map Numbered.message).length = leases := by
        rw [List.length_map, hlength]
      have hleft : decoded.2.available = pool.available - leases := by
        rw [hplain]
        exact havailable
      refine ⟨hmessages, ?_, ?_, hhanded.supply.returned, handed, hresult, hhanded.numbers⟩
      · omega
      · rw [Pool.available_releaseAll]
        omega
  · have hresult : outcome.1 = .error failure := congrArg Prod.fst houtcome
    have hafter : outcome.2 = kept.releaseAll messages := congrArg Prod.snd houtcome
    have hleased : outcome.2.leased = kept.leased := by rw [hafter, Stock.releaseAll_leased]
    have hleases : leases = kept.leased.length := congrArg List.length hleased
    refine ⟨hplain, ?_, fun error _ => ⟨?_, hclean, ?_, ?_⟩, fun messages hok => ?_⟩
    · rw [hleases, hleased]
      exact hhanded.supply.leased
    · rw [hplain, hleases, hafter]
      exact hhanded.releaseAll_available
    · rw [hleased, hafter, Stock.releaseAll_returned, hhanded.supply.returned, List.nil_append]
      exact hhanded.numbers
    · rw [hleases, hafter]
      exact hhanded.releaseAll_numbers
    · rw [hplain, hresult] at hok
      cases hok

/-- Two messages are leased from a pool of one before the third value turns out to be cut off. -/
theorem leases_returned_cutOff :
    let pool := Pool.release {} ⟨"old", #[⟨1, 1⟩]⟩
    let outcome := (Stock.ofPool pool).decodeTagged hostileForm.bytes.dropLast
    outcome.2.leased.length = 2 ∧ pool.available = 1 ∧
      (decodeTagged hostileForm.bytes.dropLast pool).1 = .error (.truncated .value 8 7) ∧
      (decodeTagged hostileForm.bytes.dropLast pool).2.available = 2 := by
  intro pool outcome
  have hpool : pool.Reachable := Pool.Reachable.new.release _
  have hleases : outcome.2.leased.length = 2 := by decide +kernel
  have hfails : (decodeTagged hostileForm.bytes.dropLast pool).1 =
      .error (.truncated .value 8 7) := by
    decide +kernel
  obtain ⟨-, -, hback, -⟩ := leases_returned hpool hostileForm.bytes.dropLast
  have havailable := (hback _ hfails).1
  refine ⟨hleases, rfl, hfails, ?_⟩
  rw [havailable, hleases]
  rfl

end MetricReporting.Payload
