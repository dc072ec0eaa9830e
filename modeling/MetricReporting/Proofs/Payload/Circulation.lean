import MetricReporting.Proofs.Payload.TaggedDecoding

/-!
# Messages in circulation

Messages are leased, filled and given back, and payloads are decoded into them in between. What
waits in a pool is as good as new at any time, and how much of it there is shows in nothing that is
decoded.
-/
namespace MetricReporting

namespace Payload

variable {pool other : Pool} {start : Preamble} {item : TaggedItem} {state opened next : Gathering}
  {message : Message} {name : Option String} {id : Int32}

theorem Pool.Reachable.releaseAll (h : pool.Reachable) (messages : List Message) :
    (pool.releaseAll messages).Reachable := by
  induction messages generalizing pool with
  | nil => exact h
  | cons message rest ih => exact ih (h.release message)

/-! ## Decoding keeps a pool reachable -/

namespace Gathering

theorem open?_reachable (h : state.pool.Reachable)
    (hopen : state.open? name id = some (message, opened)) : opened.pool.Reachable := by
  cases hfind : Keyed.find? id state.active with
  | some last =>
    simp only [open?, hfind, Option.some.injEq, Prod.mk.injEq] at hopen
    rw [← hopen.2]
    exact h
  | none =>
    cases name with
    | none => simp [open?, hfind] at hopen
    | some text =>
      simp only [open?, hfind, Option.map_some, Option.some.injEq, Prod.mk.injEq] at hopen
      rw [← hopen.2]
      exact h.lease

theorem rolled_reachable (h : state.pool.Reachable) (message : Message) :
    (state.rolled message).2.pool.Reachable := by
  by_cases hfull : message.isFull = true
  · simp only [rolled, hfull, if_true]
    exact h.lease
  · simp only [rolled, hfull]
    exact h

theorem gather_reachable (h : state.pool.Reachable) (hgather : state.gather start item = .ok next) :
    next.pool.Reachable := by
  cases hopen : state.open? (start.name? item.id) item.id with
  | none => simp [gather, hopen] at hgather
  | some pair =>
    have hopened : pair.2.pool.Reachable := open?_reachable h hopen
    simp only [gather, hopen, Except.ok.injEq] at hgather
    rw [← hgather]
    exact rolled_reachable hopened pair.1

theorem gatherAll_reachable (h : state.pool.Reachable) (start : Preamble) (n : Nat)
    (bytes : Bytes) :
    (gatherAll start n bytes state).1.pool.Reachable := by
  induction n generalizing bytes state with
  | zero => exact h
  | succ n ih =>
    cases hitem : taggedItem start.base bytes with
    | error error =>
      simp only [gatherAll, hitem]
      exact h
    | ok read =>
      cases hgather : state.gather start read.1 with
      | error error =>
        simp only [gatherAll, hitem, hgather]
        exact h
      | ok next =>
        simp only [gatherAll, hitem, hgather]
        exact ih (gather_reachable h hgather) read.2

end Gathering

theorem Pool.Reachable.decodeTagged (h : pool.Reachable) (payload : Bytes) :
    (decodeTagged payload pool).2.Reachable := by
  cases hstart : preamble payload with
  | error error =>
    simp only [Payload.decodeTagged, hstart]
    exact h
  | ok read =>
    have hlast :
        (Gathering.gatherAll read.1 read.1.count read.2 { pool := pool }).1.pool.Reachable :=
      Gathering.gatherAll_reachable h read.1 read.1.count read.2
    simp only [Payload.decodeTagged, hstart]
    split
    · rename_i hall
      rw [hall] at hlast
      exact hlast
    · rename_i hall
      rw [hall] at hlast
      exact hlast.releaseAll _

/-- How many messages wait, and where they come from, shows in nothing that is decoded. -/
theorem decodeTagged_alike (hpool : pool.Clean) (hother : other.Clean) (payload : Bytes) :
    (decodeTagged payload pool).1 = (decodeTagged payload other).1 := by
  rcases rejected_or_form payload with ⟨error, hbad⟩ | ⟨form, rest, hvalid, rfl⟩
  · rw [decodeTagged_rejected hpool hbad, decodeTagged_rejected hother hbad]
  · rw [decodeTagged_form hpool hvalid, decodeTagged_form hother hvalid]

structure Circulation where
  pool : Pool := {}
  held : List Message := []

namespace Circulation

inductive Act
  | make
  | lease
  | retag (place : Nat) (tag : String)
  | record (place : Nat) (item : TimedValue)
  | clear (place : Nat)
  | release (place : Nat)
  | releaseAll (places : List Nat)
  | decode (payload : Bytes)

def change (c : Circulation) (place : Nat) (edit : Message → Message) : Circulation :=
  { c with held := c.held.modify place edit }

def release (c : Circulation) (place : Nat) : Circulation :=
  match c.held[place]? with
  | none => c
  | some message => ⟨c.pool.release message, c.held.eraseIdx place⟩

def decode (c : Circulation) (payload : Bytes) : Circulation :=
  match decodeTagged payload c.pool with
  | (.ok messages, pool) => ⟨pool, c.held ++ messages⟩
  | (.error _, pool) => ⟨pool, c.held⟩

def act (c : Circulation) : Act → Circulation
  | .make => { c with held := c.held ++ [{}] }
  | .lease => ⟨c.pool.lease.2, c.held ++ [c.pool.lease.1]⟩
  | .retag place tag => c.change place fun message => message.retag tag
  | .record place item => c.change place fun message => (message.record item).2
  | .clear place => c.change place Message.clear
  | .release place => c.release place
  | .releaseAll places => places.foldl release c
  | .decode payload => c.decode payload

def run (c : Circulation) (acts : List Act) : Circulation :=
  acts.foldl act c

variable {c : Circulation}

theorem release_reachable (h : c.pool.Reachable) (place : Nat) :
    (c.release place).pool.Reachable := by
  cases hplace : c.held[place]? with
  | none =>
    simp only [release, hplace]
    exact h
  | some message =>
    simp only [release, hplace]
    exact h.release message

theorem decode_pool (c : Circulation) (payload : Bytes) :
    (c.decode payload).pool = (decodeTagged payload c.pool).2 := by
  unfold decode
  split
  · rename_i hdecode
    rw [hdecode]
  · rename_i hdecode
    rw [hdecode]

theorem act_reachable (h : c.pool.Reachable) (a : Act) : (c.act a).pool.Reachable := by
  cases a with
  | make => exact h
  | lease => exact h.lease
  | retag place tag => exact h
  | record place item => exact h
  | clear place => exact h
  | release place => exact release_reachable h place
  | releaseAll places =>
    show (places.foldl release c).pool.Reachable
    induction places generalizing c with
    | nil => exact h
    | cons place rest ih => exact ih (release_reachable h place)
  | decode payload =>
    show (c.decode payload).pool.Reachable
    rw [decode_pool]
    exact h.decodeTagged payload

theorem run_reachable (h : c.pool.Reachable) (acts : List Act) : (c.run acts).pool.Reachable := by
  induction acts generalizing c with
  | nil => exact h
  | cons a rest ih => exact ih (act_reachable h a)

end Circulation

end Payload

end MetricReporting
