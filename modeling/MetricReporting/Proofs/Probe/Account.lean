import MetricReporting.MetricBuffer
import MetricReporting.Proofs.Ring.History
import MetricReporting.Proofs.Tags.Interning

/-!
# The account of a buffer

A buffer is asked to record values and is drained in between, while its clock goes on in any way.
Its account says what was offered and what was drained. An offer is lost where the ring is full and
nowhere else, and then its tag is all that stays of it; the other offers are what is drained or
still lies in the ring, in their order.
-/
namespace MetricReporting

structure Offer where
  value : Int64
  tag : String
  before : MetricBuffer
  after : MetricBuffer
  accepted : Bool

namespace Offer

def id (offer : Offer) : Int32 :=
  (offer.before.tags.intern offer.tag).1

def entry (offer : Offer) : Entry :=
  ⟨offer.before.ring.clock.now, offer.value, offer.id⟩

end Offer

def MetricBuffer.setClock (buffer : MetricBuffer) (clock : Clock) : MetricBuffer :=
  { buffer with ring := { buffer.ring with clock := clock } }

structure Account where
  buffer : MetricBuffer
  offers : List Offer := []
  drained : List Entry := []

namespace Account

inductive Request
  | record (value : Int64) (tag : String)
  | drain (most : Nat)
  | tick (clock : Clock)

def ofCapacity (metricType : String) (capacity : Nat) (clock : Clock) : Account where
  buffer := MetricBuffer.ofCapacity metricType capacity clock

def serve (account : Account) : Request → Account
  | .record value tag =>
      let (accepted, buffer, _) := account.buffer.record {} value tag
      { account with
        buffer := buffer
        offers := account.offers ++ [⟨value, tag, account.buffer, buffer, accepted⟩] }
  | .drain most =>
      let (entries, buffer) := account.buffer.drain most
      { account with buffer := buffer, drained := account.drained ++ entries }
  | .tick clock => { account with buffer := account.buffer.setClock clock }

def run (account : Account) (requests : List Request) : Account :=
  requests.foldl serve account

def kept (account : Account) : List Entry :=
  (account.offers.filter Offer.accepted).map Offer.entry

def lost (account : Account) : Nat :=
  account.offers.countP fun offer => !offer.accepted

end Account

namespace MetricBuffer

variable (buffer : MetricBuffer) (telemetry : Telemetry) (value : Int64) (tag : String)

def recorded (written : Bool × Ring) (tags : TagTable) : Bool × MetricBuffer × Telemetry :=
  (written.1, { buffer with ring := written.2, tags := tags },
    if written.1 then telemetry else telemetry.dropped buffer.metricType)

theorem recordId_eq_recorded (id : Int32) :
    buffer.recordId telemetry value id =
      buffer.recorded telemetry (buffer.ring.writeWithRetry value id) buffer.tags := by
  unfold recordId
  generalize buffer.ring.writeWithRetry value id = written
  rfl

theorem record_eq_recorded :
    buffer.record telemetry value tag =
      buffer.recorded telemetry
        (buffer.ring.writeWithRetry value (buffer.tags.intern tag).1)
          (buffer.tags.intern tag).2 := by
  unfold record
  generalize buffer.tags.intern tag = interned
  exact recordId_eq_recorded { buffer with tags := interned.2 } telemetry value interned.1

end MetricBuffer

structure Offer.Sound (buffer : MetricBuffer) (offer : Offer) : Prop where
  lost_iff : offer.accepted = false ↔ offer.before.ring.outstanding = offer.before.ring.capacity
  after_ring : offer.accepted = false → offer.after.ring = offer.before.ring
  after_tags : offer.after.tags = (offer.before.tags.intern offer.tag).2
  before_tags : offer.before.tags.Sound
  later : buffer.tags.Extends offer.after.tags

theorem Offer.Sound.later_buffer {buffer buffer' : MetricBuffer} {offer : Offer}
    (h : offer.Sound buffer) (hlater : buffer'.tags.Extends buffer.tags) : offer.Sound buffer' :=
  { h with later := h.later.trans hlater }

theorem Offer.Sound.name? {buffer : MetricBuffer} {offer : Offer} (h : offer.Sound buffer)
    (hsmall : offer.after.tags.Small) : buffer.tags.name? offer.id = some offer.tag := by
  have hname := h.later
  rw [h.after_tags] at hname hsmall
  exact hname.name? (h.before_tags.name?_intern hsmall)

namespace Account

structure Sound (account : Account) : Prop where
  history : account.buffer.ring.History account.kept account.drained
  tags : account.buffer.tags.Sound
  offers : ∀ offer ∈ account.offers, offer.Sound account.buffer

variable {account : Account}

theorem ofCapacity_sound (metricType : String) (capacity : Nat) (clock : Clock) :
    (ofCapacity metricType capacity clock).Sound :=
  ⟨(Ring.startingAt_fresh capacity 0 clock).history, TagTable.sound_empty, nofun⟩

theorem Sound.record (hs : account.Sound) (value : Int64) (tag : String) :
    (account.serve (.record value tag)).Sound := by
  let written := account.buffer.ring.writeWithRetry value (account.buffer.tags.intern tag).1
  let offer : Offer := ⟨value, tag, account.buffer,
    { account.buffer with ring := written.2, tags := (account.buffer.tags.intern tag).2 },
    written.1⟩
  have hserve : account.serve (.record value tag) =
      { account with buffer := offer.after, offers := account.offers ++ [offer] } := by
    rw [Account.serve, MetricBuffer.record_eq_recorded]
    rfl
  have hlater := TagTable.intern_extends account.buffer.tags tag
  have hoffers : offer.Sound offer.after → ∀ other ∈ account.offers ++ [offer],
      other.Sound offer.after := by
    intro hoffer other hother
    rcases List.mem_append.1 hother with hold | hnew
    · exact (hs.offers other hold).later_buffer hlater
    · exact List.mem_singleton.1 hnew ▸ hoffer
  rw [hserve]
  rcases hs.history.writeWithRetry value (account.buffer.tags.intern tag).1 with
    ⟨hfull, hwritten⟩ | ⟨hroom, haccepted, hhistory⟩
  · have hlost : offer.accepted = false := congrArg Prod.fst hwritten
    have hring : offer.after.ring = account.buffer.ring := congrArg Prod.snd hwritten
    refine ⟨?_, hs.tags.intern tag, hoffers ⟨iff_of_true hlost hfull, fun _ => hring, rfl, hs.tags,
      TagTable.extends_refl _⟩⟩
    have hkept : (account.offers ++ [offer]).filter Offer.accepted =
        account.offers.filter Offer.accepted := by
      simp [List.filter_append, hlost]
    rw [kept, hkept, hring]
    exact hs.history
  · have hkept : (account.offers ++ [offer]).filter Offer.accepted =
        account.offers.filter Offer.accepted ++ [offer] := by
      have : offer.accepted = true := haccepted
      simp [List.filter_append, this]
    refine ⟨?_, hs.tags.intern tag, hoffers ⟨?_, ?_, rfl, hs.tags, TagTable.extends_refl _⟩⟩
    · rw [kept, hkept, List.map_append]
      exact hhistory
    · exact iff_of_false (by simp [offer, written, haccepted]) (Nat.ne_of_lt hroom)
    · intro hlost
      exact absurd (hlost.symm.trans haccepted) Bool.false_ne_true

theorem Sound.serve (hs : account.Sound) (request : Request) : (account.serve request).Sound := by
  cases request with
  | record value tag => exact hs.record value tag
  | drain most =>
    exact ⟨hs.history.consume most, hs.tags, fun offer hoffer =>
      (hs.offers offer hoffer).later_buffer (TagTable.extends_refl _)⟩
  | tick clock =>
    exact ⟨hs.history.tick clock, hs.tags, fun offer hoffer =>
      (hs.offers offer hoffer).later_buffer (TagTable.extends_refl _)⟩

theorem Sound.run (hs : account.Sound) (requests : List Request) :
    (account.run requests).Sound := by
  induction requests generalizing account with
  | nil => exact hs
  | cons request requests ih => exact ih (hs.serve request)

theorem tags_run_record (account : Account) (row : List (Int64 × String)) :
    (account.run (row.map fun item => .record item.1 item.2)).buffer.tags =
      (account.buffer.tags.internAll (row.map Prod.snd)).2 := by
  induction row generalizing account with
  | nil => rfl
  | cons item row ih =>
    refine (ih (account.serve (.record item.1 item.2))).trans ?_
    rw [Account.serve, MetricBuffer.record_eq_recorded]
    rfl

theorem exists_offer (account : Account) (value : Int64) (tag : String) :
    ∃ offer ∈ (account.serve (.record value tag)).offers,
      offer.before = account.buffer ∧ offer.tag = tag := by
  rw [Account.serve, MetricBuffer.record_eq_recorded]
  exact ⟨_, List.mem_append_right _ (List.mem_singleton.2 rfl), rfl, rfl⟩

theorem names_run_record (metricType : String) (capacity : Nat) (clock : Clock)
    {row : List (Int64 × String)} (hnodup : (row.map Prod.snd).Nodup)
    (hempty : "" ∉ row.map Prod.snd) :
    ((ofCapacity metricType capacity clock).run
      (row.map fun item => .record item.1 item.2)).buffer.tags.names.toList =
        "" :: row.map Prod.snd := by
  rw [tags_run_record]
  refine TagTable.sound_empty.names_internAll hnodup fun other hmem hnone => hempty ?_
  rwa [Array.mem_singleton.1 hnone] at hmem

/-- A new tag that comes after as many others as leave it a negative id has no name. -/
theorem Sound.exists_nameless (hs : account.Sound) (value : Int64) {tag : String}
    (hnew : tag ∉ account.buffer.tags.names)
    (hcount : Int32.ofNat account.buffer.tags.names.size < 0) :
    ∃ offer ∈ (account.serve (.record value tag)).offers, offer.tag = tag ∧
      ∀ table : TagTable, table.name? offer.id = none := by
  obtain ⟨offer, hoffer, hbefore, htag⟩ := exists_offer account value tag
  refine ⟨offer, hoffer, htag, fun table => TagTable.name?_of_neg ?_⟩
  rw [Offer.id, hbefore, htag, hs.tags.intern_new hnew]
  exact hcount

/-- Every offer is kept or lost, and what is kept is drained or lies in the ring. -/
theorem Sound.offers_length (hs : account.Sound) :
    account.offers.length =
      account.drained.length + account.buffer.ring.outstanding + account.lost := by
  have hkept := congrArg List.length hs.history.eq_append
  rw [kept, List.length_map, List.length_append, Ring.chunk_length, ← List.countP_eq_length_filter]
    at hkept
  have hsplit := List.length_eq_countP_add_countP Offer.accepted (l := account.offers)
  have hlost :
      account.lost = account.offers.countP fun offer => decide ¬ offer.accepted = true := by
    simp [lost]
  omega

/-- The books of a buffer are right. An id is resolved to its tag as long as the table had no more
than `2 ^ 31` names when the id was offered: ids have 32 bits, and the ones after those are
negative. -/
structure Balanced (account : Account) : Prop where
  kept_eq : account.kept = account.drained ++
    account.buffer.ring.chunk account.buffer.ring.consumed account.buffer.ring.outstanding
  total : account.offers.length =
    account.drained.length + account.buffer.ring.outstanding + account.lost
  lost_iff : ∀ offer ∈ account.offers,
    offer.accepted = false ↔ offer.before.ring.outstanding = offer.before.ring.capacity
  lost_ring : ∀ offer ∈ account.offers,
    offer.accepted = false → offer.after.ring = offer.before.ring
  named : ∀ offer ∈ account.offers,
    offer.after.tags.Small → account.buffer.tags.name? offer.id = some offer.tag

theorem Sound.balanced (hs : account.Sound) : account.Balanced where
  kept_eq := hs.history.eq_append
  total := hs.offers_length
  lost_iff offer hoffer := (hs.offers offer hoffer).lost_iff
  lost_ring offer hoffer := (hs.offers offer hoffer).after_ring
  named offer hoffer := (hs.offers offer hoffer).name?

theorem serve_metricType (account : Account) (request : Request) :
    (account.serve request).buffer.metricType = account.buffer.metricType := by
  cases request <;> rfl

theorem run_metricType (account : Account) (requests : List Request) :
    (account.run requests).buffer.metricType = account.buffer.metricType := by
  induction requests generalizing account with
  | nil => rfl
  | cons request requests ih => exact (ih _).trans (serve_metricType account request)

theorem lost_record (account : Account) (value : Int64) (tag : String) :
    (account.serve (.record value tag)).lost = account.lost +
      if (account.buffer.ring.writeWithRetry value (account.buffer.tags.intern tag).1).1 then 0
      else 1 := by
  rw [Account.serve, MetricBuffer.record_eq_recorded, lost, lost, List.countP_append,
    List.countP_singleton]
  generalize account.buffer.ring.writeWithRetry value (account.buffer.tags.intern tag).1 = written
  obtain ⟨accepted, ring⟩ := written
  cases accepted <;> rfl

def Request.offered? : Request → Option (Int64 × String)
  | .record value tag => some (value, tag)
  | _ => none

theorem run_offers (account : Account) (requests : List Request) :
    ((account.run requests).offers.map fun offer => (offer.value, offer.tag)) =
      (account.offers.map fun offer => (offer.value, offer.tag)) ++
        requests.filterMap Request.offered? := by
  induction requests generalizing account with
  | nil => exact (List.append_nil _).symm
  | cons request requests ih =>
    refine (ih (account.serve request)).trans ?_
    cases request with
    | record value tag => simp [serve, Request.offered?]
    | _ => rfl

end Account

end MetricReporting
