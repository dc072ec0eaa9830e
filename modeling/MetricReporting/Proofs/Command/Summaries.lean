import MetricReporting.Proofs.Command.Milliseconds
import MetricReporting.Proofs.Keyed
import MetricReporting.Proofs.Payload.Leases
import MetricReporting.Proofs.Payload.TaggedDecoding
import Mathlib.Algebra.GroupWithZero.Nat

/-!
# Summaries of a payload

The values of a payload are split by id into messages, handed out in another order than they were
recorded in, and put together again by name. Neither step loses a value or makes one up, and what is
listed under a name is told of all values that the payload holds under it. Main statements: what is
listed of bytes that nobody vouches for, and what the milliseconds of a summary say.
-/
namespace MetricReporting

namespace Payload

variable {items others : List TaggedItem} {id : Int32} {name : String}

/-! ## Rows with the same values under each id -/

theorem filter_id (id : Int32) (items : List TaggedItem) :
    items.filter (fun item => item.id = id) = (valuesOf id items).map (TaggedItem.mk id) := by
  rw [valuesOf, List.map_map]
  refine (List.map_id _).symm.trans (List.map_congr_left fun item hitem => ?_)
  obtain rfl : item.id = id := of_decide_eq_true (List.mem_filter.1 hitem).2
  rfl

theorem perm_of_valuesOf_eq (h : ∀ id, valuesOf id items = valuesOf id others) :
    items.Perm others := by
  rw [List.perm_iff_count]
  intro item
  have hsame : items.filter (fun other => other.id = item.id) =
      others.filter (fun other => other.id = item.id) := by
    rw [filter_id, filter_id, h]
  have hcount := congrArg (List.count item) hsame
  rwa [List.count_filter (by simp), List.count_filter (by simp)] at hcount

def ungrouped (runs : List (Int32 × List TimedValue)) : List TaggedItem :=
  runs.flatMap fun run => run.2.map (TaggedItem.mk run.1)

theorem valuesOf_ungrouped (id : Int32) (runs : List (Int32 × List TimedValue)) :
    valuesOf id (ungrouped runs) = (runsUnder id runs).flatten := by
  induction runs with
  | nil => rfl
  | cons run runs ih =>
    have hsplit : valuesOf id (ungrouped (run :: runs)) =
        valuesOf id (run.2.map (TaggedItem.mk run.1)) ++ valuesOf id (ungrouped runs) := by
      simp [valuesOf, ungrouped]
    rw [hsplit, ih]
    by_cases hid : run.1 = id
    · simp [valuesOf, runsUnder, hid, List.filter_map, Function.comp_def]
    · simp [valuesOf, runsUnder, hid, List.filter_map, Function.comp_def]

theorem valuesOf_ungrouped_groupedRuns (id : Int32) (items : List TaggedItem) :
    valuesOf id (ungrouped (groupedRuns items)) = valuesOf id items := by
  rw [valuesOf_ungrouped, runsUnder_groupedRuns, flatten_runsOf]

theorem ungrouped_groupedRuns_perm (items : List TaggedItem) :
    (ungrouped (groupedRuns items)).Perm items :=
  perm_of_valuesOf_eq fun id => valuesOf_ungrouped_groupedRuns id items

/-! ## Values under a name -/

def heldUnder (name : String) (messages : List Message) : List TimedValue :=
  (messages.filter fun message => message.tag = name).flatMap fun message => message.values.toList

namespace TaggedForm

def itemsNamed (form : TaggedForm) (name : String) (items : List TaggedItem) : List TimedValue :=
  (items.filter fun item => form.nameOf item.id = name).map TaggedItem.item

def valuesNamed (form : TaggedForm) (name : String) : List TimedValue :=
  form.itemsNamed name form.items

variable {form : TaggedForm}

theorem heldUnder_messages (form : TaggedForm) (name : String) :
    heldUnder name form.messages = form.itemsNamed name (ungrouped (groupedRuns form.items)) := by
  rw [messages, heldUnder, itemsNamed, ungrouped]
  induction groupedRuns form.items with
  | nil => rfl
  | cons run runs ih =>
    by_cases hname : form.nameOf run.1 = name
    · simp_all [List.filter_map, Function.comp_def]
    · simp_all [List.filter_map, Function.comp_def]

theorem heldUnder_perm (form : TaggedForm) (name : String) :
    (heldUnder name form.messages).Perm (form.valuesNamed name) := by
  rw [heldUnder_messages]
  exact ((ungrouped_groupedRuns_perm form.items).filter _).map _

theorem mem_valuesNamed {value : TimedValue} : value ∈ form.valuesNamed name ↔
    ∃ item ∈ form.items, form.nameOf item.id = name ∧ item.item = value := by
  simp [valuesNamed, itemsNamed, and_assoc]

theorem heldUnder_of_single (hname : form.nameOf id = name)
    (hsingle : ∀ item ∈ form.items, form.nameOf item.id = name → item.id = id) :
    heldUnder name form.messages = valuesOf id form.items := by
  have hfilter :
      (ungrouped (groupedRuns form.items)).filter (fun item => form.nameOf item.id = name) =
      (ungrouped (groupedRuns form.items)).filter fun item => item.id = id := by
    refine List.filter_congr fun item hitem => decide_eq_decide.2 ⟨hsingle item ?_, ?_⟩
    · exact (ungrouped_groupedRuns_perm form.items).mem_iff.1 hitem
    · rintro rfl
      exact hname
  rw [heldUnder_messages, itemsNamed, hfilter, ← valuesOf_ungrouped_groupedRuns]
  rfl

theorem length_items (form : TaggedForm) : form.items.length = form.records.length :=
  List.length_map _

theorem sum_sizes (form : TaggedForm) :
    (form.messages.map fun message => message.values.size).sum = form.records.length := by
  have hungrouped := (ungrouped_groupedRuns_perm form.items).length_eq
  rw [ungrouped, List.length_flatMap] at hungrouped
  rw [← length_items, ← hungrouped, messages, List.map_map]
  simp only [List.length_map]
  rfl

end TaggedForm

end Payload

open Payload (TimedValue Message TaggedForm Pool Stock heldUnder valuesOf)

/-! ## Messages put together by name -/

namespace Listing

variable {messages : List Message} {message : Message} {name : String}

theorem byTag_concat (messages : List Message) (message : Message) :
    byTag (messages ++ [message]) =
      Keyed.adjustAscending (fun a b => decide (a < b)) message.tag
        (fun before => before.getD [] ++ message.values.toList) (byTag messages) := by
  rw [byTag, List.foldl_append]
  rfl

theorem byTag_ascending (messages : List Message) :
    (byTag messages).Pairwise fun a b => a.1 < b.1 := by
  induction messages using List.reverseRecOn with
  | nil => exact List.Pairwise.nil
  | append_singleton messages message ih =>
    rw [byTag_concat]
    exact Keyed.ascending_adjustAscending ih _ _

theorem heldUnder_concat (name : String) (messages : List Message) (message : Message) :
    heldUnder name (messages ++ [message]) =
      heldUnder name messages ++ if message.tag = name then message.values.toList else [] := by
  by_cases hname : message.tag = name
  · simp [heldUnder, hname]
  · simp [heldUnder, hname]

theorem find?_byTag (name : String) (messages : List Message) :
    Keyed.find? name (byTag messages) =
      if ∃ message ∈ messages, message.tag = name then some (heldUnder name messages)
      else none := by
  induction messages using List.reverseRecOn with
  | nil => rfl
  | append_singleton messages message ih =>
    rw [byTag_concat, heldUnder_concat]
    by_cases hname : message.tag = name
    · have hhas : ∃ other ∈ messages ++ [message], other.tag = name :=
        ⟨message, List.mem_append_right _ (List.mem_singleton_self _), hname⟩
      rw [if_pos hhas, if_pos hname, ← hname, Keyed.find?_adjustAscending (byTag_ascending _),
        hname, ih]
      split
      · rfl
      · rename_i hnone
        have hempty : heldUnder name messages = [] := by
          rw [heldUnder, List.filter_eq_nil_iff.2 fun other hother heq =>
            hnone ⟨other, hother, of_decide_eq_true heq⟩]
          rfl
        rw [hempty]
        rfl
    · rw [if_neg hname, List.append_nil, Keyed.find?_adjustAscending_other _ (Ne.symm hname), ih]
      simp [hname]

theorem mem_byTag {values : List TimedValue} : (name, values) ∈ byTag messages ↔
    (∃ message ∈ messages, message.tag = name) ∧ values = heldUnder name messages := by
  have hdistinct : ((byTag messages).map Prod.fst).Nodup := by
    rw [List.Nodup, List.pairwise_map]
    exact (byTag_ascending messages).imp Std.ne_of_lt
  rw [← Keyed.find?_eq_some_iff hdistinct, find?_byTag]
  split <;> simp_all [eq_comm]

theorem sum_lengths_byTag (messages : List Message) :
    ((byTag messages).map fun pair => pair.2.length).sum =
      (messages.map fun message => message.values.size).sum := by
  induction messages using List.reverseRecOn with
  | nil => rfl
  | append_singleton messages message ih =>
    have hmore : ∀ before : List TimedValue,
        (before ++ message.values.toList).length = before.length + message.values.size :=
      fun before => List.length_append
    rw [byTag_concat, Keyed.sum_adjustAscending List.length _ _ rfl hmore, ih, List.map_append,
      List.sum_append]
    rfl

/-! ## Listings -/

variable {withValues : Bool} {path : String} {payload : Bytes} {pool : Pool}
  {error : Payload.DecodeError} {listing : Listing} {form : TaggedForm} {tags : List TagSummary}

theorem ofPayload_undecodable (h : (Payload.decodeTagged payload pool).1 = .error error) :
    (ofPayload path payload withValues pool).1 = .error (.undecodable error) := by
  unfold ofPayload
  generalize Payload.decodeTagged payload pool = outcome at h
  obtain ⟨result, after⟩ := outcome
  obtain rfl : result = .error error := h
  rfl

def summariesOf? (withValues : Bool) (messages : List Message) : Option (List TagSummary) :=
  (byTag messages).mapM fun (tag, items) => TagSummary.ofValues? withValues tag items

theorem ofPayload_decoded (h : (Payload.decodeTagged payload pool).1 = .ok messages) :
    (ofPayload path payload withValues pool).1 =
      ((summariesOf? withValues messages).map fun tags => ⟨path, payload.length, tags⟩).elim
        (.error .untimely) .ok := by
  unfold ofPayload summariesOf?
  generalize Payload.decodeTagged payload pool = outcome at h
  obtain ⟨result, after⟩ := outcome
  obtain rfl : result = .ok messages := h
  dsimp only
  split
  · rename_i hnone
    rw [hnone]
    rfl
  · rename_i hsome
    rw [hsome]
    rfl

def Timely (form : TaggedForm) : Prop :=
  ∀ item ∈ form.items, Ticks.earliest ≤ item.item.ticks

theorem exists_message_iff : (∃ message ∈ form.messages, message.tag = name) ↔
    ∃ item ∈ form.items, form.nameOf item.id = name := by
  simp only [← (Payload.ungrouped_groupedRuns_perm form.items).mem_iff, Payload.ungrouped,
    List.mem_flatMap, List.mem_map, TaggedForm.messages]
  constructor
  · rintro ⟨_, ⟨run, hrun, rfl⟩, hname⟩
    obtain ⟨value, hvalue⟩ :=
      List.exists_mem_of_length_pos (Payload.length_of_mem_groupedRuns hrun).1
    exact ⟨⟨run.1, value⟩, ⟨run, hrun, value, hvalue, rfl⟩, hname⟩
  · rintro ⟨_, ⟨run, hrun, value, -, rfl⟩, hname⟩
    exact ⟨_, ⟨run, hrun, rfl⟩, hname⟩

theorem byTag_messages {pair : String × List TimedValue} (h : pair ∈ byTag form.messages) :
    pair.2 = heldUnder pair.1 form.messages ∧ pair.2 ≠ [] := by
  obtain ⟨hmessage, hvalues⟩ := mem_byTag.1 h
  obtain ⟨item, hitem, hname⟩ := exists_message_iff.1 hmessage
  refine ⟨hvalues, List.ne_nil_of_mem (a := item.item) ?_⟩
  rw [hvalues, (TaggedForm.heldUnder_perm form pair.1).mem_iff]
  exact TaggedForm.mem_valuesNamed.2 ⟨item, hitem, hname, rfl⟩

theorem exists_summariesOf?_iff :
    (∃ tags, summariesOf? withValues form.messages = some tags) ↔ Timely form := by
  rw [summariesOf?, exists_mapM_iff]
  constructor
  · intro h item hitem
    have hrow : (form.nameOf item.id, heldUnder (form.nameOf item.id) form.messages) ∈
        byTag form.messages := mem_byTag.2 ⟨exists_message_iff.2 ⟨item, hitem, rfl⟩, rfl⟩
    refine (TagSummary.exists_ofValues?_iff (byTag_messages hrow).2).1 (h _ hrow) item.item ?_
    rw [(TaggedForm.heldUnder_perm form _).mem_iff]
    exact TaggedForm.mem_valuesNamed.2 ⟨item, hitem, rfl, rfl⟩
  · rintro htimely ⟨name, values⟩ hrow
    obtain ⟨hheld, hne⟩ := byTag_messages hrow
    refine (TagSummary.exists_ofValues?_iff hne).2 fun value hvalue => ?_
    rw [hheld, (TaggedForm.heldUnder_perm form name).mem_iff] at hvalue
    obtain ⟨item, hitem, -, rfl⟩ := TaggedForm.mem_valuesNamed.1 hvalue
    exact htimely item hitem

structure Tells (withValues : Bool) (form : TaggedForm) (listing : Listing) : Prop where
  entries : listing.entries = form.start.count
  ascending : listing.tags.Pairwise fun a b => a.tag < b.tag
  tags : ∀ name, (∃ summary ∈ listing.tags, summary.tag = name) ↔
    ∃ item ∈ form.items, form.nameOf item.id = name
  values : ∀ summary ∈ listing.tags, summary.Tells (form.valuesNamed summary.tag)
  shown : ∀ summary ∈ listing.tags, ∃ values, values.Perm (form.valuesNamed summary.tag) ∧
    summary.Shows withValues values ∧
    ∀ id, (∀ item ∈ form.items, form.nameOf item.id = summary.tag → item.id = id) →
      values = valuesOf id form.items

theorem tells_of_summariesOf? (h : summariesOf? withValues form.messages = some tags)
    (path : String) (bytes : Nat) : Tells withValues form ⟨path, bytes, tags⟩ := by
  have hrows : List.Forall₂ (fun pair summary => summary.tag = pair.1 ∧ summary.Tells pair.2 ∧
      summary.Shows withValues pair.2) (byTag form.messages) tags := by
    have hall : ∀ pair ∈ byTag form.messages, pair.2 ≠ [] := fun pair hpair =>
      (byTag_messages hpair).2
    have hboth := (List.forall₂_and_left _ _).2 ⟨hall, mapM_eq_some_iff.1 h⟩
    exact hboth.imp fun pair summary hpair => TagSummary.tells_of_ofValues? hpair.1 hpair.2
  have hnames : tags.map TagSummary.tag = (byTag form.messages).map Prod.fst :=
    map_eq_of_forall₂ hrows fun _ _ hrow => hrow.1
  have hcounts : tags.map TagSummary.count = (byTag form.messages).map fun pair => pair.2.length :=
    map_eq_of_forall₂ hrows fun _ _ hrow => hrow.2.1.count
  constructor
  · show (tags.map TagSummary.count).sum = form.records.length
    rw [hcounts, sum_lengths_byTag, TaggedForm.sum_sizes]
  · have hascending := List.pairwise_map.2 (byTag_ascending form.messages)
    rw [← hnames] at hascending
    exact List.pairwise_map.1 hascending
  · intro name
    have hmem : (∃ summary ∈ tags, summary.tag = name) ↔ name ∈ tags.map TagSummary.tag :=
      List.mem_map.symm
    rw [hmem, hnames, List.mem_map, ← exists_message_iff]
    constructor
    · rintro ⟨pair, hpair, rfl⟩
      exact (mem_byTag.1 hpair).1
    · exact fun hmessage => ⟨(name, _), mem_byTag.2 ⟨hmessage, rfl⟩, rfl⟩
  · intro summary hsummary
    obtain ⟨pair, hpair, htag, htells, -⟩ := exists_of_forall₂ hrows hsummary
    rw [(byTag_messages hpair).1, ← htag] at htells
    exact htells.of_perm (TaggedForm.heldUnder_perm form summary.tag)
  · intro summary hsummary
    obtain ⟨pair, hpair, htag, -, hshows⟩ := exists_of_forall₂ hrows hsummary
    rw [(byTag_messages hpair).1, ← htag] at hshows
    refine ⟨_, TaggedForm.heldUnder_perm form summary.tag, hshows, fun id hsingle => ?_⟩
    obtain ⟨item, hitem, hname⟩ := exists_message_iff.1 (mem_byTag.1 hpair).1
    rw [← htag] at hname
    exact TaggedForm.heldUnder_of_single (hsingle item hitem hname ▸ hname) hsingle

end Listing

/-! ## The messages of a listing -/

namespace Payload.Stock

variable {pool : Pool} {payload : Bytes}

/-- A stock after a payload was listed: what was decoded is given back. -/
def afterListing (stock : Stock) (payload : Bytes) : Stock :=
  match stock.decodeTagged payload with
  | (.ok messages, stock) => stock.releaseAll messages
  | (.error _, stock) => stock

theorem ofPayload_pool (pool : Pool) (path : String) (payload : Bytes) (withValues : Bool) :
    (Listing.ofPayload path payload withValues pool).2 =
      ((ofPool pool).afterListing payload).pool := by
  have hplain := decodeTagged_plain (ofPool pool) payload
  rw [pool_ofPool] at hplain
  unfold Listing.ofPayload afterListing
  rw [hplain]
  generalize (ofPool pool).decodeTagged payload = outcome
  obtain ⟨result, stock⟩ := outcome
  cases result with
  | error error => rfl
  | ok messages =>
    dsimp only [Except.map]
    rw [pool_releaseAll]
    split <;> rfl

theorem afterListing_handed (pool : Pool) (payload : Bytes) : ∃ messages kept,
    (ofPool pool).afterListing payload = kept.releaseAll messages ∧ Handed pool messages kept := by
  unfold afterListing
  rcases decodeTagged_handed pool payload with
    ⟨messages, stock, houtcome, hhanded⟩ | ⟨error, messages, kept, houtcome, hhanded⟩
  · rw [houtcome]
    exact ⟨messages, stock, rfl, hhanded⟩
  · rw [houtcome]
    exact ⟨messages, kept, rfl, hhanded⟩

theorem afterListing_returned (pool : Pool) (payload : Bytes) :
    let after := (ofPool pool).afterListing payload
    after.returned.Perm after.leased ∧
      (after.free.map Numbered.number).Perm
        (List.range (max pool.available after.leased.length)) := by
  intro after
  obtain ⟨messages, kept, hafter, hhanded⟩ := afterListing_handed pool payload
  rw [show after = _ from hafter, releaseAll_returned, releaseAll_leased, hhanded.supply.returned,
    List.nil_append]
  exact ⟨hhanded.numbers, hhanded.releaseAll_numbers⟩

end Payload.Stock

namespace Listing

variable {pool : Pool} {payload : Bytes} {messages : List Message} {name : String}
  {form : TaggedForm}

/-- What becomes of a payload that is accepted: a listing that tells of it, unless one of its values
is too early. -/
theorem ofPayload_form (hpool : pool.Clean) (hvalid : form.Valid) (path : String) (rest : Bytes)
    (withValues : Bool) :
    let outcome := ofPayload path (form.bytes ++ rest) withValues pool
    (¬ Timely form → outcome.1 = .error .untimely) ∧
    (Timely form → ∃ listing, outcome.1 = .ok listing ∧ listing.path = path ∧
      listing.bytes = (form.bytes ++ rest).length ∧ listing.Tells withValues form) := by
  intro outcome
  have hdecoded : outcome.1 = _ := ofPayload_decoded (Payload.decodeTagged_form hpool hvalid rest)
  rw [hdecoded, ← @exists_summariesOf?_iff withValues form]
  cases htags : summariesOf? withValues form.messages with
  | none => exact ⟨fun _ => rfl, nofun⟩
  | some tags =>
    exact ⟨fun hnone => absurd ⟨tags, rfl⟩ hnone,
      fun _ => ⟨_, rfl, rfl, rfl, tells_of_summariesOf? htags path _⟩⟩

/-- A file is listed faithfully. Where its bytes are accepted and no value is too early, there is a
summary for each name that a value goes under and for no other, in ascending order; it tells of all
values under the name, of however many ids and messages, and shows those of a single id in their
order; together they have the entries of the payload. Bytes that are rejected and values that are
too early end the listing; in any case each leased message is back in the pool, once. -/
theorem summaries_faithful (hpool : pool.Reachable) (path : String) (payload : Bytes)
    (withValues : Bool) :
    let outcome := ofPayload path payload withValues pool
    let after := (Stock.ofPool pool).afterListing payload
    (outcome.2 = after.pool ∧ after.returned.Perm after.leased ∧
      (after.free.map Payload.Numbered.number).Perm
        (List.range (max pool.available after.leased.length))) ∧
    (∀ error, (Payload.decodeTagged payload pool).1 = .error error →
      outcome.1 = .error (.undecodable error)) ∧
    (∀ messages, (Payload.decodeTagged payload pool).1 = .ok messages →
      ∃ (form : TaggedForm) (rest : Bytes), form.Valid ∧ payload = form.bytes ++ rest) ∧
    ∀ (form : TaggedForm) (rest : Bytes), form.Valid → payload = form.bytes ++ rest →
      (¬ Timely form → outcome.1 = .error .untimely) ∧
      (Timely form → ∃ listing, outcome.1 = .ok listing ∧ listing.path = path ∧
        listing.bytes = payload.length ∧ listing.Tells withValues form) := by
  intro outcome after
  obtain ⟨hreturned, hstanding⟩ := Stock.afterListing_returned pool payload
  refine ⟨⟨Stock.ofPayload_pool pool path payload withValues, hreturned, hstanding⟩,
    fun error herror => ofPayload_undecodable herror, fun messages hmessages => ?_, ?_⟩
  · rcases Payload.rejected_or_form payload with ⟨error, hrejected⟩ | haccepted
    · rw [Payload.decodeTagged_rejected hpool.clean hrejected] at hmessages
      cases hmessages
    · exact haccepted
  · rintro form rest hvalid rfl
    exact ofPayload_form hpool.clean hvalid path rest withValues

def mergedForm : TaggedForm where
  base := 621355968000020000
  dictionary := [(1, "b"), (2, "a"), (3, "b"), (4, "unused")]
  records := [⟨0, 1, 5⟩, ⟨10000, 2, 9⟩, ⟨-20000, 3, -7⟩]

theorem summaries_faithful_merged :
    let pool := Pool.release {} ⟨"old", #[⟨1, 1⟩]⟩
    let outcome := ofPayload "x.bin" (mergedForm.bytes ++ [7]) true pool
    ∃ listing, outcome.1 = .ok listing ∧ listing.entries = 3 ∧
      (∃ summary ∈ listing.tags, summary.tag = "b" ∧ summary.count = 2 ∧ summary.least = -7) ∧
      (¬ ∃ summary ∈ listing.tags, summary.tag = "unused") ∧ outcome.2.available = 3 := by
  intro pool outcome
  have hpool : pool.Reachable := Pool.Reachable.new.release _
  obtain ⟨⟨hafter, -, hnumbers⟩, -, -, hlisted⟩ :=
    summaries_faithful hpool "x.bin" (mergedForm.bytes ++ [7]) true
  obtain ⟨listing, houtcome, -, -, htells⟩ :=
    (hlisted mergedForm [7] (by decide) rfl).2 (by unfold Timely; decide)
  refine ⟨listing, houtcome, htells.entries, ?_, ?_, ?_⟩
  · obtain ⟨summary, hsummary, htag⟩ := (htells.tags "b").2 (by decide)
    have hnamed : mergedForm.valuesNamed "b" =
        [⟨621355968000020000, 5⟩, ⟨621355968000000000, -7⟩] := by decide
    have hvalues := htells.values summary hsummary
    rw [htag, hnamed] at hvalues
    refine ⟨summary, hsummary, htag, hvalues.count, ?_⟩
    have hle := hvalues.least_le ⟨621355968000000000, -7⟩ (by decide)
    obtain ⟨item, hitem, hleast⟩ := hvalues.least
    rcases List.mem_cons.1 hitem with rfl | hlast
    · rw [← hleast] at hle
      exact absurd hle (by decide)
    · rw [← hleast, List.mem_singleton.1 hlast]
  · rw [htells.tags]
    decide
  · have hleases :
        ((Stock.ofPool pool).afterListing (mergedForm.bytes ++ [7])).leased.length = 3 := by
      decide +kernel
    have hstanding := hnumbers.length_eq
    rw [List.length_map, List.length_range, hleases] at hstanding
    rw [show outcome.2 = _ from hafter, Pool.available, Stock.pool, List.length_map, hstanding]
    rfl

def firstMomentForm : TaggedForm where
  base := -9223372036854775808
  dictionary := [(1, "a")]
  records := [⟨0, 1, 7⟩]

/-- A payload that is decoded is not listed. -/
theorem summaries_missing : let payload := firstMomentForm.bytes
    (Payload.decodeTagged payload {}).1 = .ok [⟨"a", #[⟨-9223372036854775808, 7⟩]⟩] ∧
      ∀ path withValues, (ofPayload path payload withValues {}).1 = .error .untimely := by
  have hvalid : firstMomentForm.Valid := by decide
  refine ⟨by decide +kernel, fun path withValues => ?_⟩
  have houtcome := (ofPayload_form Pool.Reachable.new.clean hvalid path [] withValues).1
  rw [List.append_nil] at houtcome
  exact houtcome (by unfold Timely; decide)

/-! ## Times of a listing -/

theorem mem_heldUnder {value : TimedValue} : value ∈ heldUnder name messages ↔
    ∃ message ∈ messages, message.tag = name ∧ value ∈ message.values := by
  simp [heldUnder, and_assoc]

theorem timely_iff : Timely form ↔
    ∀ message ∈ form.messages, ∀ value ∈ message.values, Ticks.earliest ≤ value.ticks := by
  constructor
  · intro htimely message hmessage value hvalue
    have hheld : value ∈ heldUnder message.tag form.messages :=
      mem_heldUnder.2 ⟨message, hmessage, rfl, hvalue⟩
    rw [(TaggedForm.heldUnder_perm form _).mem_iff] at hheld
    obtain ⟨item, hitem, -, rfl⟩ := TaggedForm.mem_valuesNamed.1 hheld
    exact htimely item hitem
  · intro htimely item hitem
    have hnamed : item.item ∈ form.valuesNamed (form.nameOf item.id) :=
      TaggedForm.mem_valuesNamed.2 ⟨item, hitem, rfl, rfl⟩
    rw [← (TaggedForm.heldUnder_perm form _).mem_iff] at hnamed
    obtain ⟨message, hmessage, -, hvalue⟩ := mem_heldUnder.1 hnamed
    exact htimely message hmessage item.item hvalue

/-- Times of an accepted payload. If a value is more than a word of ticks before 1970, the
subtraction overflows and there is no listing. Otherwise each value has milliseconds, in the order
of its ticks before and after 1970; those of a name lie between the first and the last of its
summary, also where they are shown; and the span that is printed is what lies between these, not
less than zero. -/
theorem millis_bounded (hpool : pool.Reachable)
    (hdecoded : (Payload.decodeTagged payload pool).1 = .ok messages) (path : String)
    (withValues : Bool) :
    let outcome := ofPayload path payload withValues pool
    ((∃ message ∈ messages, ∃ value ∈ message.values, value.ticks < -8602016068854775808) →
      outcome.1 = .error .untimely) ∧
    ((∀ message ∈ messages, ∀ value ∈ message.values, -8602016068854775808 ≤ value.ticks) →
      ∃ listing, outcome.1 = .ok listing ∧
        (∀ message ∈ messages, ∃ summary ∈ listing.tags, summary.tag = message.tag) ∧
        ∀ summary ∈ listing.tags,
          (∀ message ∈ messages, message.tag = summary.tag → ∀ value ∈ message.values,
            ∃ millis, Ticks.toUnixMillis? value.ticks = some millis ∧
              summary.firstMillis ≤ millis ∧ millis ≤ summary.lastMillis) ∧
          (∀ shown ∈ summary.values,
            summary.firstMillis ≤ shown.millis ∧ shown.millis ≤ summary.lastMillis) ∧
          (summary.lastMillis - summary.firstMillis).toInt =
            summary.lastMillis.toInt - summary.firstMillis.toInt ∧
          0 ≤ (summary.lastMillis - summary.firstMillis).toInt) ∧
    ∀ ticks later millis millis', ticks ≤ later → Ticks.toUnixMillis? ticks = some millis →
      Ticks.toUnixMillis? later = some millis' → millis ≤ millis' := by
  intro outcome
  obtain ⟨error, hrejected⟩ | ⟨form, rest, hvalid, rfl⟩ := Payload.rejected_or_form payload
  · rw [Payload.decodeTagged_rejected hpool.clean hrejected] at hdecoded
    cases hdecoded
  rw [Payload.decodeTagged_form hpool.clean hvalid rest] at hdecoded
  obtain rfl : form.messages = messages := Except.ok.inj hdecoded
  obtain ⟨huntimely, hlisted⟩ := ofPayload_form hpool.clean hvalid path rest withValues
  refine ⟨fun ⟨message, hmessage, value, hvalue, hearly⟩ => huntimely fun htimely => ?_,
    fun htimely => ?_, fun _ _ _ _ hle hmillis hmillis' => Ticks.millis_mono hle hmillis hmillis'⟩
  · have hlate := timely_iff.1 htimely message hmessage value hvalue
    exact Int64.lt_irrefl (Int64.lt_of_lt_of_le hearly hlate)
  · obtain ⟨listing, houtcome, -, -, htells⟩ := hlisted (timely_iff.2 htimely)
    refine ⟨listing, houtcome, fun message hmessage => ?_, fun summary hsummary =>
      ⟨fun message hmessage hname value hvalue => ?_, fun shown hshown => ?_, ?_⟩⟩
    · exact (htells.tags _).2 (exists_message_iff.1 ⟨message, hmessage, rfl⟩)
    · obtain ⟨millis, hmillis⟩ := Ticks.exists_millis_iff.2 (htimely message hmessage value hvalue)
      have hmem : value ∈ form.valuesNamed summary.tag :=
        (TaggedForm.heldUnder_perm form _).mem_iff.1
          (mem_heldUnder.2 ⟨message, hmessage, hname, hvalue⟩)
      exact ⟨millis, hmillis, (htells.values summary hsummary).millis_between hmem hmillis⟩
    · obtain ⟨values, hperm, hshows, -⟩ := htells.shown summary hsummary
      obtain ⟨value, hvalue, hmillis⟩ := hshows.exists_of_mem hshown
      exact (htells.values summary hsummary).millis_between (hperm.mem_iff.1 hvalue) hmillis
    · exact (htells.values summary hsummary).span

def straddlingForm : TaggedForm where
  base := 621355968000000000
  dictionary := [(1, "a")]
  records := [⟨-5000, 1, 2⟩, ⟨15000, 1, 3⟩, ⟨-15000, 1, 1⟩]

theorem millis_bounded_straddling :
    ∃ listing, (ofPayload "x.bin" straddlingForm.bytes true {}).1 = .ok listing ∧
      ∃ summary ∈ listing.tags, summary.tag = "a" ∧ summary.firstMillis ≤ -1 ∧
        1 ≤ summary.lastMillis ∧ 2 ≤ (summary.lastMillis - summary.firstMillis).toInt := by
  have hdecoded : (Payload.decodeTagged straddlingForm.bytes {}).1 = .ok [⟨"a",
      #[⟨621355967999995000, 2⟩, ⟨621355968000015000, 3⟩, ⟨621355967999985000, 1⟩]⟩] := by
    decide +kernel
  obtain ⟨-, hlisted, -⟩ := millis_bounded Pool.Reachable.new hdecoded "x.bin" true
  obtain ⟨listing, houtcome, hnamed, hsummaries⟩ := hlisted (by decide)
  obtain ⟨summary, hsummary, htag⟩ := hnamed _ (List.mem_singleton_self _)
  obtain ⟨hbounds, -, hspan, -⟩ := hsummaries summary hsummary
  have hbetween := hbounds _ (List.mem_singleton_self _) htag.symm
  obtain ⟨_, hmillis, hfirst, -⟩ := hbetween ⟨621355967999985000, 1⟩ (by simp)
  obtain ⟨_, hmillis', -, hlast⟩ := hbetween ⟨621355968000015000, 3⟩ (by simp)
  have hminus : Ticks.toUnixMillis? 621355967999985000 = some (-1) := by decide
  have hplus : Ticks.toUnixMillis? 621355968000015000 = some 1 := by decide
  rw [← Option.some.inj (hminus.symm.trans hmillis)] at hfirst
  rw [← Option.some.inj (hplus.symm.trans hmillis')] at hlast
  refine ⟨listing, houtcome, summary, hsummary, htag, hfirst, hlast, ?_⟩
  have hlow : summary.firstMillis.toInt ≤ -1 := Int64.le_iff_toInt_le.1 hfirst
  have hhigh : 1 ≤ summary.lastMillis.toInt := Int64.le_iff_toInt_le.1 hlast
  omega

def earlyForm : TaggedForm where
  base := -8602016068854775809
  dictionary := [(1, "a")]
  records := [⟨0, 1, 7⟩]

/-- A value of an accepted payload whose milliseconds overflow, and with them its summary. -/
theorem millis_overflow : let value : TimedValue := ⟨-8602016068854775809, 7⟩
    (Payload.decodeTagged earlyForm.bytes {}).1 = .ok [⟨"a", #[value]⟩] ∧
      Ticks.toUnixMillis? value.ticks = none ∧
      ∀ withValues, TagSummary.ofValues? withValues "a" [value] = none := by
  refine ⟨by decide +kernel, by decide, fun withValues => ?_⟩
  cases withValues <;> rfl

end Listing

end MetricReporting
