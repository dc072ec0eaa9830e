import MetricReporting.Proofs.Payload.Fields
import MetricReporting.Proofs.Payload.Gathering
import MetricReporting.Proofs.Tags.Interning

/-!
# Round trip of tagged payloads

The encoder sorts a batch and writes a dictionary of the ids in it; the decoder streams through the
records and gathers them per id. Main statement: what is decoded of a batch are, for each tag, the
entries of that tag in the order in which the batch was left, and nothing else.
-/
namespace MetricReporting

namespace Payload

def nameOf (tags : TagTable) (id : Int32) : String :=
  (tags.name? id).getD ""

def timed (entry : Entry) : TimedValue :=
  ⟨entry.ticks, entry.value⟩

def pairsOf (id : Int32) (entries : List Entry) : List TimedValue :=
  (entries.filter fun entry => entry.tag = id).map timed

def itemOf (entry : Entry) : TaggedItem :=
  ⟨entry.tag, timed entry⟩

variable {tags : TagTable} {entries sorted : List Entry} {entry : Entry} {id : Int32}
  {base : Int64} {pool : Pool}

theorem spanned_baseTicks (h : sorted.Pairwise fun a b => a.ticks ≤ b.ticks) (hnear : Near sorted)
    (hmem : entry ∈ sorted) : Spanned (baseTicks sorted) entry := by
  obtain ⟨first, hfirst, hticks⟩ := exists_baseTicks (List.ne_nil_of_mem hmem)
  refine ⟨baseTicks_le h hmem, ?_⟩
  rw [← hticks]
  exact hnear entry hmem first hfirst

/-! ## The dictionary -/

theorem mem_dedupAdjacent (ids : List Int32) : id ∈ dedupAdjacent ids ↔ id ∈ ids := by
  fun_induction dedupAdjacent ids with
  | case1 => rfl
  | case2 a => rfl
  | case3 a rest ih =>
    rw [ih]
    simp
  | case4 a b rest hne ih =>
    rw [List.mem_cons, ih]
    exact List.mem_cons.symm

theorem dedupAdjacent_length (ids : List Int32) : (dedupAdjacent ids).length ≤ ids.length := by
  fun_induction dedupAdjacent ids with
  | case1 => exact Nat.le_refl _
  | case2 a => exact Nat.le_refl _
  | case3 a rest ih => exact Nat.le_succ_of_le ih
  | case4 a b rest hne ih => exact Nat.succ_le_succ ih

theorem mem_tagIds : id ∈ tagIds entries ↔ ∃ entry ∈ entries, entry.tag = id := by
  rw [tagIds, mem_dedupAdjacent, List.mem_mergeSort, List.mem_map]

theorem tagIds_length (entries : List Entry) : (tagIds entries).length ≤ entries.length := by
  have h := dedupAdjacent_length ((entries.map Entry.tag).mergeSort fun a b => decide (a ≤ b))
  rwa [List.length_mergeSort, List.length_map] at h

theorem dictionaryEntry_append (h : (Bytes.ofText (nameOf tags id)).length < 2 ^ 31)
    (rest : Bytes) :
    dictionaryEntry (dictionaryItem tags id ++ rest) = .ok ((id, nameOf tags id), rest) := by
  have hname := Reader.bytes_append .tagName (Bytes.ofText (nameOf tags id)) rest
  rw [dictionaryItem, ← nameOf, List.append_assoc, List.append_assoc, dictionaryEntry,
    Reader.bind_ok (Reader.int32_append .tagId id _),
    Reader.bind_ok (Reader.count_append .tagLength h _), Reader.bind_ok hname,
    Bytes.toText?_ofText]
  rfl

theorem taggedItem_append (h : Spanned base entry) (rest : Bytes) :
    taggedItem base (recordBytes (delta base entry) entry .tagged ++ rest) =
      .ok (itemOf entry, rest) := by
  rw [recordBytes, List.append_assoc, List.append_assoc, taggedItem,
    Reader.bind_ok (Reader.ticks_append h _), Reader.bind_ok (Reader.int32_append .tagId _ _),
    Reader.bind_ok (Reader.int64_append .value _ _)]
  rfl

def preambleOf (tags : TagTable) (sorted : List Entry) : Preamble :=
  ⟨baseTicks sorted, (tagIds sorted).map fun id => (id, nameOf tags id), sorted.length⟩

theorem preamble_append (hcount : sorted.length < 2 ^ 31)
    (hnames : ∀ id, (Bytes.ofText (nameOf tags id)).length < 2 ^ 31) (rest : Bytes) :
    preamble (headerBytes (baseTicks sorted) ++ dictionary tags (tagIds sorted) ++
      countBytes sorted.length ++ rest) = .ok (preambleOf tags sorted, rest) := by
  have hids : (tagIds sorted).length < 2 ^ 31 := Nat.lt_of_le_of_lt (tagIds_length sorted) hcount
  have hitem : ∀ id ∈ tagIds sorted, ∀ rest, dictionaryEntry (dictionaryItem tags id ++ rest) =
      .ok ((id, nameOf tags id), rest) := fun id _ rest => dictionaryEntry_append (hnames id) rest
  have hitems := Reader.many_flatMap dictionaryEntry (dictionaryItem tags) _ hitem
  simp only [dictionary, List.append_assoc]
  rw [preamble, Reader.bind_ok (Reader.header_append _ _),
    Reader.bind_ok (Reader.count_append .tagCount hids _), Reader.bind_ok (hitems _),
    Reader.bind_ok (Reader.count_append .entryCount hcount _)]
  rfl

theorem preambleOf_name? (hmem : entry ∈ sorted) :
    (preambleOf tags sorted).name? entry.tag = some (nameOf tags entry.tag) := by
  refine Keyed.find?_eq_some ?_ fun pair hpair hkey => ?_
  · rw [List.mem_reverse]
    exact List.mem_map.2 ⟨entry.tag, mem_tagIds.2 ⟨entry, hmem, rfl⟩, rfl⟩
  · obtain ⟨id, -, rfl⟩ := List.mem_map.1 (List.mem_reverse.1 hpair)
    exact congrArg (nameOf tags) hkey

/-! ## The records -/

theorem gatherAll_append {start : Preamble} {items : List TaggedItem}
    {aside : List (Int32 × Message)} {state : Gathering} (hs : state.Sound start items aside)
    (rows : List Entry) (hspanned : ∀ entry ∈ rows, Spanned start.base entry)
    (hnamed : ∀ entry ∈ rows, ∃ name, start.name? entry.tag = some name) (rest : Bytes) :
    ∃ last aside', Gathering.gatherAll start rows.length
        ((rows.flatMap fun entry => recordBytes (delta start.base entry) entry .tagged) ++ rest)
        state = (last, none) ∧
      last.Sound start (items ++ rows.map itemOf) aside' := by
  induction rows generalizing items aside state with
  | nil =>
    rw [List.map_nil, List.append_nil]
    exact ⟨state, aside, rfl, hs⟩
  | cons entry rows ih =>
    obtain ⟨name, hname⟩ := hnamed entry List.mem_cons_self
    obtain ⟨next, aside', hgather, hnext⟩ := hs.gather (itemOf entry) hname
    obtain ⟨last, aside'', hall, hlast⟩ := ih hnext
      (fun other hother => hspanned other (List.mem_cons_of_mem entry hother))
      fun other hother => hnamed other (List.mem_cons_of_mem entry hother)
    refine ⟨last, aside'', ?_, ?_⟩
    · rw [List.flatMap_cons, List.append_assoc, List.length_cons, Gathering.gatherAll,
        taggedItem_append (hspanned entry List.mem_cons_self)]
      simp only [hgather]
      exact hall
    · rwa [List.map_cons, List.append_cons]

theorem valuesOf_map_itemOf (id : Int32) (entries : List Entry) :
    valuesOf id (entries.map itemOf) = pairsOf id entries := by
  rw [valuesOf, pairsOf, List.filter_map, List.map_map]
  rfl

theorem pairsOf_eq_nil (h : ∀ entry ∈ entries, entry.tag ≠ id) : pairsOf id entries = [] := by
  rw [pairsOf, List.map_eq_nil_iff, List.filter_eq_nil_iff]
  intro entry hentry
  simpa using h entry hentry

theorem under_eq_nil {name : String} {result : List (Int32 × Message)}
    (h : Filled name (pairsOf id sorted) (under id result))
    (hnone : ∀ entry ∈ sorted, entry.tag ≠ id) : under id result = [] := by
  have hlength := h.length
  rw [pairsOf_eq_nil hnone] at hlength
  exact List.eq_nil_of_length_eq_zero hlength

/-- A batch in ascending order comes back: under each id its values in the messages of its name. -/
theorem decodeTagged_encodeSorted (hpool : pool.Clean)
    (horder : sorted.Pairwise fun a b => a.ticks ≤ b.ticks) (hnear : Near sorted)
    (hcount : sorted.length < 2 ^ 31)
    (hnames : ∀ id, (Bytes.ofText (nameOf tags id)).length < 2 ^ 31) :
    ∃ result pool', decodeTagged (encodeSorted tags sorted .tagged) pool =
        (.ok (result.map Prod.snd), pool') ∧
      ∀ id, Filled (nameOf tags id) (pairsOf id sorted) (under id result) := by
  have hpreamble := preamble_append hcount hnames
    (sorted.flatMap fun entry => recordBytes (delta (baseTicks sorted) entry) entry .tagged)
  obtain ⟨last, aside, hall, hlast⟩ :=
    gatherAll_append (Gathering.sound_empty (preambleOf tags sorted) hpool) sorted
      (fun entry hmem => spanned_baseTicks horder hnear hmem)
      (fun entry hmem => ⟨_, preambleOf_name? hmem⟩) []
  rw [List.append_nil] at hall
  refine ⟨last.labelled aside, last.pool, ?_, fun id => ?_⟩
  · rw [decodeTagged, encodeSorted, frontBytes, hpreamble]
    simp only [preambleOf] at hall ⊢
    rw [hall, ← hlast.messages_eq]
  · have hfilled := hlast.filled id
    rw [List.nil_append, valuesOf_map_itemOf] at hfilled
    by_cases hused : ∃ entry ∈ sorted, entry.tag = id
    · obtain ⟨entry, hmem, rfl⟩ := hused
      rwa [preambleOf_name? hmem] at hfilled
    · have hnone : ∀ entry ∈ sorted, entry.tag ≠ id := fun entry hmem htag =>
        hused ⟨entry, hmem, htag⟩
      rw [pairsOf_eq_nil hnone, under_eq_nil hfilled hnone]
      exact Filled.nil _

/-! ## Names for ids -/

theorem exists_entry {result : List (Int32 × Message)}
    (hfilled : ∀ id, Filled (nameOf tags id) (pairsOf id sorted) (under id result))
    {pair : Int32 × Message} (hpair : pair ∈ result) :
    ∃ entry ∈ sorted, entry.tag = pair.1 ∧ pair.2.tag = nameOf tags pair.1 := by
  have hunder : pair.2 ∈ under pair.1 result :=
    List.mem_map.2 ⟨pair, List.mem_filter.2 ⟨hpair, decide_eq_true rfl⟩, rfl⟩
  by_cases hused : ∃ entry ∈ sorted, entry.tag = pair.1
  · obtain ⟨entry, hentry, htag⟩ := hused
    exact ⟨entry, hentry, htag, (hfilled pair.1).tag _ hunder⟩
  · rw [under_eq_nil (hfilled pair.1) fun entry hmem htag => hused ⟨entry, hmem, htag⟩] at hunder
    cases hunder

def contents (messages : List Message) : List (String × TimedValue) :=
  messages.flatMap fun message => message.values.toList.map fun item => (message.tag, item)

def labelledContents (result : List (Int32 × Message)) : List (Int32 × TimedValue) :=
  result.flatMap fun pair => pair.2.values.toList.map fun item => (pair.1, item)

theorem filter_labelledContents (id : Int32) (result : List (Int32 × Message)) :
    (labelledContents result).filter (fun pair => pair.1 = id) =
      ((under id result).flatMap fun message => message.values.toList).map (Prod.mk id) := by
  induction result with
  | nil => rfl
  | cons pair rest ih =>
    rw [labelledContents, List.flatMap_cons, List.filter_append, ← labelledContents, ih]
    by_cases h : pair.1 = id
    · simp [under, h]
    · simp [under, h]

/-- Taken together, the messages hold every entry of the batch once, under the name of its id. -/
theorem contents_perm {result : List (Int32 × Message)}
    (hfilled : ∀ id, Filled (nameOf tags id) (pairsOf id sorted) (under id result)) :
    (contents (result.map Prod.snd)).Perm
      (sorted.map fun entry => (nameOf tags entry.tag, timed entry)) := by
  have hids :
      (labelledContents result).Perm (sorted.map fun entry => (entry.tag, timed entry)) := by
    refine List.perm_iff_count.2 fun pair => ?_
    have hfilter : (labelledContents result).filter (fun other => other.1 = pair.1) =
        (sorted.map fun entry => (entry.tag, timed entry)).filter
          fun other => other.1 = pair.1 := by
      rw [filter_labelledContents, (hfilled pair.1).content, pairsOf, List.filter_map, List.map_map]
      refine List.map_congr_left fun entry hentry => ?_
      have htag : entry.tag = pair.1 := of_decide_eq_true (List.mem_filter.1 hentry).2
      exact congrArg (fun id => (id, timed entry)) htag.symm
    have hcount : ∀ row : List (Int32 × TimedValue),
        (row.filter fun other => other.1 = pair.1).count pair = row.count pair :=
      fun row => List.count_filter (decide_eq_true rfl)
    rw [← hcount, hfilter, hcount]
  have hnames : contents (result.map Prod.snd) =
      (labelledContents result).map fun pair => (nameOf tags pair.1, pair.2) := by
    rw [contents, labelledContents, List.flatMap_map, List.map_flatMap, List.flatMap_def,
      List.flatMap_def]
    congr 1
    refine List.map_congr_left fun pair hpair => ?_
    obtain ⟨entry, -, -, hlabel⟩ := exists_entry hfilled hpair
    rw [hlabel, List.map_map]
    rfl
  rw [hnames]
  have h := hids.map fun pair => (nameOf tags pair.1, pair.2)
  rwa [List.map_map] at h

theorem exists_name {calls : List String} (hsmall : (TagTable.internAll {} calls).2.Small)
    (hid : id = TagTable.untagged ∨ id ∈ (TagTable.internAll {} calls).1) :
    ∃ name, (TagTable.internAll {} calls).2.name? id = some name := by
  rcases hid with rfl | hmem
  · exact ⟨"", (TagTable.sound_empty.internAll calls).name?_untagged⟩
  · obtain ⟨tag, htag⟩ := TagTable.exists_call hmem
    have hname := TagTable.sound_empty.name?_internAll hsmall (tag, id) htag
    exact ⟨tag, hname⟩

theorem nameOf_length (h : ∀ name ∈ tags.names, (Bytes.ofText name).length < 2 ^ 31) (id : Int32) :
    (Bytes.ofText (nameOf tags id)).length < 2 ^ 31 := by
  rw [nameOf]
  cases hname : tags.name? id with
  | none => decide
  | some name => exact h name (Array.mem_of_getElem? (TagTable.name?_eq_some hname).2)

end Payload

end MetricReporting
