import MetricReporting.Proofs.Payload.Grammar
import MetricReporting.Proofs.Payload.Grouping
import MetricReporting.Proofs.Tags.Agreement
import Mathlib.Algebra.GroupWithZero.Nat

/-!
# The dictionary of a batch

A tagged payload explains the ids in its records and no others. Main statement: whatever the
writer's table has come to hold, the dictionary lists each id of the batch once, in ascending order,
with the name that callers were given the id for and the empty name where there is none; and the
payload takes 24 bytes, 8 more than its name for each of these ids, and 16 for each entry. There is
one exactly for the batches whose ticks differ by words.
-/
namespace MetricReporting

/-! ## Ids that were handed out -/

namespace TagTable.Sharing

variable {s : Sharing} {tag name : String} {id : Int32}

theorem Returned.act (h : s.Returned tag id) (act : Act) : (s.act act).Returned tag id := by
  obtain ⟨number, hcall⟩ := List.mem_iff_getElem?.1 h
  cases act with
  | call other => exact List.mem_append_left _ h
  | step stepped => exact List.mem_of_getElem? (returned_step hcall stepped)
  | ask query => exact h

theorem returned_entered_act (h : ∀ tag ∈ s.entered, ∃ id, s.Returned tag id) (act : Act) :
    ∀ tag ∈ (s.act act).entered, ∃ id, (s.act act).Returned tag id := by
  have hold : ∀ tag ∈ s.entered, ∃ id, (s.act act).Returned tag id := fun tag htag =>
    (h tag htag).imp fun id hid => hid.act act
  cases act with
  | call other => exact hold
  | ask query => exact hold
  | step number =>
    have hstep := step_spec s number
    rw [Sharing.act] at hold ⊢
    generalize s.step number = later at hstep hold
    cases hstep with
    | stay | found | missed => exact hold
    | @inserted tag hcall =>
      intro other hother
      rcases List.mem_append.1 hother with hbefore | hlast
      · exact hold other hbefore
      · obtain rfl := List.mem_singleton.1 hlast
        have hlt := (List.getElem?_eq_some_iff.1 hcall).1
        exact ⟨_, List.mem_of_getElem? (getElem?_enter hlt other _)⟩

theorem returned_entered_run (h : ∀ tag ∈ s.entered, ∃ id, s.Returned tag id) (acts : List Act) :
    ∀ tag ∈ (s.run acts).entered, ∃ id, (s.run acts).Returned tag id := by
  induction acts generalizing s with
  | nil => exact h
  | cons act acts ih => exact ih (returned_entered_act h act)

/-- The ids with a name are zero and those that callers were given, each for its name. -/
theorem name?_run_iff (acts : List Act) (hsmall : (run {} acts).table.Small) :
    (run {} acts).table.name? id = some name ↔
      id = untagged ∧ name = "" ∨ (run {} acts).Returned name id := by
  have h : (run {} acts).Sound := sound_empty.run acts
  have hgiven : ∀ {tag id}, (run {} acts).Returned tag id →
      (run {} acts).table.name? id = some tag :=
    fun hcall => h.table.name?_of_lookup? hsmall (h.calls _ hcall)
  constructor
  · intro hname
    by_cases hid : id = untagged
    · rw [hid, h.table.name?_untagged] at hname
      exact Or.inl ⟨hid, (Option.some.inj hname).symm⟩
    · have hne : name ≠ "" := fun hempty =>
        hid (h.table.name?_injective hsmall hname (hempty ▸ h.table.name?_untagged))
      have hmem : name ∈ (run {} acts).table.names.toList :=
        Array.mem_toList_iff.2 (Array.mem_of_getElem? (name?_eq_some hname).2)
      obtain ⟨other, hother⟩ := returned_entered_run (s := {}) (List.forall_mem_nil _) acts name
        ((h.mem_names_iff hne).1 hmem)
      rw [h.table.name?_injective hsmall hname (hgiven hother)]
      exact Or.inr hother
  · rintro (⟨rfl, rfl⟩ | hcall)
    · exact h.table.name?_untagged
    · exact hgiven hcall

theorem map_tag_act (s : Sharing) (act : Act) : ∀ tag ∈ (s.act act).calls.map Call.tag,
    tag ∈ s.calls.map Call.tag ∨ act = .call tag := by
  intro tag htag
  cases act with
  | ask query => exact Or.inl htag
  | call other =>
    rw [Sharing.act, List.map_append, List.mem_append] at htag
    exact htag.imp id fun hlast => congrArg Act.call (List.mem_singleton.1 hlast).symm
  | step number =>
    refine Or.inl ?_
    have hstep := step_spec s number
    rw [Sharing.act] at htag
    generalize s.step number = later at hstep htag
    cases hstep with
    | stay => exact htag
    | found hcall | missed hcall | inserted hcall => exact map_tag_enter hcall ▸ htag

theorem map_tag_run (s : Sharing) (acts : List Act) : ∀ tag ∈ (s.run acts).calls.map Call.tag,
    tag ∈ s.calls.map Call.tag ∨ .call tag ∈ acts := by
  induction acts generalizing s with
  | nil => exact fun tag htag => Or.inl htag
  | cons act acts ih =>
    intro tag htag
    rcases ih (s.act act) tag htag with hnow | hlater
    · refine (map_tag_act s act tag hnow).imp_right fun hact => ?_
      rw [hact]
      exact List.mem_cons_self
    · exact Or.inr (List.mem_cons_of_mem act hlater)

theorem names_run_length {acts : List Act}
    (hnames : ∀ tag, .call tag ∈ acts → (Bytes.ofText tag).length < 2 ^ 31) :
    ∀ name ∈ (run {} acts).table.names, (Bytes.ofText name).length < 2 ^ 31 := by
  intro name hname
  have h : (run {} acts).Sound := sound_empty.run acts
  by_cases hempty : name = ""
  · rw [hempty]
    decide
  · have hentered := (h.mem_names_iff hempty).1 (Array.mem_toList_iff.2 hname)
    rcases map_tag_run {} acts name (h.entered name hentered).2 with hnone | hcall
    · cases hnone
    · exact hnames name hcall

end TagTable.Sharing

namespace Payload

variable {tags : TagTable} {entries others sorted : List Entry} {id : Int32}

/-! ## The ids of a batch -/

theorem tagIds_ascending (entries : List Entry) :
    (tagIds entries).Pairwise fun a b => a < b :=
  sortedIds_ascending (entries.map Entry.tag)

theorem eq_of_ascending {ids others : List Int32} (hids : ids.Pairwise fun a b => a < b)
    (hothers : others.Pairwise fun a b => a < b) (hsame : ∀ id, id ∈ ids ↔ id ∈ others) :
    ids = others := by
  have hperm : ids.Perm others :=
    (List.perm_ext_iff_of_nodup (hids.imp Int32.ne_of_lt) (hothers.imp Int32.ne_of_lt)).2 hsame
  refine hperm.eq_of_pairwise (fun a b _ _ hlt hgt => ?_) hids hothers
  exact absurd (Int32.lt_trans hlt hgt) Int32.lt_irrefl

theorem tagIds_eq_iff : tagIds entries = tagIds others ↔
    ∀ id, (∃ entry ∈ entries, entry.tag = id) ↔ ∃ entry ∈ others, entry.tag = id := by
  simp only [← mem_tagIds]
  constructor
  · intro hsame id
    rw [hsame]
  · exact eq_of_ascending (tagIds_ascending entries) (tagIds_ascending others)

/-- A dictionary lists the ids of a batch, in order and each with the name that it has. -/
structure Explains (tags : TagTable) (entries : List Entry) (dictionary : List (Int32 × String)) :
    Prop where
  ascending : dictionary.Pairwise fun a b => a.1 < b.1
  used : ∀ id, (∃ name, (id, name) ∈ dictionary) ↔ ∃ entry ∈ entries, entry.tag = id
  named : ∀ item ∈ dictionary, ∀ name, tags.name? item.1 = some name → item.2 = name
  unnamed : ∀ item ∈ dictionary, tags.name? item.1 = none → item.2 = ""

theorem preambleOf_explains (tags : TagTable) (sorted : List Entry) :
    Explains tags sorted (preambleOf tags sorted).dictionary where
  ascending := List.pairwise_map.2 (tagIds_ascending sorted)
  used id := by
    rw [← mem_tagIds]
    constructor
    · rintro ⟨name, hitem⟩
      obtain ⟨other, hother, hsame⟩ := List.mem_map.1 hitem
      obtain ⟨rfl, -⟩ := Prod.mk.inj hsame
      exact hother
    · exact fun hid => ⟨_, List.mem_map_of_mem hid⟩
  named item hitem name hname := by
    obtain ⟨id, -, rfl⟩ := List.mem_map.1 hitem
    rw [nameOf, hname, Option.getD_some]
  unnamed item hitem hnone := by
    obtain ⟨id, -, rfl⟩ := List.mem_map.1 hitem
    rw [nameOf, hnone, Option.getD_none]

section Explains

variable {dictionary other : List (Int32 × String)}

theorem Explains.of_perm (h : Explains tags sorted dictionary) (hperm : sorted.Perm entries) :
    Explains tags entries dictionary where
  ascending := h.ascending
  used id := by simp only [h.used, hperm.mem_iff]
  named := h.named
  unnamed := h.unnamed

theorem Explains.name_eq (h : Explains tags entries dictionary) {item : Int32 × String}
    (hitem : item ∈ dictionary) : item.2 = nameOf tags item.1 := by
  rw [nameOf]
  cases hname : tags.name? item.1 with
  | none => exact h.unnamed item hitem hname
  | some name => exact h.named item hitem name hname

theorem Explains.map_ids (h : Explains tags entries dictionary) :
    dictionary = (dictionary.map Prod.fst).map fun id => (id, nameOf tags id) := by
  rw [List.map_map]
  refine (List.map_id dictionary).symm.trans (List.map_congr_left fun item hitem => ?_)
  exact Prod.ext rfl (h.name_eq hitem)

theorem Explains.unique (h : Explains tags entries dictionary) (h' : Explains tags entries other) :
    dictionary = other := by
  have hids : dictionary.map Prod.fst = other.map Prod.fst := by
    refine eq_of_ascending (List.pairwise_map.2 h.ascending) (List.pairwise_map.2 h'.ascending)
      fun id => ?_
    have hsame := (h.used id).trans (h'.used id).symm
    simpa only [List.mem_map, Prod.exists, exists_eq_right, exists_and_right] using hsame
  rw [h.map_ids, h'.map_ids, hids]

end Explains

/-! ## Payloads in parts -/

def taggedFormOf (tags : TagTable) (sorted : List Entry) : TaggedForm :=
  ⟨baseTicks sorted, (preambleOf tags sorted).dictionary,
    sorted.map fun entry => ⟨delta (baseTicks sorted) entry, entry.tag, entry.value⟩⟩

theorem taggedFormOf_start (tags : TagTable) (sorted : List Entry) :
    (taggedFormOf tags sorted).start = preambleOf tags sorted := by
  rw [TaggedForm.start, taggedFormOf, List.length_map]
  rfl

theorem encodeSorted_tagged (tags : TagTable) (sorted : List Entry) :
    encodeSorted tags sorted .tagged = (taggedFormOf tags sorted).bytes := by
  rw [TaggedForm.bytes, taggedFormOf_start, Preamble.bytes]
  simp only [encodeSorted, frontBytes, dictionary, taggedFormOf, preambleOf, List.length_map,
    List.flatMap_map, List.append_assoc]
  rfl

theorem preambleOf_valid (hcount : sorted.length < 2 ^ 31)
    (hnames : ∀ id, (Bytes.ofText (nameOf tags id)).length < 2 ^ 31) :
    (preambleOf tags sorted).Valid where
  dictionary := by
    rw [preambleOf, List.length_map]
    exact Nat.lt_of_le_of_lt (tagIds_length sorted) hcount
  names item hitem := by
    obtain ⟨id, -, rfl⟩ := List.mem_map.1 hitem
    exact hnames id
  count := hcount

/-! ## Lengths -/

theorem countBytes_length (n : Nat) : (countBytes n).length = 4 :=
  Bytes.ofInt32_length _

theorem headerBytes_length (base : Int64) : (headerBytes base).length = 16 := by
  rw [headerBytes, List.length_append, Bytes.ofInt64_length, Bytes.ofInt64_length]

theorem dictionaryBytes_length (item : Int32 × String) :
    (dictionaryBytes item).length = 8 + (Bytes.ofText item.2).length := by
  rw [dictionaryBytes, List.length_append, List.length_append, Bytes.ofInt32_length,
    countBytes_length]

theorem TaggedRecord.bytes_length (record : TaggedRecord) : record.bytes.length = 16 := by
  rw [TaggedRecord.bytes, List.length_append, List.length_append, Bytes.ofInt32_length,
    Bytes.ofInt32_length, Bytes.ofInt64_length]

theorem TaggedForm.bytes_length (form : TaggedForm) : form.bytes.length =
    24 + (form.dictionary.map fun item => 8 + (Bytes.ofText item.2).length).sum +
      16 * form.records.length := by
  have hrecords : (form.records.flatMap TaggedRecord.bytes).length = 16 * form.records.length := by
    rw [List.length_flatMap, funext TaggedRecord.bytes_length, List.map_const',
      List.sum_replicate_nat, Nat.mul_comm]
  have hitems : (form.dictionary.flatMap dictionaryBytes).length =
      (form.dictionary.map fun item => 8 + (Bytes.ofText item.2).length).sum := by
    rw [List.length_flatMap, funext dictionaryBytes_length]
  rw [TaggedForm.bytes, List.length_append, hrecords, Preamble.bytes, List.length_append,
    List.length_append, List.length_append, headerBytes_length, countBytes_length,
    countBytes_length, TaggedForm.start, hitems]
  omega

/-! ## What is written of a batch -/

/-- Tagged payloads stand for themselves, whatever callers have put into the table and whichever ids
the entries carry. Where two ticks of the batch lie further apart than a word can tell, the writer
panics, and nowhere else. Otherwise the batch is left in ascending order of ticks and its first
ticks are the base; the dictionary explains the batch and nothing else, so every record's id is in
it and an id of an earlier batch is not; each item has the name that a caller was given the id for,
as long as every place in the table is an id; and the number of bytes appended is that of these
parts. -/
theorem tagged_selfContained {acts : List TagTable.Sharing.Act} {entries : List Entry}
    (hnames : ∀ tag, .call tag ∈ acts → (Bytes.ofText tag).length < 2 ^ 31)
    (hcount : entries.length < 2 ^ 31) (buffer : Bytes) :
    let s := TagTable.Sharing.run {} acts
    (write? .tagged s.table entries buffer = none ↔ ¬ Measurable entries) ∧
    (Measurable entries → ∃ sorted bytes, Entry.Ordering entries sorted ∧
      encodeSorted? s.table sorted .tagged = some bytes ∧
      write? .tagged s.table entries buffer = some (sorted, buffer ++ bytes)) ∧
    (Measurable entries → ∀ sorted, Entry.Ordering entries sorted →
      ∃ form : TaggedForm, encodeSorted? s.table sorted .tagged = some form.bytes ∧
        preamble form.bytes = .ok (form.start, form.records.flatMap TaggedRecord.bytes) ∧
        (sorted.head?.map Entry.ticks).getD 0 = form.base ∧
        (∀ entry ∈ entries, form.base ≤ entry.ticks) ∧
        Explains s.table entries form.dictionary ∧
        form.records = sorted.map (fun entry => ⟨delta form.base entry, entry.tag, entry.value⟩) ∧
        (∀ record ∈ form.records, form.start.Names record.id) ∧
        form.bytes.length =
          24 + (form.dictionary.map fun item => 8 + (Bytes.ofText item.2).length).sum +
            16 * entries.length ∧
        (s.table.size < 2 ^ 31 → ∀ item ∈ form.dictionary,
          (∀ tag, s.Returned tag item.1 → item.2 = tag) ∧
          ((∀ tag, ¬ s.Returned tag item.1) → item.2 = ""))) := by
  intro s
  have hbytes : Measurable entries → ∀ sorted, Entry.Ordering entries sorted →
      encodeSorted? s.table sorted .tagged = some (taggedFormOf s.table sorted).bytes := by
    intro hmeasurable sorted horder
    rw [encodeSorted?_of_measurable s.table .tagged horder hmeasurable, encodeSorted_tagged]
  refine ⟨write?_eq_none_iff buffer, fun hmeasurable => ?_, fun hmeasurable sorted horder => ?_⟩
  · have hleft := Entry.sortByTicks_ordering entries
    exact ⟨_, _, hleft, hbytes hmeasurable _ hleft,
      write?_eq_some buffer (hbytes hmeasurable _ hleft)⟩
  have hsound : s.Sound := TagTable.Sharing.sound_empty.run acts
  have hexplains := (preambleOf_explains s.table sorted).of_perm horder.perm
  have hvalid := preambleOf_valid (horder.perm.length_eq ▸ hcount)
    (nameOf_length (TagTable.Sharing.names_run_length hnames))
  refine ⟨taggedFormOf s.table sorted, hbytes hmeasurable sorted horder, ?_, ?_,
    fun entry hentry => baseTicks_le horder.ascending (horder.perm.mem_iff.2 hentry), hexplains,
    rfl, fun record hrecord => ?_, ?_, fun hsize item hitem => ?_⟩
  · rw [← taggedFormOf_start] at hvalid
    exact preamble_reads.takes _ hvalid _
  · cases sorted with
    | nil | cons => rfl
  · obtain ⟨entry, hentry, rfl⟩ := List.mem_map.1 hrecord
    exact (hexplains.used entry.tag).2 ⟨entry, horder.perm.mem_iff.1 hentry, rfl⟩
  · rw [TaggedForm.bytes_length, taggedFormOf, List.length_map, horder.perm.length_eq]
  · have hsmall : s.table.Small := by
      have hpos := hsound.table.size_pos
      unfold TagTable.size at hsize
      unfold TagTable.Small
      omega
    have hgiven := fun name => @TagTable.Sharing.name?_run_iff name item.1 acts hsmall
    refine ⟨fun tag hcall => hexplains.named item hitem tag ((hgiven tag).2 (Or.inr hcall)),
      fun hnone => ?_⟩
    cases hname : s.table.name? item.1 with
    | none => exact hexplains.unnamed item hitem hname
    | some name =>
      rw [hexplains.named item hitem name hname]
      rcases (hgiven name).1 hname with ⟨-, hempty⟩ | hcall
      · exact hempty
      · exact absurd hcall (hnone name)

def strangeBatch : List Entry :=
  [⟨30, 3, 2⟩, ⟨10, 1, -5⟩, ⟨20, 2, 2⟩, ⟨10, 4, 0⟩, ⟨5, 7, 9⟩]

theorem tagged_selfContained_strangeIds :
    let s := TagTable.Sharing.run {} [.call "a", .call "bc", .step 0, .step 1, .step 0, .step 1]
    ∃ sorted form, Entry.Ordering strangeBatch sorted ∧
      write? .tagged s.table strangeBatch [9] = some (sorted, [9] ++ TaggedForm.bytes form) ∧
      form.dictionary = [(-5, ""), (0, ""), (2, "bc"), (9, "")] ∧ form.bytes.length = 138 := by
  intro s
  obtain ⟨-, hwritten, hforms⟩ := @tagged_selfContained
    [.call "a", .call "bc", .step 0, .step 1, .step 0, .step 1] strangeBatch
    (fun tag htag => by
      obtain rfl | rfl : tag = "a" ∨ tag = "bc" := by simpa using htag
      · decide
      · decide) (by decide) [9]
  have hmeasurable : Measurable strangeBatch := by
    unfold Measurable
    decide
  obtain ⟨sorted, bytes, horder, hbytes, hwrite⟩ := hwritten hmeasurable
  obtain ⟨form, hform, -, -, -, hexplains, -, -, hlength, -⟩ := hforms hmeasurable sorted horder
  obtain rfl : bytes = form.bytes := Option.some.inj (hbytes.symm.trans hform)
  have hnames : ∀ item ∈ [(-5, ""), (0, ""), (2, "bc"), (9, "")],
      nameOf s.table item.1 = item.2 := by
    decide
  have hlisted : Explains s.table strangeBatch [(-5, ""), (0, ""), (2, "bc"), (9, "")] := by
    refine ⟨by decide, fun id => ?_, fun item hitem name hname => ?_, fun item hitem hnone => ?_⟩
    · simp only [strangeBatch, List.mem_cons, List.not_mem_nil, or_false, Prod.mk.injEq]
      grind
    · rw [← hnames item hitem, nameOf, hname, Option.getD_some]
    · rw [← hnames item hitem, nameOf, hnone, Option.getD_none]
  have hdictionary := hexplains.unique hlisted
  refine ⟨sorted, form, horder, hwrite, hdictionary, ?_⟩
  rw [hlength, hdictionary]
  decide

def farBatch : List Entry :=
  [⟨0, 1, 0⟩, ⟨Int64.minValue, 2, 0⟩]

/-- A batch of which no payload is made. -/
theorem tagged_unwritten :
    farBatch.length < 2 ^ 31 ∧ ∀ buffer, write? .tagged {} farBatch buffer = none := by
  refine ⟨by decide, fun buffer => (write?_eq_none_iff buffer).2 ?_⟩
  unfold Measurable
  decide

end Payload

end MetricReporting
