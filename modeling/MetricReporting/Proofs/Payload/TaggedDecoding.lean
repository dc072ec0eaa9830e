import MetricReporting.Proofs.Payload.Grouping

/-!
# What the tagged decoder accepts

The decoder reads, looks ids up and gathers in one pass over bytes that nobody vouches for. Main
statement: it accepts the bytes that begin with a well-formed payload and no others, reports the
first check that fails, and what it gives out are the runs of all values of the payload.
-/
namespace MetricReporting.Payload

namespace TaggedForm

/-- Of several items of the dictionary for one id the last one counts. -/
def nameOf (form : TaggedForm) (id : Int32) : String :=
  (((form.dictionary.filter fun item => item.1 = id).getLast?).map Prod.snd).getD ""

def messages (form : TaggedForm) : List Message :=
  (groupedRuns form.items).map fun run => ⟨form.nameOf run.1, run.2.toArray⟩

theorem messages_eq (form : TaggedForm) :
    form.messages = (groupedRuns form.items).map (messageOf form.start) := by
  refine List.map_congr_left fun run _ => ?_
  rw [messageOf, Preamble.name?_eq_getLast?, nameOf]
  rfl

end TaggedForm

variable {start : Preamble} {items : List TaggedItem} {state : Gathering} {pool : Pool}
  {payload rest : Bytes} {error : DecodeError}

theorem records_total (start : Preamble) (n : Nat) (bytes : Bytes) :
    (∃ (error : DecodeError) (before : List TaggedRecord) (rest : Bytes), before.length < n ∧
      (∀ record ∈ before, record.Valid start) ∧
      bytes = before.flatMap TaggedRecord.bytes ++ rest ∧ RecordRejected start rest error) ∨
    ∃ (records : List TaggedRecord) (rest : Bytes), records.length = n ∧
      (∀ record ∈ records, record.Valid start) ∧
      bytes = records.flatMap TaggedRecord.bytes ++ rest := by
  induction n generalizing bytes with
  | zero => exact Or.inr ⟨[], bytes, rfl, nofun, rfl⟩
  | succ n ih =>
    rcases (taggedItem_reads start.base).total bytes with
      ⟨error, hbad⟩ | ⟨record, rest, hticks, rfl⟩
    · exact Or.inl ⟨error, [], bytes, Nat.succ_pos n, nofun, rfl, .field hbad⟩
    by_cases hnamed : start.Names record.id
    · rcases ih rest with ⟨error, before, rest, hlt, hvalid, rfl, hbad⟩ |
        ⟨records, rest, rfl, hvalid, rfl⟩
      · refine Or.inl ⟨error, record :: before, rest, Nat.succ_lt_succ hlt,
          List.forall_mem_cons.2 ⟨⟨hticks, hnamed⟩, hvalid⟩, ?_, hbad⟩
        rw [List.flatMap_cons, List.append_assoc]
      · refine Or.inr ⟨record :: records, rest, rfl,
          List.forall_mem_cons.2 ⟨⟨hticks, hnamed⟩, hvalid⟩, ?_⟩
        rw [List.flatMap_cons, List.append_assoc]
    · exact Or.inl ⟨_, [], _, Nat.succ_pos n, nofun, rfl, .unknown hticks hnamed⟩

/-- All bytes are either a tagged payload, with whatever comes after it, or rejected. -/
theorem rejected_or_form (payload : Bytes) :
    (∃ error, Rejected payload error) ∨
      ∃ (form : TaggedForm) (rest : Bytes), form.Valid ∧ payload = form.bytes ++ rest := by
  rcases preamble_reads.total payload with ⟨error, hbad⟩ | ⟨start, bytes, hstart, rfl⟩
  · exact Or.inl ⟨error, .preamble hbad⟩
  rcases records_total start start.count bytes with
    ⟨error, before, rest, hlt, hvalid, rfl, hbad⟩ | ⟨records, rest, hcount, hvalid, rfl⟩
  · exact Or.inl ⟨error, .record hstart hlt hvalid hbad⟩
  · obtain ⟨base, dictionary, count⟩ := start
    obtain rfl : records.length = count := hcount
    refine Or.inr ⟨⟨base, dictionary, records⟩, rest, ⟨hstart, hvalid⟩, ?_⟩
    rw [TaggedForm.bytes, List.append_assoc]
    rfl

namespace Gathering

theorem Grouped.gatherAll_takes (h : Grouped start items state) {records : List TaggedRecord}
    (hvalid : ∀ record ∈ records, record.Valid start) (rest : Bytes) :
    ∃ last, gatherAll start records.length (records.flatMap TaggedRecord.bytes ++ rest) state =
        (last, none) ∧
      Grouped start (items ++ records.map (TaggedRecord.item start.base)) last := by
  induction records generalizing items state with
  | nil =>
    rw [List.map_nil, List.append_nil]
    exact ⟨state, rfl, h⟩
  | cons record records ih =>
    obtain ⟨hhead, htail⟩ := List.forall_mem_cons.1 hvalid
    have htakes := (taggedItem_reads start.base).takes record hhead.ticks
      (records.flatMap TaggedRecord.bytes ++ rest)
    obtain ⟨next, hgather, hnext⟩ : ∃ next, state.gather start (record.item start.base) = .ok next ∧
        Grouped start (items ++ [record.item start.base]) next := h.gather hhead.named
    obtain ⟨last, hall, hlast⟩ := ih hnext htail
    refine ⟨last, ?_, ?_⟩
    · rw [List.flatMap_cons, List.append_assoc, List.length_cons, gatherAll, htakes]
      simp only [hgather]
      exact hall
    · rwa [List.map_cons, List.append_cons]

theorem Grouped.gatherAll_reports (h : Grouped start items state) {before : List TaggedRecord}
    {n : Nat} (hlt : before.length < n) (hvalid : ∀ record ∈ before, record.Valid start)
    (hbad : RecordRejected start rest error) :
    (gatherAll start n (before.flatMap TaggedRecord.bytes ++ rest) state).2 = some error := by
  induction before generalizing items state n with
  | nil =>
    obtain ⟨m, rfl⟩ := Nat.exists_eq_succ_of_ne_zero (Nat.ne_of_gt hlt)
    cases hbad with
    | field hfield =>
      rw [List.flatMap_nil, List.nil_append, gatherAll,
        (taggedItem_reads start.base).reports rest error hfield]
    | @unknown record rest hticks hunknown =>
      have hgather : state.gather start (record.item start.base) = .error (.unknownTag record.id) :=
        h.gather_unknown hunknown
      rw [List.flatMap_nil, List.nil_append, gatherAll,
        (taggedItem_reads start.base).takes record hticks rest]
      simp only [hgather]
  | cons record before ih =>
    obtain ⟨hhead, htail⟩ := List.forall_mem_cons.1 hvalid
    obtain ⟨m, rfl⟩ := Nat.exists_eq_succ_of_ne_zero (Nat.ne_zero_of_lt hlt)
    have htakes := (taggedItem_reads start.base).takes record hhead.ticks
      (before.flatMap TaggedRecord.bytes ++ rest)
    obtain ⟨next, hgather, hnext⟩ : ∃ next, state.gather start (record.item start.base) = .ok next ∧
        Grouped start (items ++ [record.item start.base]) next := h.gather hhead.named
    rw [List.flatMap_cons, List.append_assoc, gatherAll, htakes]
    simp only [hgather]
    exact ih hnext (Nat.lt_of_succ_lt_succ hlt) htail

end Gathering

theorem decodeTagged_form (hpool : pool.Clean) {form : TaggedForm} (hvalid : form.Valid)
    (rest : Bytes) : (decodeTagged (form.bytes ++ rest) pool).1 = .ok form.messages := by
  have hstart := preamble_reads.takes form.start hvalid.start
    (form.records.flatMap TaggedRecord.bytes ++ rest)
  obtain ⟨last, hall, hlast⟩ :=
    (Gathering.grouped_empty form.start hpool).gatherAll_takes hvalid.records rest
  have hcount : form.start.count = form.records.length := rfl
  rw [decodeTagged, TaggedForm.bytes, List.append_assoc, hstart]
  simp only [id_eq, hcount, hall]
  rw [hlast.messages_eq, form.messages_eq]
  rfl

theorem decodeTagged_rejected (hpool : pool.Clean) (h : Rejected payload error) :
    (decodeTagged payload pool).1 = .error error := by
  cases h with
  | preamble hbad =>
    rw [decodeTagged, preamble_reads.reports payload error hbad]
  | @record start before rest _ hstart hlt hvalid hbad =>
    have htakes := preamble_reads.takes start hstart
      (before.flatMap TaggedRecord.bytes ++ rest)
    have hreports := (Gathering.grouped_empty start hpool).gatherAll_reports hlt hvalid hbad
    rw [decodeTagged, htakes]
    simp only [id_eq]
    split
    · rename_i hall
      rw [hall] at hreports
      cases hreports
    · rename_i hall
      rw [hall] at hreports
      rw [Option.some.inj hreports]

/-- Exactly the well-formed payloads are decoded, and any bytes may follow them; other bytes are
rejected with the first check that fails. What is decoded depends on the parts of the payload only:
per id the values in their order cut into runs of 512, closed runs first. -/
theorem decodeTagged_exact (hpool : pool.Reachable) (payload : Bytes) :
    (∀ error, (decodeTagged payload pool).1 = .error error ↔ Rejected payload error) ∧
    (∀ messages, (decodeTagged payload pool).1 = .ok messages ↔
      ∃ (form : TaggedForm) (rest : Bytes), form.Valid ∧ payload = form.bytes ++ rest ∧
        messages = form.messages) ∧
    ∀ (form : TaggedForm) (rest : Bytes), form.Valid → payload = form.bytes ++ rest →
      (∀ message ∈ form.messages, 1 ≤ message.values.size ∧ message.values.size ≤ 512) ∧
      (∀ id, runsUnder id (groupedRuns form.items) = runsOf (valuesOf id form.items) ∧
        (runsUnder id (groupedRuns form.items)).flatten = valuesOf id form.items) ∧
      (ascendingIds form.items).Pairwise (fun a b => a < b) ∧
      ∀ id, id ∈ ascendingIds form.items ↔ ∃ record ∈ form.records, record.id = id := by
  have hclean := hpool.clean
  refine ⟨fun error => ⟨fun h => ?_, decodeTagged_rejected hclean⟩,
    fun messages => ⟨fun h => ?_, ?_⟩,
    fun form rest _ _ => ⟨fun message hmessage => ?_, fun id => ?_, ascendingIds_ascending _,
      fun id => ?_⟩⟩
  · rcases rejected_or_form payload with ⟨found, hfound⟩ | ⟨form, rest, hvalid, rfl⟩
    · rw [decodeTagged_rejected hclean hfound, Except.error.injEq] at h
      exact h ▸ hfound
    · rw [decodeTagged_form hclean hvalid rest] at h
      cases h
  · rcases rejected_or_form payload with ⟨found, hfound⟩ | ⟨form, rest, hvalid, rfl⟩
    · rw [decodeTagged_rejected hclean hfound] at h
      cases h
    · rw [decodeTagged_form hclean hvalid rest, Except.ok.injEq] at h
      exact ⟨form, rest, hvalid, rfl, h.symm⟩
  · rintro ⟨form, rest, hvalid, rfl, rfl⟩
    exact decodeTagged_form hclean hvalid rest
  · obtain ⟨run, hrun, rfl⟩ := List.mem_map.1 hmessage
    exact length_of_mem_groupedRuns hrun
  · rw [runsUnder_groupedRuns]
    exact ⟨rfl, flatten_runsOf _⟩
  · rw [mem_ascendingIds, valuesOf_ne_nil_iff, TaggedForm.items]
    simp [TaggedRecord.item]

def hostileForm : TaggedForm where
  base := 100
  dictionary := [(1, "a"), (2, "b"), (1, "b")]
  records := [⟨-5, 2, 20⟩, ⟨0, 1, 10⟩, ⟨7, 2, 21⟩]

/-- After the well-formed payload anything may come; cut off in its last record it is rejected, and
so it is with a record of an id that the dictionary does not have. -/
theorem decodeTagged_exact_hostile :
    let pool := Pool.release {} ⟨"old", #[⟨1, 1⟩]⟩
    (decodeTagged (hostileForm.bytes ++ [7, 7]) pool).1 = .ok hostileForm.messages ∧
      hostileForm.nameOf 1 = "b" ∧ hostileForm.nameOf 2 = "b" ∧
      (∀ message ∈ hostileForm.messages, 1 ≤ message.values.size ∧ message.values.size ≤ 512) ∧
      (decodeTagged hostileForm.bytes.dropLast pool).1 = .error (.truncated .value 8 7) ∧
      (decodeTagged (hostileForm.start.bytes ++ TaggedRecord.bytes ⟨0, 3, 30⟩) pool).1 =
        .error (.unknownTag 3) := by
  intro pool
  have hpool : pool.Reachable := Pool.Reachable.new.release _
  have hstart : hostileForm.start.Valid := ⟨by decide, by decide, by decide⟩
  have hone : hostileForm.start.Names 1 := ⟨"a", by decide⟩
  have htwo : hostileForm.start.Names 2 := ⟨"b", by decide⟩
  have hvalid : hostileForm.Valid := by
    refine ⟨hstart, ?_⟩
    simp only [hostileForm, List.forall_mem_cons]
    exact ⟨⟨by decide, htwo⟩, ⟨by decide, hone⟩, ⟨by decide, htwo⟩, nofun⟩
  obtain ⟨-, haccepts, hruns⟩ := decodeTagged_exact hpool (hostileForm.bytes ++ [7, 7])
  refine ⟨(haccepts _).2 ⟨hostileForm, [7, 7], hvalid, rfl, rfl⟩, by decide, by decide,
    (hruns hostileForm [7, 7] hvalid rfl).1, ?_, ?_⟩
  · refine ((decodeTagged_exact hpool _).1 _).2 ?_
    have hbad : RecordRejected hostileForm.start
        (Bytes.ofInt32 7 ++ (Bytes.ofInt32 2 ++ (Bytes.ofInt64 21).dropLast))
        (.truncated .value 8 7) := .field (.value (by decide) (by decide))
    have hrest : ∀ record ∈ hostileForm.records.take 2, record.Valid hostileForm.start :=
      fun record hrecord => hvalid.records record (List.mem_of_mem_take hrecord)
    exact .record hstart (by decide) hrest hbad
  · refine ((decodeTagged_exact hpool _).1 _).2 ?_
    have hbad : RecordRejected hostileForm.start (TaggedRecord.bytes ⟨0, 3, 30⟩ ++ [])
        (.unknownTag 3) := .unknown (by decide) (by
      rintro ⟨name, hname⟩
      simp [hostileForm, TaggedForm.start] at hname)
    rw [List.append_nil] at hbad
    have hnone : ∀ record ∈ ([] : List TaggedRecord), record.Valid hostileForm.start := nofun
    exact .record hstart (by decide) hnone hbad

end MetricReporting.Payload
