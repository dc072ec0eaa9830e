import MetricReporting.Proofs.Payload.Grammar

/-!
# Payloads cut short

What a reader takes off is a front of its bytes: the same value comes from every row of bytes with
that front, and less than the front is found to be truncated, whichever field the cut is in. This
holds of single fields and passes on to readers that are put together from them. Main statement:
what follows the bytes that a decoder reads of a good payload is of no account, and a payload that
ends before them is truncated and nothing else.
-/
namespace MetricReporting.Payload

/-- The bytes are rejected because a field needs more of them than are left. -/
def CutOff {α : Type} (outcome : Except DecodeError α) : Prop :=
  ∃ field needed remaining, outcome = .error (.truncated field needed remaining) ∧
    remaining < needed

namespace Reader

variable {α β : Type} {reader first : Reader α} {next : α → Reader β}
    {front front' bytes rest : Bytes}
  {a : α} {b : β}

/-- The reader takes this front off, whatever follows it, and does with no less. -/
structure TakesFront (reader : Reader α) (front : Bytes) (a : α) : Prop where
  takes : ∀ more, reader (front ++ more) = .ok (a, more)
  cutOff : ∀ k < front.length, CutOff (reader (front.take k))

/-- All that the reader takes off is fronts. -/
def TakesFronts (reader : Reader α) : Prop :=
  ∀ bytes a rest, reader bytes = .ok (a, rest) →
    ∃ front, bytes = front ++ rest ∧ TakesFront reader front a

theorem bind_eq_ok (h : (first >>= next) bytes = .ok (b, rest)) :
    ∃ a middle, first bytes = .ok (a, middle) ∧ next a middle = .ok (b, rest) := by
  cases hfirst : first bytes with
  | error error =>
    rw [bind_error hfirst] at h
    cases h
  | ok found =>
    obtain ⟨a, middle⟩ := found
    rw [bind_ok hfirst] at h
    exact ⟨a, middle, rfl, h⟩

theorem cutOff_bind (h : CutOff (first bytes)) : CutOff ((first >>= next) bytes) := by
  obtain ⟨field, needed, remaining, herror, hlt⟩ := h
  exact ⟨field, needed, remaining, bind_error herror, hlt⟩

theorem cut_append (front front' : Bytes) {k : Nat} (hk : k < (front ++ front').length) :
    k < front.length ∧ (front ++ front').take k = front.take k ∨
      ∃ j < front'.length, (front ++ front').take k = front ++ front'.take j := by
  rw [List.length_append] at hk
  rcases Nat.lt_or_ge k front.length with hlt | hge
  · exact Or.inl ⟨hlt, List.take_append_of_le_length (Nat.le_of_lt hlt)⟩
  · refine Or.inr ⟨k - front.length, by omega, ?_⟩
    rw [List.take_append, List.take_of_length_le hge]

theorem TakesFront.bind (hfirst : TakesFront first front a) (hnext : TakesFront (next a) front' b) :
    TakesFront (first >>= next) (front ++ front') b where
  takes more := by
    rw [List.append_assoc, bind_ok (hfirst.takes _)]
    exact hnext.takes more
  cutOff k hk := by
    rcases cut_append front front' hk with ⟨hlt, htake⟩ | ⟨j, hj, htake⟩
    · rw [htake]
      exact cutOff_bind (hfirst.cutOff k hlt)
    · rw [htake, bind_ok (hfirst.takes _)]
      exact hnext.cutOff j hj

theorem TakesFronts.bind (hfirst : TakesFronts first) (hnext : ∀ a, TakesFronts (next a)) :
    TakesFronts (first >>= next) := by
  intro bytes b rest h
  obtain ⟨a, middle, hread, hread'⟩ := bind_eq_ok h
  obtain ⟨front, rfl, hfront⟩ := hfirst bytes a middle hread
  obtain ⟨front', rfl, hfront'⟩ := hnext a middle b rest hread'
  exact ⟨front ++ front', (List.append_assoc _ _ _).symm, hfront.bind hfront'⟩

theorem takesFronts_pure (a : α) : TakesFronts (pure a : Reader α) := by
  intro bytes found rest h
  obtain ⟨rfl, rfl⟩ : a = found ∧ bytes = rest := by
    have hpair : (a, bytes) = (found, rest) := Except.ok.inj h
    exact ⟨congrArg Prod.fst hpair, congrArg Prod.snd hpair⟩
  exact ⟨[], rfl, fun _ => rfl, fun k hk => absurd hk (Nat.not_lt_zero k)⟩

theorem takesFronts_throw (error : DecodeError) : TakesFronts (throw error : Reader α) := by
  intro bytes found rest h
  cases h

theorem takesFronts_bytes (field : Field) (count : Nat) :
    TakesFronts (Reader.bytes field count) := by
  intro bytes found rest h
  rcases Nat.lt_or_ge bytes.length count with hshort | hlong
  · rw [bytes_short field hshort] at h
    cases h
  · have hlength : (bytes.take count).length = count := List.length_take_of_le hlong
    have htakes : ∀ more, Reader.bytes field count (bytes.take count ++ more) =
        .ok (bytes.take count, more) := by
      intro more
      have hfront := bytes_append field (bytes.take count) more
      rwa [hlength] at hfront
    have hread := htakes (bytes.drop count)
    rw [List.take_append_drop, h] at hread
    obtain ⟨rfl, rfl⟩ : found = bytes.take count ∧ rest = bytes.drop count := by
      have hpair := Except.ok.inj hread
      exact ⟨congrArg Prod.fst hpair, congrArg Prod.snd hpair⟩
    refine ⟨bytes.take count, (List.take_append_drop count bytes).symm, htakes, fun k hk => ?_⟩
    have hcut : ((bytes.take count).take k).length < count := by
      rw [List.length_take]
      omega
    exact ⟨field, count, _, bytes_short field hcut, hcut⟩

/-! ## Fields and rows of them -/

theorem takesFronts_int64 (field : Field) : TakesFronts (int64 field) :=
  (takesFronts_bytes field 8).bind fun _ => takesFronts_pure _

theorem takesFronts_int32 (field : Field) : TakesFronts (int32 field) :=
  (takesFronts_bytes field 4).bind fun _ => takesFronts_pure _

theorem takesFronts_count (field : Field) : TakesFronts (count field) := by
  refine (takesFronts_int32 field).bind fun value => ?_
  split
  · exact takesFronts_throw _
  · exact takesFronts_pure _

theorem takesFronts_ticks (base : Int64) : TakesFronts (ticks base) := by
  refine (takesFronts_int32 .delta).bind fun delta => ?_
  dsimp only
  split
  · exact takesFronts_pure _
  · exact takesFronts_throw _

theorem takesFronts_header : TakesFronts header := by
  refine (takesFronts_int64 .version).bind fun found => ?_
  split
  · exact (takesFronts_throw _).bind fun _ => takesFronts_int64 .baseTicks
  · exact takesFronts_int64 .baseTicks

theorem TakesFronts.many (h : TakesFronts reader) (n : Nat) : TakesFronts (many reader n) := by
  induction n with
  | zero => exact takesFronts_pure _
  | succ n ih => exact h.bind fun _ => ih.bind fun _ => takesFronts_pure _

end Reader

open Reader

theorem longValueItem_takesFronts (base : Int64) : TakesFronts (longValueItem base) :=
  (takesFronts_ticks base).bind fun _ => (takesFronts_int64 .value).bind fun _ => takesFronts_pure _

theorem longValues_takesFronts : TakesFronts longValues :=
  takesFronts_header.bind fun base => (takesFronts_count .entryCount).bind fun n =>
    (longValueItem_takesFronts base).many n

theorem occurrences_takesFronts : TakesFronts occurrences :=
  takesFronts_header.bind fun base => (takesFronts_count .entryCount).bind fun n =>
    (takesFronts_ticks base).many n

theorem dictionaryEntry_takesFronts : TakesFronts dictionaryEntry := by
  refine (takesFronts_int32 .tagId).bind fun id => (takesFronts_count .tagLength).bind fun length =>
    (takesFronts_bytes .tagName length).bind fun name => ?_
  split
  · exact takesFronts_pure _
  · exact takesFronts_throw _

theorem preamble_takesFronts : TakesFronts preamble :=
  takesFronts_header.bind fun _ => (takesFronts_count .tagCount).bind fun n =>
    (dictionaryEntry_takesFronts.many n).bind fun _ => (takesFronts_count .entryCount).bind fun _ =>
      takesFronts_pure _

theorem taggedItem_takesFronts (base : Int64) : TakesFronts (taggedItem base) :=
  (takesFronts_ticks base).bind fun _ => (takesFronts_int32 .tagId).bind fun _ =>
    (takesFronts_int64 .value).bind fun _ => takesFronts_pure _

def taggedFields : Reader (Preamble × List TaggedItem) := do
  let start ← preamble
  let items ← many (taggedItem start.base) start.count
  return (start, items)

/-! ## Gathering while reading -/

variable {α : Type} {start : Preamble} {state last : Gathering} {bytes payload rest : Bytes}
  {pool : Pool} {messages : List Message}

theorem Gathering.exists_front {n : Nat} (h : gatherAll start n bytes state = (last, none)) :
    ∃ items front rest, bytes = front ++ rest ∧
      TakesFront (many (taggedItem start.base) n) front items ∧
      (∀ more, gatherAll start n (front ++ more) state = (last, none)) ∧
      ∀ k < front.length, ∃ field needed remaining,
        (gatherAll start n (front.take k) state).2 = some (.truncated field needed remaining) ∧
          remaining < needed := by
  induction n generalizing bytes state with
  | zero =>
    refine ⟨[], [], bytes, rfl, ⟨fun _ => rfl, fun k hk => absurd hk (Nat.not_lt_zero k)⟩,
      fun _ => h, fun k hk => absurd hk (Nat.not_lt_zero k)⟩
  | succ n ih =>
    rw [gatherAll] at h
    cases hread : taggedItem start.base bytes with
    | error error =>
      rw [hread] at h
      cases h
    | ok found =>
      obtain ⟨item, middle⟩ := found
      cases hgather : state.gather start item with
      | error error =>
        simp only [hread, hgather] at h
        cases h
      | ok opened =>
        simp only [hread, hgather] at h
        obtain ⟨head, rfl, hhead⟩ := taggedItem_takesFronts start.base bytes item middle hread
        obtain ⟨items, front, rest, rfl, htail, hextended, hcut⟩ := ih h
        have hstep : ∀ more, gatherAll start (n + 1) (head ++ more) state =
            gatherAll start n more opened := by
          intro more
          simp only [gatherAll, hhead.takes more, hgather]
        have htail' :
            TakesFront (many (taggedItem start.base) n >>= fun tail => pure (item :: tail))
              (front ++ []) (item :: items) :=
          htail.bind ⟨fun _ => rfl, fun k hk => absurd hk (Nat.not_lt_zero k)⟩
        rw [List.append_nil] at htail'
        refine ⟨item :: items, head ++ front, rest, (List.append_assoc _ _ _).symm,
          hhead.bind htail', fun more => ?_, fun k hk => ?_⟩
        · rw [List.append_assoc, hstep]
          exact hextended more
        · rcases cut_append head front hk with ⟨hlt, htake⟩ | ⟨j, hj, htake⟩
          · obtain ⟨field, needed, remaining, herror, hless⟩ := hhead.cutOff k hlt
            refine ⟨field, needed, remaining, ?_, hless⟩
            simp only [htake, gatherAll, herror]
          · rw [htake, hstep]
            exact hcut j hj

/-! ## What a decoder reads -/

/-- The decoder goes by the first `n` bytes of this payload, and needs them all. -/
structure Extent (decode : Bytes → Except DecodeError α) (payload : Bytes) (n : Nat) : Prop where
  within : n ≤ payload.length
  extended : ∀ other : Bytes, other.take n = payload.take n → decode other = decode payload
  cutOff : ∀ k < n, CutOff (decode (payload.take k))

theorem Extent.ofFront {decode : Bytes → Except DecodeError α} {front : Bytes} {a : α}
    (htakes : ∀ more, decode (front ++ more) = .ok a)
    (hcut : ∀ k < front.length, CutOff (decode (front.take k))) (rest : Bytes) :
    Extent decode (front ++ rest) ((front ++ rest).length - rest.length) := by
  have hlength : (front ++ rest).length - rest.length = front.length := by
    rw [List.length_append, Nat.add_sub_cancel]
  rw [hlength]
  refine ⟨?_, fun other hother => ?_, fun k hk => ?_⟩
  · rw [List.length_append]
    exact Nat.le_add_right _ _
  · rw [List.take_left] at hother
    rw [htakes rest, ← List.take_append_drop front.length other, hother]
    exact htakes _
  · rw [List.take_append_of_le_length (Nat.le_of_lt hk)]
    exact hcut k hk

theorem extent_of_result {reader : Reader α} (hreader : TakesFronts reader) {a : α}
    (h : result reader payload = .ok a) :
    ∃ rest, reader payload = .ok (a, rest) ∧
      Extent (result reader) payload (payload.length - rest.length) := by
  cases hread : reader payload with
  | error error =>
    rw [result, hread] at h
    cases h
  | ok found =>
    obtain ⟨found, rest⟩ := found
    obtain rfl : found = a := by
      rw [result, hread] at h
      exact Except.ok.inj h
    obtain ⟨front, rfl, hfront⟩ := hreader payload found rest hread
    refine ⟨rest, rfl, Extent.ofFront (a := found) (fun more => ?_) (fun k hk => ?_) rest⟩
    · rw [result, hfront.takes more]
      rfl
    · obtain ⟨field, needed, remaining, herror, hlt⟩ := hfront.cutOff k hk
      refine ⟨field, needed, remaining, ?_, hlt⟩
      rw [result, herror]
      rfl

theorem extent_of_decodeTagged (h : (decodeTagged payload pool).1 = .ok messages) :
    ∃ start items rest, taggedFields payload = .ok ((start, items), rest) ∧
      Extent (fun bytes => (decodeTagged bytes pool).1) payload (payload.length - rest.length) := by
  cases hread : preamble payload with
  | error error =>
    rw [decodeTagged, hread] at h
    cases h
  | ok found =>
    obtain ⟨start, middle⟩ := found
    obtain ⟨head, rfl, hhead⟩ := preamble_takesFronts payload start middle hread
    have hdecode : ∀ more, (decodeTagged (head ++ more) pool).1 =
        (Gathering.gatherAll start start.count more { pool := pool }).2.elim
          (.ok (Gathering.gatherAll start start.count more { pool := pool }).1.messages)
          .error := by
      intro more
      rw [decodeTagged, hhead.takes more]
      dsimp only
      split <;> simp_all
    obtain ⟨last, hall⟩ : ∃ last,
        Gathering.gatherAll start start.count middle { pool := pool } = (last, none) := by
      rw [hdecode] at h
      cases hsecond : (Gathering.gatherAll start start.count middle { pool := pool }).2 with
      | none => exact ⟨_, Prod.ext rfl hsecond⟩
      | some error =>
        rw [hsecond] at h
        cases h
    obtain ⟨items, front, rest, rfl, hitems, hextended, hcut⟩ := Gathering.exists_front hall
    refine ⟨start, items, rest, ?_, ?_⟩
    · rw [taggedFields, bind_ok (hhead.takes _), bind_ok (hitems.takes _)]
      rfl
    · rw [← List.append_assoc]
      refine Extent.ofFront (a := last.messages) (fun more => ?_) (fun k hk => ?_) rest
      · rw [List.append_assoc, hdecode, hextended]
        rfl
      · rcases cut_append head front hk with ⟨hlt, htake⟩ | ⟨j, hj, htake⟩
        · obtain ⟨field, needed, remaining, herror, hless⟩ := hhead.cutOff k hlt
          refine ⟨field, needed, remaining, ?_, hless⟩
          rw [htake, decodeTagged, herror]
        · obtain ⟨field, needed, remaining, herror, hless⟩ := hcut j hj
          refine ⟨field, needed, remaining, ?_, hless⟩
          rw [htake, hdecode, herror]
          rfl

/-- Of a payload that it accepts each decoder goes by the bytes it has read: any bytes that begin
with them give the same result, and any bytes that end before are truncated, whichever field they
end in. -/
theorem decoded_by_extent (payload : Bytes) :
    (∀ values, decodeLongValues payload = .ok values → ∃ rest,
      longValues payload = .ok (values, rest) ∧
      Extent decodeLongValues payload (payload.length - rest.length)) ∧
    (∀ moments, decodeOccurrences payload = .ok moments →
      ∃ rest, occurrences payload = .ok (moments, rest) ∧
        Extent decodeOccurrences payload (payload.length - rest.length)) ∧
    ∀ pool messages, (decodeTagged payload pool).1 = .ok messages →
      ∃ start items rest, taggedFields payload = .ok ((start, items), rest) ∧
        Extent (fun bytes => (decodeTagged bytes pool).1) payload (payload.length - rest.length) :=
  ⟨fun _ h => extent_of_result longValues_takesFronts h,
    fun _ h => extent_of_result occurrences_takesFronts h, fun _ _ h => extent_of_decodeTagged h⟩

def trailedPayload : Bytes :=
  headerBytes 100 ++ countBytes 2 ++ dictionaryBytes (0, "") ++ dictionaryBytes (1, "ab") ++
    countBytes 2 ++ TaggedRecord.bytes ⟨0, 1, 10⟩ ++ TaggedRecord.bytes ⟨5, 0, 20⟩ ++ [7]

/-- The cuts here are in the second name, right before the count of the records and in the last
value. -/
theorem decoded_by_extent_trailed :
    trailedPayload.length = 75 ∧
      (decodeTagged trailedPayload {}).1 = .ok [⟨"", #[⟨105, 20⟩]⟩, ⟨"ab", #[⟨100, 10⟩]⟩] ∧
      (∀ more, (decodeTagged (trailedPayload.take 74 ++ more) {}).1 =
        (decodeTagged trailedPayload {}).1) ∧
      ∀ k ∈ [37, 38, 73], CutOff (decodeTagged (trailedPayload.take k) {}).1 := by
  have hlength : trailedPayload.length = 75 := by decide
  have hdecode : (decodeTagged trailedPayload {}).1 =
      .ok [⟨"", #[⟨105, 20⟩]⟩, ⟨"ab", #[⟨100, 10⟩]⟩] := by rfl
  obtain ⟨start, items, rest, hfields, hextent⟩ :=
    (decoded_by_extent trailedPayload).2.2 {} _ hdecode
  have hread : taggedFields trailedPayload = .ok ((⟨100, [(0, ""), (1, "ab")], 2⟩,
      [⟨1, ⟨100, 10⟩⟩, ⟨0, ⟨105, 20⟩⟩]), [7]) := by rfl
  obtain rfl : [7] = rest := congrArg Prod.snd (Except.ok.inj (hread.symm.trans hfields))
  refine ⟨hlength, hdecode, fun more => hextent.extended _ ?_, fun k hk => hextent.cutOff k ?_⟩
  · rw [hlength]
    exact List.take_left' (by rw [List.length_take, hlength]; rfl)
  · have hlt : ∀ k ∈ [37, 38, 73], k < 74 := by decide
    exact hlt k hk

end MetricReporting.Payload
