import MetricReporting.Proofs.Payload.Grammar

/-!
# The grammar of plain payloads

The formats without tags differ in what a record holds after its distance from the base: a value, or
nothing. A plain payload is a header, a count and that many records, and each reader takes off the
bytes of its format and reports the first field that fails its check.
-/
namespace MetricReporting.Payload

inductive Plain
  | longValue
  | occurrence
deriving DecidableEq, Repr

namespace Plain

def format : Plain → Format
  | longValue => .longValue
  | occurrence => .occurrence

abbrev Body : Plain → Type
  | longValue => Int64
  | occurrence => Unit

abbrev Item : Plain → Type
  | longValue => TimedValue
  | occurrence => Int64

def bodyBytes : (plain : Plain) → plain.Body → Bytes
  | longValue, value => Bytes.ofInt64 value
  | occurrence, _ => []

def item : (plain : Plain) → Int64 → plain.Body → plain.Item
  | longValue, ticks, value => ⟨ticks, value⟩
  | occurrence, ticks, _ => ticks

def itemReader : (plain : Plain) → Int64 → Reader plain.Item
  | longValue => longValueItem
  | occurrence => Reader.ticks

def reader : (plain : Plain) → Reader (List plain.Item)
  | longValue => longValues
  | occurrence => occurrences

def decode : (plain : Plain) → Bytes → Except DecodeError (List plain.Item)
  | longValue => decodeLongValues
  | occurrence => decodeOccurrences

theorem reader_eq (plain : Plain) :
    plain.reader = (Reader.header >>= fun base => Reader.count .entryCount >>= fun count =>
      Reader.many (plain.itemReader base) count) := by
  cases plain with
  | longValue => rfl
  | occurrence => rfl

theorem decode_eq (plain : Plain) (payload : Bytes) :
    plain.decode payload = (plain.reader payload).map Prod.fst := by
  cases plain with
  | longValue => rfl
  | occurrence => rfl

end Plain

structure PlainRecord (plain : Plain) where
  delta : Int32
  body : plain.Body

namespace PlainRecord

variable {plain : Plain}

def bytes (record : PlainRecord plain) : Bytes :=
  Bytes.ofInt32 record.delta ++ plain.bodyBytes record.body

def Timely (base : Int64) (record : PlainRecord plain) : Prop :=
  Ticks.Representable (base.toInt + record.delta.toInt)

instance (base : Int64) (record : PlainRecord plain) : Decidable (record.Timely base) :=
  inferInstanceAs (Decidable (Ticks.Representable _))

def item (base : Int64) (record : PlainRecord plain) : plain.Item :=
  plain.item (Int64.ofInt (base.toInt + record.delta.toInt)) record.body

end PlainRecord

structure PlainForm (plain : Plain) where
  base : Int64
  records : List (PlainRecord plain)

namespace PlainForm

variable {plain : Plain}

def bytes (form : PlainForm plain) : Bytes :=
  headerBytes form.base ++ countBytes form.records.length ++ form.records.flatMap PlainRecord.bytes

structure Valid (form : PlainForm plain) : Prop where
  count : form.records.length < 2 ^ 31
  records : ∀ record ∈ form.records, record.Timely form.base

def items (form : PlainForm plain) : List plain.Item :=
  form.records.map (PlainRecord.item form.base)

end PlainForm

/-! ## The first check that fails -/

inductive PlainRecordRejected (plain : Plain) (base : Int64) : Bytes → DecodeError → Prop
  | delta {bytes : Bytes} : bytes.length < 4 →
      PlainRecordRejected plain base bytes (.truncated .delta 4 bytes.length)
  | ticks {delta : Int32} {rest : Bytes} : ¬ Ticks.Representable (base.toInt + delta.toInt) →
      PlainRecordRejected plain base (Bytes.ofInt32 delta ++ rest) (.timestampOverflow base delta)
  | value {delta : Int32} {rest : Bytes} : plain = .longValue →
      Ticks.Representable (base.toInt + delta.toInt) → rest.length < 8 →
      PlainRecordRejected plain base (Bytes.ofInt32 delta ++ rest) (.truncated .value 8 rest.length)

inductive PlainRejected (plain : Plain) : Bytes → DecodeError → Prop
  | header {bytes : Bytes} {error : DecodeError} : HeaderRejected bytes error →
      PlainRejected plain bytes error
  | count {base : Int64} {rest : Bytes} {error : DecodeError} :
      CountRejected .entryCount rest error → PlainRejected plain (headerBytes base ++ rest) error
  | record {base : Int64} {n : Nat} {before : List (PlainRecord plain)} {rest : Bytes}
      {error : DecodeError} : n < 2 ^ 31 → before.length < n →
      (∀ record ∈ before, record.Timely base) → PlainRecordRejected plain base rest error →
      PlainRejected plain
        (headerBytes base ++ (countBytes n ++ (before.flatMap PlainRecord.bytes ++ rest))) error

/-! ## Readers -/

theorem plainRecord_reads (plain : Plain) (base : Int64) :
    Reads (plain.itemReader base) PlainRecord.bytes (PlainRecord.item base)
      (PlainRecord.Timely base) (PlainRecordRejected plain base) where
  takes := by
    rintro ⟨delta, body⟩ hticks rest
    cases plain with
    | longValue =>
      simp only [PlainRecord.bytes, Plain.bodyBytes, List.append_assoc]
      rw [Plain.itemReader, longValueItem, Reader.bind_ok (Reader.ticks_delta hticks _),
        Reader.bind_ok (Reader.int64_append .value body _)]
      rfl
    | occurrence =>
      simp only [PlainRecord.bytes, Plain.bodyBytes, List.append_nil]
      exact Reader.ticks_delta hticks rest
  reports := by
    intro bytes error h
    cases h with
    | delta hshort =>
      cases plain with
      | longValue => exact Reader.bind_error (Reader.bind_error (Reader.int32_short .delta hshort))
      | occurrence => exact Reader.bind_error (Reader.int32_short .delta hshort)
    | @ticks delta rest hticks =>
      cases plain with
      | longValue => exact Reader.bind_error (Reader.ticks_overflow hticks rest)
      | occurrence => exact Reader.ticks_overflow hticks rest
    | @value delta rest hplain hticks hshort =>
      subst hplain
      rw [Plain.itemReader, longValueItem, Reader.bind_ok (Reader.ticks_delta hticks _)]
      exact Reader.bind_error (Reader.int64_short .value hshort)
  total := by
    intro bytes
    rcases Bytes.int32_cases bytes with hshort | ⟨delta, rest, rfl⟩
    · exact Or.inl ⟨_, .delta hshort⟩
    rcases Decidable.em (Ticks.Representable (base.toInt + delta.toInt)) with hticks | hticks
    · cases plain with
      | longValue =>
        rcases Bytes.int64_cases rest with hshort | ⟨value, rest, rfl⟩
        · exact Or.inl ⟨_, .value rfl hticks hshort⟩
        · refine Or.inr ⟨⟨delta, value⟩, rest, hticks, ?_⟩
          simp only [PlainRecord.bytes, Plain.bodyBytes, List.append_assoc]
      | occurrence =>
        refine Or.inr ⟨⟨delta, ()⟩, rest, hticks, ?_⟩
        simp only [PlainRecord.bytes, Plain.bodyBytes, List.append_nil]
    · exact Or.inl ⟨_, .ticks hticks⟩

theorem plain_reads (plain : Plain) :
    Reads plain.reader PlainForm.bytes PlainForm.items PlainForm.Valid (PlainRejected plain) where
  takes := by
    intro form hvalid rest
    have hrecords :=
      ((plainRecord_reads plain form.base).many form.records.length).takes form.records
      ⟨rfl, hvalid.records⟩
    simp only [PlainForm.bytes, List.append_assoc]
    rw [Plain.reader_eq, Reader.bind_ok (Reader.header_append _ _),
      Reader.bind_ok (Reader.count_append .entryCount hvalid.count _), hrecords]
    rfl
  reports := by
    intro bytes error h
    rw [Plain.reader_eq]
    cases h with
    | header hheader => exact Reader.bind_error (Reader.header_rejected hheader)
    | @count base rest _ hcount =>
      rw [Reader.bind_ok (Reader.header_append _ _)]
      exact Reader.bind_error (Reader.count_rejected hcount)
    | @record base n before rest _ hn hlt hbefore hrecord =>
      rw [Reader.bind_ok (Reader.header_append _ _),
        Reader.bind_ok (Reader.count_append .entryCount hn _)]
      exact ((plainRecord_reads plain base).many n).reports _ _ ⟨before, rest, hlt, hbefore, rfl,
        hrecord⟩
  total := by
    intro bytes
    rcases header_reads.total bytes with ⟨error, hbad⟩ | ⟨base, bytes, -, rfl⟩
    · exact Or.inl ⟨error, .header hbad⟩
    rcases (count_reads .entryCount).total bytes with ⟨error, hbad⟩ | ⟨n, bytes, hn, rfl⟩
    · exact Or.inl ⟨error, .count hbad⟩
    rcases ((plainRecord_reads plain base).many n).total bytes with
      ⟨error, before, rest, hlt, hbefore, rfl, hbad⟩ | ⟨records, rest, ⟨rfl, hrecords⟩, rfl⟩
    · exact Or.inl ⟨error, .record hn hlt hbefore hbad⟩
    refine Or.inr ⟨⟨base, records⟩, rest, ⟨hn, hrecords⟩, ?_⟩
    simp only [PlainForm.bytes, List.append_assoc]

end MetricReporting.Payload
