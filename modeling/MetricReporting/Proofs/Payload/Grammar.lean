import MetricReporting.Payload.Decode
import MetricReporting.Proofs.Payload.Fields

/-!
# The grammar of tagged payloads

What a tagged payload is made of, and in which ways bytes fall short of one. Every row of bytes
either begins with the bytes of what is asked for or has a first field that fails its check; readers
take the former off and report the latter.
-/
namespace MetricReporting

namespace Bytes

theorem toNat_lt (bytes : Bytes) : toNat bytes < 256 ^ bytes.length := by
  induction bytes with
  | nil => exact Nat.one_pos
  | cons byte rest ih =>
    have hbyte := byte.toNat_lt
    rw [toNat, List.length_cons, Nat.pow_succ']
    omega

theorem ofNat_toNat (bytes : Bytes) : ofNat bytes.length (toNat bytes) = bytes := by
  induction bytes with
  | nil => rfl
  | cons byte rest ih =>
    have hbyte : byte.toNat < 256 := byte.toNat_lt
    have hlow : (byte.toNat + 256 * toNat rest) % 256 = byte.toNat := by omega
    have hhigh : (byte.toNat + 256 * toNat rest) / 256 = toNat rest := by omega
    rw [toNat, List.length_cons, ofNat, hlow, hhigh, ih, UInt8.ofNat_toNat]

theorem ofInt32_toInt32 {bytes : Bytes} (h : bytes.length = 4) :
    ofInt32 (toInt32 bytes) = bytes := by
  have hlt := toNat_lt bytes
  have hback := ofNat_toNat bytes
  rw [h] at hlt hback
  rw [ofInt32, toInt32, Int32.toUInt32_ofNat', UInt32.toNat_ofNat_of_lt' hlt, hback]

theorem ofInt64_toInt64 {bytes : Bytes} (h : bytes.length = 8) :
    ofInt64 (toInt64 bytes) = bytes := by
  have hlt := toNat_lt bytes
  have hback := ofNat_toNat bytes
  rw [h] at hlt hback
  rw [ofInt64, toInt64, Int64.toUInt64_ofNat', UInt64.toNat_ofNat_of_lt' hlt, hback]

theorem ofText_eq {bytes : Bytes} {text : String} (h : toText? bytes = some text) :
    ofText text = bytes := by
  unfold toText? String.fromUTF8? at h
  split at h
  · rw [← Option.some.inj h]
    rfl
  · cases h

theorem int32_cases (bytes : Bytes) :
    bytes.length < 4 ∨ ∃ word rest, bytes = ofInt32 word ++ rest := by
  rcases Nat.lt_or_ge bytes.length 4 with hshort | hlong
  · exact Or.inl hshort
  · refine Or.inr ⟨toInt32 (bytes.take 4), bytes.drop 4, ?_⟩
    rw [ofInt32_toInt32 (List.length_take_of_le hlong), List.take_append_drop]

theorem int64_cases (bytes : Bytes) :
    bytes.length < 8 ∨ ∃ word rest, bytes = ofInt64 word ++ rest := by
  rcases Nat.lt_or_ge bytes.length 8 with hshort | hlong
  · exact Or.inl hshort
  · refine Or.inr ⟨toInt64 (bytes.take 8), bytes.drop 8, ?_⟩
    rw [ofInt64_toInt64 (List.length_take_of_le hlong), List.take_append_drop]

end Bytes

namespace Payload

theorem count_cases (bytes : Bytes) :
    bytes.length < 4 ∨ (∃ word rest, word < 0 ∧ bytes = Bytes.ofInt32 word ++ rest) ∨
      ∃ n rest, n < 2 ^ 31 ∧ bytes = countBytes n ++ rest := by
  rcases Bytes.int32_cases bytes with hshort | ⟨word, rest, rfl⟩
  · exact Or.inl hshort
  · by_cases hneg : word < 0
    · exact Or.inr (Or.inl ⟨word, rest, hneg, rfl⟩)
    · have hle := Int32.le_iff_toInt_le.1 (Int32.not_lt.1 hneg)
      have hlt := word.toInt_lt
      have hword : Int32.ofNat word.toInt.toNat = word := by
        rw [← Int32.toInt_inj, Int32.toInt_ofNat_of_lt (by omega)]
        exact Int.toNat_of_nonneg hle
      refine Or.inr (Or.inr ⟨word.toInt.toNat, rest, by omega, ?_⟩)
      rw [countBytes, hword]

/-! ## Parts and their bytes -/

def dictionaryBytes (item : Int32 × String) : Bytes :=
  Bytes.ofInt32 item.1 ++ countBytes (Bytes.ofText item.2).length ++ Bytes.ofText item.2

namespace Preamble

def bytes (start : Preamble) : Bytes :=
  headerBytes start.base ++ countBytes start.dictionary.length ++
    start.dictionary.flatMap dictionaryBytes ++ countBytes start.count

structure Valid (start : Preamble) : Prop where
  dictionary : start.dictionary.length < 2 ^ 31
  names : ∀ item ∈ start.dictionary, (Bytes.ofText item.2).length < 2 ^ 31
  count : start.count < 2 ^ 31

def Names (start : Preamble) (id : Int32) : Prop :=
  ∃ name, (id, name) ∈ start.dictionary

instance (start : Preamble) : Decidable start.Valid :=
  decidable_of_iff (start.dictionary.length < 2 ^ 31 ∧
      (∀ item ∈ start.dictionary, (Bytes.ofText item.2).length < 2 ^ 31) ∧ start.count < 2 ^ 31)
    ⟨fun ⟨hdictionary, hnames, hcount⟩ => ⟨hdictionary, hnames, hcount⟩,
      fun h => ⟨h.dictionary, h.names, h.count⟩⟩

instance (start : Preamble) (id : Int32) : Decidable (start.Names id) :=
  decidable_of_iff (∃ item ∈ start.dictionary, item.1 = id)
    ⟨fun ⟨item, hitem, hid⟩ => ⟨item.2, hid ▸ hitem⟩, fun ⟨_, hitem⟩ => ⟨_, hitem, rfl⟩⟩

end Preamble

structure TaggedRecord where
  delta : Int32
  id : Int32
  value : Int64
deriving DecidableEq, Repr

namespace TaggedRecord

def bytes (record : TaggedRecord) : Bytes :=
  Bytes.ofInt32 record.delta ++ Bytes.ofInt32 record.id ++ Bytes.ofInt64 record.value

def item (base : Int64) (record : TaggedRecord) : TaggedItem :=
  ⟨record.id, Int64.ofInt (base.toInt + record.delta.toInt), record.value⟩

structure Valid (start : Preamble) (record : TaggedRecord) : Prop where
  ticks : Ticks.Representable (start.base.toInt + record.delta.toInt)
  named : start.Names record.id

instance (start : Preamble) (record : TaggedRecord) : Decidable (record.Valid start) :=
  decidable_of_iff (Ticks.Representable (start.base.toInt + record.delta.toInt) ∧
      start.Names record.id)
    ⟨fun ⟨hticks, hnamed⟩ => ⟨hticks, hnamed⟩, fun h => ⟨h.ticks, h.named⟩⟩

end TaggedRecord

structure TaggedForm where
  base : Int64
  dictionary : List (Int32 × String)
  records : List TaggedRecord
deriving DecidableEq, Repr

namespace TaggedForm

def start (form : TaggedForm) : Preamble :=
  ⟨form.base, form.dictionary, form.records.length⟩

def bytes (form : TaggedForm) : Bytes :=
  form.start.bytes ++ form.records.flatMap TaggedRecord.bytes

structure Valid (form : TaggedForm) : Prop where
  start : form.start.Valid
  records : ∀ record ∈ form.records, record.Valid form.start

instance (form : TaggedForm) : Decidable form.Valid :=
  decidable_of_iff (form.start.Valid ∧ ∀ record ∈ form.records, record.Valid form.start)
    ⟨fun ⟨hstart, hrecords⟩ => ⟨hstart, hrecords⟩, fun h => ⟨h.start, h.records⟩⟩

def items (form : TaggedForm) : List TaggedItem :=
  form.records.map (TaggedRecord.item form.base)

end TaggedForm

/-! ## The first check that fails -/

inductive DictionaryRejected : Bytes → DecodeError → Prop
  | id {bytes : Bytes} : bytes.length < 4 →
      DictionaryRejected bytes (.truncated .tagId 4 bytes.length)
  | length {id : Int32} {rest : Bytes} : rest.length < 4 →
      DictionaryRejected (Bytes.ofInt32 id ++ rest) (.truncated .tagLength 4 rest.length)
  | negative {id word : Int32} {rest : Bytes} : word < 0 →
      DictionaryRejected (Bytes.ofInt32 id ++ (Bytes.ofInt32 word ++ rest))
        (.negativeCount .tagLength word)
  | name {id : Int32} {n : Nat} {rest : Bytes} : n < 2 ^ 31 → rest.length < n →
      DictionaryRejected (Bytes.ofInt32 id ++ (countBytes n ++ rest))
        (.truncated .tagName n rest.length)
  | text {id : Int32} {name rest : Bytes} : name.length < 2 ^ 31 → name.toText? = none →
      DictionaryRejected (Bytes.ofInt32 id ++ (countBytes name.length ++ (name ++ rest)))
        (.invalidName id)

inductive HeaderRejected : Bytes → DecodeError → Prop
  | version {bytes : Bytes} : bytes.length < 8 →
      HeaderRejected bytes (.truncated .version 8 bytes.length)
  | unsupported {found : Int64} {rest : Bytes} : found ≠ version →
      HeaderRejected (Bytes.ofInt64 found ++ rest) (.unsupportedVersion found)
  | base {rest : Bytes} : rest.length < 8 →
      HeaderRejected (Bytes.ofInt64 version ++ rest) (.truncated .baseTicks 8 rest.length)

inductive CountRejected (field : Field) : Bytes → DecodeError → Prop
  | truncated {bytes : Bytes} : bytes.length < 4 →
      CountRejected field bytes (.truncated field 4 bytes.length)
  | negative {word : Int32} {rest : Bytes} : word < 0 →
      CountRejected field (Bytes.ofInt32 word ++ rest) (.negativeCount field word)

inductive PreambleRejected : Bytes → DecodeError → Prop
  | header {bytes : Bytes} {error : DecodeError} : HeaderRejected bytes error →
      PreambleRejected bytes error
  | tagCount {base : Int64} {rest : Bytes} {error : DecodeError} :
      CountRejected .tagCount rest error →
      PreambleRejected (headerBytes base ++ rest) error
  | item {base : Int64} {n : Nat} {before : List (Int32 × String)} {rest : Bytes}
      {error : DecodeError} : n < 2 ^ 31 → before.length < n →
      (∀ item ∈ before, (Bytes.ofText item.2).length < 2 ^ 31) → DictionaryRejected rest error →
      PreambleRejected
        (headerBytes base ++ (countBytes n ++ (before.flatMap dictionaryBytes ++ rest)))
        error
  | entryCount {base : Int64} {dictionary : List (Int32 × String)} {rest : Bytes}
      {error : DecodeError} : dictionary.length < 2 ^ 31 →
      (∀ item ∈ dictionary, (Bytes.ofText item.2).length < 2 ^ 31) →
      CountRejected .entryCount rest error →
      PreambleRejected (headerBytes base ++ (countBytes dictionary.length ++
        (dictionary.flatMap dictionaryBytes ++ rest))) error

inductive FieldRejected (base : Int64) : Bytes → DecodeError → Prop
  | delta {bytes : Bytes} : bytes.length < 4 →
      FieldRejected base bytes (.truncated .delta 4 bytes.length)
  | ticks {delta : Int32} {rest : Bytes} : ¬ Ticks.Representable (base.toInt + delta.toInt) →
      FieldRejected base (Bytes.ofInt32 delta ++ rest) (.timestampOverflow base delta)
  | id {delta : Int32} {rest : Bytes} : Ticks.Representable (base.toInt + delta.toInt) →
      rest.length < 4 →
      FieldRejected base (Bytes.ofInt32 delta ++ rest) (.truncated .tagId 4 rest.length)
  | value {delta id : Int32} {rest : Bytes} : Ticks.Representable (base.toInt + delta.toInt) →
      rest.length < 8 →
      FieldRejected base (Bytes.ofInt32 delta ++ (Bytes.ofInt32 id ++ rest))
        (.truncated .value 8 rest.length)

inductive RecordRejected (start : Preamble) : Bytes → DecodeError → Prop
  | field {bytes : Bytes} {error : DecodeError} : FieldRejected start.base bytes error →
      RecordRejected start bytes error
  | unknown {record : TaggedRecord} {rest : Bytes} :
      Ticks.Representable (start.base.toInt + record.delta.toInt) → ¬ start.Names record.id →
      RecordRejected start (record.bytes ++ rest) (.unknownTag record.id)

/-- The bytes are no tagged payload, and this is what the first field says that fails its check. -/
inductive Rejected : Bytes → DecodeError → Prop
  | preamble {bytes : Bytes} {error : DecodeError} : PreambleRejected bytes error →
      Rejected bytes error
  | record {start : Preamble} {before : List TaggedRecord} {rest : Bytes} {error : DecodeError} :
      start.Valid → before.length < start.count → (∀ record ∈ before, record.Valid start) →
      RecordRejected start rest error →
      Rejected (start.bytes ++ (before.flatMap TaggedRecord.bytes ++ rest)) error

/-! ## Readers -/

namespace Reader

variable {α β : Type} {bytes : Bytes} {error : DecodeError}

theorem bind_error {first : Reader α} {next : α → Reader β} (h : first bytes = .error error) :
    (first >>= next) bytes = .error error := by
  show (first bytes >>= fun p => next p.1 p.2) = .error error
  rw [h]
  rfl

theorem bytes_short (field : Field) {count : Nat} (h : bytes.length < count) :
    Reader.bytes field count bytes = .error (.truncated field count bytes.length) := by
  have hshort : (bytes.take count).length < count := by
    rw [List.length_take]
    omega
  simp only [Reader.bytes, hshort, ↓reduceIte]

theorem int32_short (field : Field) (h : bytes.length < 4) :
    int32 field bytes = .error (.truncated field 4 bytes.length) :=
  bind_error (bytes_short field h)

theorem int64_short (field : Field) (h : bytes.length < 8) :
    int64 field bytes = .error (.truncated field 8 bytes.length) :=
  bind_error (bytes_short field h)

theorem count_rejected {field : Field} (h : CountRejected field bytes error) :
    count field bytes = .error error := by
  cases h with
  | truncated hshort => exact bind_error (int32_short field hshort)
  | @negative word rest hneg =>
    rw [count, bind_ok (int32_append field word rest), if_pos hneg]
    rfl

theorem header_rejected (h : HeaderRejected bytes error) : header bytes = .error error := by
  cases h with
  | version hshort => exact bind_error (int64_short .version hshort)
  | @unsupported found rest hne =>
    rw [header, bind_ok (int64_append .version found rest), if_pos hne]
    rfl
  | @base rest hshort =>
    rw [header, bind_ok (int64_append .version version rest)]
    exact int64_short .baseTicks hshort

theorem ticks_delta {base : Int64} {delta : Int32}
    (h : Ticks.Representable (base.toInt + delta.toInt)) (rest : Bytes) :
    ticks base (Bytes.ofInt32 delta ++ rest) =
      .ok (Int64.ofInt (base.toInt + delta.toInt), rest) := by
  rw [ticks, bind_ok (int32_append .delta delta rest), if_pos h]
  rfl

theorem ticks_overflow {base : Int64} {delta : Int32}
    (h : ¬ Ticks.Representable (base.toInt + delta.toInt)) (rest : Bytes) :
    ticks base (Bytes.ofInt32 delta ++ rest) = .error (.timestampOverflow base delta) := by
  rw [ticks, bind_ok (int32_append .delta delta rest), if_neg h]
  rfl

end Reader

/-- A reader follows a grammar: it takes the bytes of a part off and gives its value, reports what
the grammar says of bytes that do not begin with a part, and there are no other bytes. -/
structure Reads {α β : Type} (reader : Reader β) (encode : α → Bytes) (value : α → β)
    (good : α → Prop) (bad : Bytes → DecodeError → Prop) : Prop where
  takes : ∀ a, good a → ∀ rest, reader (encode a ++ rest) = .ok (value a, rest)
  reports : ∀ bytes error, bad bytes error → reader bytes = .error error
  total : ∀ bytes, (∃ error, bad bytes error) ∨ ∃ a rest, good a ∧ bytes = encode a ++ rest

section Reads

variable {α β : Type} {item : Reader β} {encode : α → Bytes} {value : α → β} {good : α → Prop}
  {bad : Bytes → DecodeError → Prop}

theorem Reads.many (h : Reads item encode value good bad) (n : Nat) :
    Reads (Reader.many item n) (List.flatMap encode) (List.map value)
      (fun rows : List α => rows.length = n ∧ ∀ a ∈ rows, good a)
      (fun bytes error => ∃ (before : List α) (rest : Bytes), before.length < n ∧
        (∀ a ∈ before, good a) ∧ bytes = before.flatMap encode ++ rest ∧ bad rest error) where
  takes := by
    rintro rows ⟨rfl, hgood⟩ rest
    exact Reader.many_flatMap item encode value (fun a ha => h.takes a (hgood a ha)) rest
  reports := by
    rintro bytes error ⟨before, rest, hlt, hgood, rfl, hbad⟩
    induction n generalizing before with
    | zero => cases hlt
    | succ n ih =>
      cases before with
      | nil => exact Reader.bind_error (h.reports rest error hbad)
      | cons a before =>
        have hhead := h.takes a (hgood a List.mem_cons_self)
        have htail := ih before (Nat.lt_of_succ_lt_succ hlt) fun b hb =>
          hgood b (List.mem_cons_of_mem a hb)
        rw [List.flatMap_cons, List.append_assoc, Reader.many, Reader.bind_ok (hhead _)]
        exact Reader.bind_error htail
  total := by
    intro bytes
    induction n generalizing bytes with
    | zero => exact Or.inr ⟨[], bytes, ⟨rfl, List.forall_mem_nil _⟩, rfl⟩
    | succ n ih =>
      rcases h.total bytes with ⟨error, hbad⟩ | ⟨a, rest, ha, rfl⟩
      · exact Or.inl ⟨error, [], bytes, Nat.succ_pos n, List.forall_mem_nil _, rfl, hbad⟩
      rcases ih rest
        with ⟨error, before, rest, hlt, hgood, rfl, hbad⟩ | ⟨rows, rest, ⟨rfl, hrows⟩, rfl⟩
      · refine Or.inl ⟨error, a :: before, rest, Nat.succ_lt_succ hlt,
          List.forall_mem_cons.2 ⟨ha, hgood⟩, ?_, hbad⟩
        simp only [List.flatMap_cons, List.append_assoc]
      · refine Or.inr ⟨a :: rows, rest, ⟨rfl, List.forall_mem_cons.2 ⟨ha, hrows⟩⟩, ?_⟩
        simp only [List.flatMap_cons, List.append_assoc]

end Reads

theorem dictionaryEntry_reads : Reads dictionaryEntry dictionaryBytes id
    (fun item => (Bytes.ofText item.2).length < 2 ^ 31) DictionaryRejected where
  takes := by
    rintro ⟨id, name⟩ hlength rest
    have hname := Reader.bytes_append .tagName (Bytes.ofText name) rest
    simp only [dictionaryBytes, List.append_assoc]
    rw [dictionaryEntry, Reader.bind_ok (Reader.int32_append .tagId id _),
      Reader.bind_ok (Reader.count_append .tagLength hlength _), Reader.bind_ok hname,
      Bytes.toText?_ofText]
    rfl
  reports := by
    intro bytes error h
    cases h with
    | id hshort => exact Reader.bind_error (Reader.int32_short .tagId hshort)
    | @length id rest hshort =>
      rw [dictionaryEntry, Reader.bind_ok (Reader.int32_append .tagId id _)]
      exact Reader.bind_error (Reader.count_rejected (.truncated hshort))
    | @negative id word rest hneg =>
      rw [dictionaryEntry, Reader.bind_ok (Reader.int32_append .tagId id _)]
      exact Reader.bind_error (Reader.count_rejected (.negative hneg))
    | @name id n rest hn hshort =>
      rw [dictionaryEntry, Reader.bind_ok (Reader.int32_append .tagId id _),
        Reader.bind_ok (Reader.count_append .tagLength hn _)]
      exact Reader.bind_error (Reader.bytes_short .tagName hshort)
    | @text id name rest hn hnone =>
      rw [dictionaryEntry, Reader.bind_ok (Reader.int32_append .tagId id _),
        Reader.bind_ok (Reader.count_append .tagLength hn _),
        Reader.bind_ok (Reader.bytes_append .tagName name rest), hnone]
      rfl
  total := by
    intro bytes
    rcases Bytes.int32_cases bytes with hshort | ⟨id, bytes, rfl⟩
    · exact Or.inl ⟨_, .id hshort⟩
    rcases count_cases bytes with hshort | ⟨word, rest, hneg, rfl⟩ | ⟨n, bytes, hn, rfl⟩
    · exact Or.inl ⟨_, .length hshort⟩
    · exact Or.inl ⟨_, .negative hneg⟩
    rcases Nat.lt_or_ge bytes.length n with hshort | hlong
    · exact Or.inl ⟨_, .name hn hshort⟩
    obtain ⟨name, rest, rfl, rfl⟩ : ∃ name rest, bytes = name ++ rest ∧ n = name.length :=
      ⟨bytes.take n, bytes.drop n, (List.take_append_drop n bytes).symm,
        (List.length_take_of_le hlong).symm⟩
    cases htext : Bytes.toText? name with
    | none => exact Or.inl ⟨_, .text hn htext⟩
    | some text =>
      obtain rfl := Bytes.ofText_eq htext
      refine Or.inr ⟨(id, text), rest, hn, ?_⟩
      simp only [dictionaryBytes, List.append_assoc]

theorem header_reads : Reads Reader.header headerBytes id (fun _ => True) HeaderRejected where
  takes base _ rest := Reader.header_append base rest
  reports _ _ := Reader.header_rejected
  total := by
    intro bytes
    rcases Bytes.int64_cases bytes with hshort | ⟨found, rest, rfl⟩
    · exact Or.inl ⟨_, .version hshort⟩
    by_cases hfound : found = version
    · subst hfound
      rcases Bytes.int64_cases rest with hshort | ⟨base, rest, rfl⟩
      · exact Or.inl ⟨_, .base hshort⟩
      · exact Or.inr ⟨base, rest, trivial, by rw [headerBytes, List.append_assoc]⟩
    · exact Or.inl ⟨_, .unsupported hfound⟩

theorem count_reads (field : Field) : Reads (Reader.count field) countBytes id (· < 2 ^ 31)
    (CountRejected field) where
  takes _ hn rest := Reader.count_append field hn rest
  reports _ _ := Reader.count_rejected
  total := by
    intro bytes
    rcases count_cases bytes with hshort | ⟨word, rest, hneg, rfl⟩ | ⟨n, rest, hn, rfl⟩
    · exact Or.inl ⟨_, .truncated hshort⟩
    · exact Or.inl ⟨_, .negative hneg⟩
    · exact Or.inr ⟨n, rest, hn, rfl⟩

theorem preamble_reads : Reads preamble Preamble.bytes id Preamble.Valid PreambleRejected where
  takes := by
    intro start hvalid rest
    have hitems := (dictionaryEntry_reads.many start.dictionary.length).takes start.dictionary
      ⟨rfl, hvalid.names⟩
    simp only [Preamble.bytes, List.append_assoc]
    rw [preamble, Reader.bind_ok (Reader.header_append _ _),
      Reader.bind_ok (Reader.count_append .tagCount hvalid.dictionary _),
      Reader.bind_ok (hitems _), Reader.bind_ok (Reader.count_append .entryCount hvalid.count _),
      List.map_id]
    rfl
  reports := by
    intro bytes error h
    cases h with
    | header hheader => exact Reader.bind_error (Reader.header_rejected hheader)
    | @tagCount base rest _ hcount =>
      rw [preamble, Reader.bind_ok (Reader.header_append _ _)]
      exact Reader.bind_error (Reader.count_rejected hcount)
    | @item base n before rest _ hn hlt hgood hitem =>
      have hitems :=
        (dictionaryEntry_reads.many n).reports _ _ ⟨before, rest, hlt, hgood, rfl, hitem⟩
      rw [preamble, Reader.bind_ok (Reader.header_append _ _),
        Reader.bind_ok (Reader.count_append .tagCount hn _)]
      exact Reader.bind_error hitems
    | @entryCount base dictionary rest _ hn hgood hcount =>
      have hitems := (dictionaryEntry_reads.many dictionary.length).takes dictionary ⟨rfl, hgood⟩
      rw [preamble, Reader.bind_ok (Reader.header_append _ _),
        Reader.bind_ok (Reader.count_append .tagCount hn _), Reader.bind_ok (hitems _)]
      exact Reader.bind_error (Reader.count_rejected hcount)
  total := by
    intro bytes
    rcases header_reads.total bytes with ⟨error, hbad⟩ | ⟨base, bytes, -, rfl⟩
    · exact Or.inl ⟨error, .header hbad⟩
    rcases (count_reads .tagCount).total bytes with ⟨error, hbad⟩ | ⟨n, bytes, hn, rfl⟩
    · exact Or.inl ⟨error, .tagCount hbad⟩
    rcases (dictionaryEntry_reads.many n).total bytes with
      ⟨error, before, rest, hlt, hgood, rfl, hbad⟩ | ⟨dictionary, bytes, ⟨rfl, hgood⟩, rfl⟩
    · exact Or.inl ⟨error, .item hn hlt hgood hbad⟩
    rcases (count_reads .entryCount).total bytes with ⟨error, hbad⟩ | ⟨count, rest, hcount, rfl⟩
    · exact Or.inl ⟨error, .entryCount hn hgood hbad⟩
    refine Or.inr ⟨⟨base, dictionary, count⟩, rest, ⟨hn, hgood, hcount⟩, ?_⟩
    simp only [Preamble.bytes, List.append_assoc]

theorem taggedItem_reads (base : Int64) : Reads (taggedItem base) TaggedRecord.bytes
    (TaggedRecord.item base) (fun record => Ticks.Representable (base.toInt + record.delta.toInt))
    (FieldRejected base) where
  takes := by
    rintro ⟨delta, id, value⟩ hticks rest
    simp only [TaggedRecord.bytes, List.append_assoc]
    rw [taggedItem, Reader.bind_ok (Reader.ticks_delta hticks _),
      Reader.bind_ok (Reader.int32_append .tagId id _),
      Reader.bind_ok (Reader.int64_append .value value _)]
    rfl
  reports := by
    intro bytes error h
    cases h with
    | delta hshort => exact Reader.bind_error (Reader.bind_error (Reader.int32_short .delta hshort))
    | @ticks delta rest hticks => exact Reader.bind_error (Reader.ticks_overflow hticks rest)
    | @id delta rest hticks hshort =>
      rw [taggedItem, Reader.bind_ok (Reader.ticks_delta hticks _)]
      exact Reader.bind_error (Reader.int32_short .tagId hshort)
    | @value delta id rest hticks hshort =>
      rw [taggedItem, Reader.bind_ok (Reader.ticks_delta hticks _),
        Reader.bind_ok (Reader.int32_append .tagId id _)]
      exact Reader.bind_error (Reader.int64_short .value hshort)
  total := by
    intro bytes
    rcases Bytes.int32_cases bytes with hshort | ⟨delta, bytes, rfl⟩
    · exact Or.inl ⟨_, .delta hshort⟩
    rcases Decidable.em (Ticks.Representable (base.toInt + delta.toInt)) with hticks | hticks
    · rcases Bytes.int32_cases bytes with hshort | ⟨id, bytes, rfl⟩
      · exact Or.inl ⟨_, .id hticks hshort⟩
      rcases Bytes.int64_cases bytes with hshort | ⟨value, rest, rfl⟩
      · exact Or.inl ⟨_, .value hticks hshort⟩
      refine Or.inr ⟨⟨delta, id, value⟩, rest, hticks, ?_⟩
      simp only [TaggedRecord.bytes, List.append_assoc]
    · exact Or.inl ⟨_, .ticks hticks⟩

end Payload

end MetricReporting
