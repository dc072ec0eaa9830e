import MetricReporting.Config.Format
import MetricReporting.Proofs.Json.RoundTrip
import MetricReporting.Proofs.Toml.Arrangement

/-!
# Configurations read back

A configuration is told by any tree that is alike to its own. So what is saved of an accepted
configuration, in either format, is loaded as the same one, provided that trees and texts are turned
into each other by layers that can be relied on.
-/
namespace MetricReporting

open Value (Alike wordBound portBound)
open Text (IsWord)

theorem isWord_natCast {n : Nat} (h : n < wordBound) : IsWord n := by
  have hleast : Int64.minValue.toInt ≤ 0 := by decide
  exact ⟨Int.le_trans hleast (Int.natCast_nonneg n), Int.ofNat_lt.2 h⟩

/-! ## What both formats can hold -/

section Scalars

variable {fields : List (String × Value)} {room : Nat}

theorem Toml.IsScalar.json {value : Value} (h : Toml.IsScalar value) (room : Nat) :
    Json.Writable room value := by
  cases value with
  | null | boolean | text => exact trivial
  | integer => exact h
  | fraction | list | record | unreadable => exact h.elim

theorem Json.fieldsWritable (h : ∀ field ∈ fields, Json.Writable room field.2) :
    Json.FieldsWritable room fields := by
  induction fields with
  | nil => exact trivial
  | cons field fields ih =>
    exact ⟨h field List.mem_cons_self, ih fun other hmem => h other (List.mem_cons_of_mem _ hmem)⟩

theorem Toml.Plain.json (h : Toml.Plain fields) (hroom : 0 < room) :
    Json.Writable room (.record fields) :=
  ⟨hroom, Json.fieldsWritable fun field hmem => (h.values field hmem).json _⟩

theorem Toml.Writable.json (h : Toml.Writable fields) (hroom : 1 < room) :
    Json.Writable room (.record fields) := by
  refine ⟨by omega, Json.fieldsWritable fun field hmem => ?_⟩
  rcases (h.values field hmem).2 with hscalar | ⟨inner, hrecord, hplain⟩
  · exact hscalar.json _
  · rw [hrecord]
    exact hplain.json (by omega)

end Scalars

/-! ## Records -/

namespace Fields

theorem isRecord_of_nodup {names : List String} {fields : List (String × Value)}
    (hdistinct : (fields.map Prod.fst).Nodup) (hknown : ∀ field ∈ fields, field.1 ∈ names) :
    isRecord names fields = true := by
  simp only [isRecord, Bool.and_eq_true, List.all_eq_true, decide_eq_true_eq, Bool.or_eq_true,
    List.contains_iff_mem]
  refine ⟨fun name _ => ?_, fun field hmem => Or.inl (hknown field hmem)⟩
  have hcount := List.nodup_iff_count_le_one.1 hdistinct name
  rwa [List.count, List.countP_map] at hcount

theorem ofValue?_record {names : List String} {fields : List (String × Value)}
    (h : isRecord names fields = true) (spare : Bool) :
    ofValue? spare names (.record fields) = some fun name => Keyed.find? name fields :=
  if_pos h

theorem isRecord_perm (names : List String) {fields found : List (String × Value)}
    (hperm : found.Perm fields) (hnames : fields.map Prod.fst = names) (hdistinct : names.Nodup) :
    isRecord names found = true ∧ ∀ name, Keyed.find? name found = Keyed.find? name fields := by
  have hfound : (found.map Prod.fst).Perm names := hnames ▸ hperm.map Prod.fst
  have hdistinct' := hfound.nodup_iff.2 hdistinct
  exact ⟨isRecord_of_nodup hdistinct' fun field hmem =>
    hfound.subset (List.mem_map_of_mem hmem), fun name => Keyed.find?_of_perm hperm hdistinct'⟩

end Fields

namespace ReporterSettings

structure FitsWords (settings : ReporterSettings) : Prop where
  flushSize : settings.flushSize < wordBound
  maxFlushSize : settings.maxFlushSize < wordBound
  maxParallelConsumers : settings.maxParallelConsumers < wordBound

theorem ofValue?_eq {settings : ReporterSettings} (h : settings.FitsWords) (spare : Bool)
    {value : Value} (halike : Alike settings.toValue value) :
    ofValue? spare value = some settings := by
  obtain ⟨found, rfl, hperm⟩ := halike.exists_perm (by simp [Toml.isNull, Toml.isTable])
  obtain ⟨hrecord, hfind⟩ := Fields.isRecord_perm fieldNames hperm rfl (by decide)
  have hflush : Keyed.find? "flush_size" found = some (.integer settings.flushSize) :=
    (hfind _).trans (by simp [Keyed.find?])
  have hmax : Keyed.find? "max_flush_size" found = some (.integer settings.maxFlushSize) :=
    (hfind _).trans (by simp [Keyed.find?])
  have hparallel : Keyed.find? "max_parallel_consumers" found =
      some (.integer settings.maxParallelConsumers) :=
    (hfind _).trans (by simp [Keyed.find?])
  rw [ofValue?, Fields.ofValue?_record hrecord]
  simp only [Option.bind_eq_bind, Option.bind_some, Fields.optional, hflush, hmax, hparallel,
    Value.natural?_ofNat h.flushSize, Value.natural?_ofNat h.maxFlushSize,
    Value.natural?_ofNat h.maxParallelConsumers]

theorem plain_toValue {settings : ReporterSettings} (h : settings.FitsWords) :
    ∃ inner, settings.toValue = .record inner ∧ Toml.Plain inner := by
  refine ⟨_, rfl, .of_names fieldNames rfl (by decide) (by decide) ?_⟩
  simp only [List.forall_mem_cons, List.not_mem_nil, false_implies, implies_true, and_true]
  exact ⟨isWord_natCast h.flushSize, isWord_natCast h.maxFlushSize,
    isWord_natCast h.maxParallelConsumers⟩

end ReporterSettings

namespace SenderConfig

def FitsWords : SenderConfig → Prop
  | udp _ maxPacketSize => maxPacketSize < wordBound
  | _ => True

theorem kindAndRest?_perm {kind : String} {rest found : List (String × Value)}
    (hperm : found.Perm ((kindField, .text kind) :: rest))
    (hrest : ∀ field ∈ rest, (field.1 == kindField) = false) :
    ∃ others, kindAndRest? (.record found) = some (kind, .record others) ∧ others.Perm rest := by
  have hkind := hperm.filter fun field => field.1 == kindField
  have hothers := hperm.filter fun field => field.1 != kindField
  have hnone : rest.filter (fun field => field.1 == kindField) = [] :=
    List.filter_eq_nil_iff.2 fun field hmem => by simp [hrest field hmem]
  have hall : rest.filter (fun field => field.1 != kindField) = rest :=
    List.filter_eq_self.2 fun field hmem => by simp [bne, hrest field hmem]
  rw [List.filter_cons_of_pos (by simp), hnone] at hkind
  rw [List.filter_cons_of_neg (by simp), hall] at hothers
  refine ⟨_, ?_, hothers⟩
  rw [kindAndRest?, List.perm_singleton.1 hkind]

theorem ofValue?_eq {sender : SenderConfig} (h : sender.FitsWords) {value : Value}
    (halike : Alike sender.toValue value) : ofValue? value = some sender := by
  cases sender with
  | log =>
    obtain ⟨found, rfl, hperm⟩ := halike.exists_perm (by simp [Toml.isNull, Toml.isTable])
    obtain ⟨others, hkind, hothers⟩ := kindAndRest?_perm hperm nofun
    rw [hothers.eq_nil] at hkind
    rw [ofValue?, hkind]
    rfl
  | udp address maxPacketSize =>
    obtain ⟨found, rfl, hperm⟩ := halike.exists_perm (by simp [Toml.isNull, Toml.isTable])
    obtain ⟨others, hkind, hothers⟩ := kindAndRest?_perm hperm (by simp [kindField])
    have hreadable : (Value.record others).isReadable = true :=
      Value.isReadable_record fun field hmem => by
        have hfield := hothers.subset hmem
        simp only [List.mem_cons, List.not_mem_nil, or_false] at hfield
        rcases hfield with rfl | rfl <;> rfl
    have hbound : maxPacketSize < wordBound := h
    obtain ⟨hrecord, hfind⟩ :=
      Fields.isRecord_perm ["addr", "max_packet_size"] hothers rfl (by decide)
    have haddress : Keyed.find? "addr" others = some (.text address) :=
      (hfind _).trans (by simp [Keyed.find?])
    have hsize : Keyed.find? "max_packet_size" others = some (.integer maxPacketSize) :=
      (hfind _).trans (by simp [Keyed.find?])
    simp only [ofValue?, hkind, hreadable, Fields.ofValue?_record hrecord, Fields.required,
      Fields.optional, haddress, hsize, Value.text?, Value.natural?_ofNat hbound,
      Option.bind_eq_bind, Option.bind_some, Bool.not_true, Bool.false_eq_true, if_false]
  | file directory =>
    obtain ⟨found, rfl, hperm⟩ := halike.exists_perm (by simp [Toml.isNull, Toml.isTable])
    obtain ⟨others, hkind, hothers⟩ := kindAndRest?_perm hperm (by simp [kindField])
    rw [List.perm_singleton.1 hothers] at hkind
    rw [ofValue?, hkind]
    rfl

theorem plain_toValue {sender : SenderConfig} (h : sender.FitsWords) :
    ∃ inner, sender.toValue = .record inner ∧ Toml.Plain inner := by
  cases sender with
  | log =>
    refine ⟨_, rfl, .of_names [kindField] rfl (by decide) (by decide) ?_⟩
    simp [Toml.IsScalar]
  | udp =>
    refine ⟨_, rfl, .of_names [kindField, "addr", "max_packet_size"] rfl (by decide) (by decide) ?_⟩
    simpa [Toml.IsScalar] using isWord_natCast h
  | file =>
    refine ⟨_, rfl, .of_names [kindField, "dir"] rfl (by decide) (by decide) ?_⟩
    simp [Toml.IsScalar]

end SenderConfig

namespace ReportingConfig

structure FitsWords (config : ReportingConfig) : Prop where
  reportingIntervalMs : config.reportingIntervalMs < wordBound
  timeToBeReceivedMs : config.timeToBeReceivedMs < wordBound
  reporter : config.reporter.FitsWords
  sender : config.sender.FitsWords
  metricsPort : ∀ port ∈ config.metricsPort, port < portBound

variable {config : ReportingConfig} {fields : List (String × Value)}

theorem names_toFields (config : ReportingConfig) :
    config.toFields.map Prod.fst = fieldNames :=
  rfl

theorem nodup_fieldNames : fieldNames.Nodup := by
  decide

/-! ## What a record tells -/

/-- The fields of a configuration in any order, each alike to what it was, where those that are null
may be missing. -/
structure Tells (config : ReportingConfig) (fields : List (String × Value)) : Prop where
  isRecord : Fields.isRecord fieldNames fields = true
  find? : ∀ {name value}, Keyed.find? name config.toFields = some value →
    (∃ value', Keyed.find? name fields = some value' ∧ Alike value value') ∨
      value = .null ∧ Keyed.find? name fields = none

theorem exists_tells {value : Value} (h : Alike config.toValue value) :
    ∃ fields, value = .record fields ∧ Tells config fields := by
  obtain ⟨kept, fields, rfl, hkept, hperm⟩ := h.exists_kept
  have hdistinct : (config.toFields.map Prod.fst).Nodup := names_toFields config ▸ nodup_fieldNames
  have hnames := (hperm.map Prod.fst).nodup_iff.2 (hkept.names.nodup hdistinct)
  refine ⟨fields, rfl, Fields.isRecord_of_nodup hnames fun field hmem => ?_, fun hfind => ?_⟩
  · rw [← names_toFields config]
    exact hkept.names.subset ((hperm.map Prod.fst).subset (List.mem_map_of_mem hmem))
  · rw [Keyed.find?_of_perm hperm hnames]
    exact hkept.find? hdistinct hfind

theorem nullable?_nullOr {α : Type} {toValue : α → Value} {read? : Value → Option α}
    (hnull : read? .null = none) {a? : Option α} (hread : ∀ a ∈ a?, read? (toValue a) = some a) :
    Value.nullable? read? (nullOr toValue a?) = some a? := by
  cases a? with
  | none => rfl
  | some a =>
    have hvalue := hread a rfl
    rw [nullOr, Value.nullable?, hvalue, Option.map_some]
    rintro heq
    rw [heq, hnull] at hvalue
    cases hvalue

namespace Tells

theorem exists_alike (h : Tells config fields) {name : String} {value : Value}
    (hfind : Keyed.find? name config.toFields = some value) (hset : Toml.isNull value = false) :
    ∃ value', Keyed.find? name fields = some value' ∧ Alike value value' := by
  refine (h.find? hfind).resolve_right ?_
  rintro ⟨rfl, -⟩
  cases hset

theorem find?_of_plain (h : Tells config fields) {name : String} {value : Value}
    (hfind : Keyed.find? name config.toFields = some value) (hset : Toml.isNull value = false)
    (hplain : Toml.isTable value = false) : Keyed.find? name fields = some value := by
  obtain ⟨value', hfind', halike⟩ := h.exists_alike hfind hset
  rw [hfind', halike.eq_of_plain hplain]

theorem optional_nullOr (h : Tells config fields) {α : Type} {toValue : α → Value}
    (read? : Value → Option α) (hnull : read? .null = none) {a? : Option α}
    (hread : ∀ a ∈ a?, read? (toValue a) = some a) {name : String}
    (hfind : Keyed.find? name config.toFields = some (nullOr toValue a?))
    (hplain : Toml.isTable (nullOr toValue a?) = false) :
    Fields.optional (fun name => Keyed.find? name fields) name (Value.nullable? read?) none =
      some a? := by
  have hnullable := nullable?_nullOr hnull hread
  rcases h.find? hfind with ⟨value', hfind', halike⟩ | ⟨hmissing, habsent⟩
  · rw [halike.eq_of_plain hplain] at hfind'
    simp only [Fields.optional, hfind', hnullable]
  · rw [hmissing] at hnullable
    rw [Fields.optional_of_absent habsent, ← hnullable]
    rfl

theorem ofValue?_eq (h : Tells config fields) (hfits : config.FitsWords) (spare : Bool) :
    ofValue? spare (.record fields) = some config := by
  have hname : Keyed.find? "endpoint_name" fields = some (.text config.endpointName) :=
    h.find?_of_plain (by simp [toFields, Keyed.find?]) rfl rfl
  have haddress : Keyed.find? "metrics_address" fields = some (.text config.metricsAddress) :=
    h.find?_of_plain (by simp [toFields, Keyed.find?]) rfl rfl
  have hinstanceField : Keyed.find? "instance_id" config.toFields =
      some (nullOr .text config.instanceId) := by
    simp [toFields, Keyed.find?]
  have hinstance := h.optional_nullOr Value.text? rfl (fun _ _ => rfl) hinstanceField
    (by cases config.instanceId <;> rfl)
  have hinterval : Keyed.find? "reporting_interval_ms" fields =
      some (.integer config.reportingIntervalMs) :=
    h.find?_of_plain (by simp [toFields, Keyed.find?]) rfl rfl
  have htime : Keyed.find? "time_to_be_received_ms" fields =
      some (.integer config.timeToBeReceivedMs) :=
    h.find?_of_plain (by simp [toFields, Keyed.find?]) rfl rfl
  obtain ⟨reporter, hreporter, hsettings⟩ : ∃ value, Keyed.find? "reporter" fields = some value ∧
      Alike config.reporter.toValue value :=
    h.exists_alike (by simp [toFields, Keyed.find?]) rfl
  obtain ⟨sender, hsender, hconfig⟩ : ∃ value, Keyed.find? "sender" fields = some value ∧
      Alike config.sender.toValue value :=
    h.exists_alike (by simp [toFields, Keyed.find?]) (by cases config.sender <;> rfl)
  have hportField : Keyed.find? "metrics_port" config.toFields =
      some (nullOr (fun port : Nat => .integer port) config.metricsPort) := by
    simp [toFields, Keyed.find?]
  have hport := h.optional_nullOr (Value.natural? portBound) rfl
    (fun port hport => Value.natural?_ofNat (hfits.metricsPort port hport)) hportField
    (by cases config.metricsPort <;> rfl)
  rw [ofValue?, Fields.ofValue?_record h.isRecord]
  simp only [Option.bind_eq_bind, Option.bind_some, Fields.required, hname, haddress, hinstance,
    hport, Value.text?]
  simp only [Fields.optional, hinterval, htime, hreporter, hsender,
    Value.natural?_ofNat hfits.reportingIntervalMs, Value.natural?_ofNat hfits.timeToBeReceivedMs,
    ReporterSettings.ofValue?_eq hfits.reporter spare hsettings,
    SenderConfig.ofValue?_eq hfits.sender hconfig, Option.bind_some]

end Tells

/-! ## What the fields of a configuration are -/

theorem writable_toFields (hfits : config.FitsWords) : Toml.Writable config.toFields where
  distinct := names_toFields config ▸ nodup_fieldNames
  values := by
    have hbare : ∀ name ∈ fieldNames, Toml.IsBareKey name := by decide
    have hinstance : Toml.IsScalar (nullOr .text config.instanceId) := by
      cases config.instanceId <;> exact trivial
    have hport : Toml.IsScalar (nullOr (fun port : Nat => .integer port) config.metricsPort) := by
      cases hport : config.metricsPort with
      | none => exact trivial
      | some port => exact isWord_natCast (Nat.lt_trans (hfits.metricsPort port hport) (by decide))
    have hvalues : ∀ field ∈ config.toFields, Toml.IsScalar field.2 ∨
        ∃ inner, field.2 = .record inner ∧ Toml.Plain inner := by
      simp only [toFields, List.forall_mem_cons, List.not_mem_nil, false_implies, implies_true,
        and_true]
      exact ⟨.inl trivial, .inl trivial, .inl hinstance,
        .inl (isWord_natCast hfits.reportingIntervalMs),
        .inl (isWord_natCast hfits.timeToBeReceivedMs),
        .inr (ReporterSettings.plain_toValue hfits.reporter),
        .inr (SenderConfig.plain_toValue hfits.sender), .inl hport⟩
    exact fun field hmem =>
      ⟨hbare field.1 (names_toFields config ▸ List.mem_map_of_mem hmem), hvalues field hmem⟩

/-! ## Main result -/

theorem load_of_save {layer : ConfigFormat → TextLayer} {format : ConfigFormat} {text : String}
    (hfaithful : (layer format).Faithful) (hvalid : config.validate = .ok ())
    (hfits : config.FitsWords) (hsave : save layer format config = .ok text) :
    load layer format text = .ok config := by
  unfold save at hsave
  split at hsave
  · cases hsave
  · rename_i written hwrite
    obtain rfl : written = text := Except.ok.inj hsave
    obtain ⟨value, hread, halike⟩ := hfaithful (writable_toFields hfits) hwrite
    obtain ⟨fields, rfl, htells⟩ := exists_tells halike
    rw [load, hread, Option.bind_some, htells.ofValue?_eq hfits]
    simp only [hvalid]
    rfl

/-- An accepted configuration can be saved as JSON and is loaded as it was; saved as TOML, where it
can be, it is loaded as it was too. Whatever turns trees into texts and back need only read trees
that are alike to those it has written, and be able to write all of them as JSON. -/
theorem load_save {layer : ConfigFormat → TextLayer} (hfaithful : ∀ format, (layer format).Faithful)
    (hjson : (layer .json).WritesAll) (hvalid : config.validate = .ok ())
    (hfits : config.FitsWords) :
    (∃ text, save layer .json config = .ok text ∧ load layer .json text = .ok config) ∧
      ∀ text, save layer .toml config = .ok text → load layer .toml text = .ok config := by
  refine ⟨?_, fun text hsave => load_of_save (hfaithful .toml) hvalid hfits hsave⟩
  obtain ⟨text, hwrite⟩ := hjson (writable_toFields hfits)
  have hsave : save layer .json config = .ok text := by
    simp only [save, hwrite]
  exact ⟨text, hsave, load_of_save (hfaithful .json) hvalid hfits hsave⟩

theorem layer_faithful (format : ConfigFormat) : format.layer.Faithful := by
  cases format with
  | toml => exact Toml.layer_faithful
  | json =>
    intro fields text hwritable hwrite
    obtain rfl : Json.write 0 (.record fields) = text := Option.some.inj hwrite
    exact ⟨_, Json.read?_write (hwritable.json (by decide)) 0, .same _⟩

/-- Quotes, backslashes and line ends in names, an empty instance id, a port and a receiver. -/
theorem load_save_awkward :
    let config : ReportingConfig :=
      { endpointName := "Sales \"north\" \\ 'a'\nb", metricsAddress := "[monitoring] # \t\x7f",
        instanceId := some "", timeToBeReceivedMs := UInt64.size - 1,
        sender := .udp "127.0.0.1:9100" 1400, metricsPort := some 65535 }
    (∃ text, save ConfigFormat.layer .json config = .ok text ∧
        load ConfigFormat.layer .json text = .ok config) ∧
      ∃ text, save ConfigFormat.layer .toml config = .ok text ∧
        load ConfigFormat.layer .toml text = .ok config := by
  intro config
  have hvalid : config.validate = .ok () := by decide
  have hfits : config.FitsWords := by
    refine ⟨by decide, by decide, ⟨by decide, by decide, by decide⟩, ?_, ?_⟩
    · show 1400 < wordBound
      decide
    · intro port hport
      rw [← Option.some.inj hport]
      decide
  obtain ⟨hjson, htoml⟩ := load_save layer_faithful (fun _ => ⟨_, rfl⟩) hvalid hfits
  exact ⟨hjson, _, rfl, htoml _ rfl⟩

end ReportingConfig

end MetricReporting
