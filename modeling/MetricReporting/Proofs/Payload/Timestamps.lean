import MetricReporting.Proofs.Payload.PlainRoundTrip

/-!
# Timestamps that survive

A batch whose ticks lie within 32 bits of each other loses nothing in any format: no distance is
cut, and a reader finds the ticks that were recorded.
-/
namespace MetricReporting.Payload

def ticksIn (format : Format) (pool : Pool) (payload : Bytes) : Except DecodeError (List Int64) :=
  match format with
  | .longValue => (decodeLongValues payload).map (List.map TimedValue.ticks)
  | .occurrence => decodeOccurrences payload
  | .tagged => (decodeTagged payload pool).1.map fun messages =>
      (contents messages).map fun item => item.2.ticks

/-- No distance of the batch is cut, and a reader finds the ticks that were recorded. -/
structure Faithful (format : Format) (tags : TagTable) (entries : List Entry) : Prop where
  whole : ∀ entry ∈ entries,
    (delta? (baseTicks (Entry.sortByTicks entries)) entry).map Int32.toInt =
      some (entry.ticks.toInt - (baseTicks (Entry.sortByTicks entries)).toInt)
  read : ∃ payload, encode? format tags entries = some payload ∧
    ∀ pool : Pool, pool.Reachable → entries.length < 2 ^ 31 →
      (∀ name ∈ tags.names, (Bytes.ofText name).length < 2 ^ 31) →
        ∃ found, ticksIn format pool payload = .ok found ∧ found.Perm (entries.map Entry.ticks)

variable {entries sorted : List Entry} {entry : Entry} {tags : TagTable} {pool : Pool}

theorem foundTicks_of_spanned {base : Int64} (h : Spanned base entry) :
    foundTicks base entry = entry.ticks := by
  have hsum : base.toInt + (delta base entry).toInt = entry.ticks.toInt := by
    rw [delta_toInt h]
    omega
  rw [foundTicks, hsum, Int64.ofInt_toInt]

theorem timely_of_spanned {base : Int64} (h : Spanned base entry) : Timely base entry := by
  have hsum : base.toInt + (delta base entry).toInt = entry.ticks.toInt := by
    rw [delta_toInt h]
    omega
  rw [Timely, hsum]
  exact Ticks.representable_toInt _

theorem delta?_of_spanned {base : Int64} (h : Spanned base entry) :
    (delta? base entry).map Int32.toInt = some (entry.ticks.toInt - base.toInt) := by
  have hle := Int64.le_iff_toInt_le.1 h.1
  have hlt := h.2
  have hmeasured : Measured base entry := Ticks.representable_iff.2 ⟨by omega, by omega⟩
  rw [delta?_of_measured hmeasured, Option.map_some, delta_toInt h]

theorem decode_near (plain : Plain) (tags : TagTable) (hcount : sorted.length < 2 ^ 31)
    (hspanned : ∀ entry ∈ sorted, Spanned (baseTicks sorted) entry) :
    plain.decode (encodeSorted tags sorted plain.format) = .ok (sorted.map plain.shown) := by
  rw [decode_timely plain tags hcount fun entry hmem => timely_of_spanned (hspanned entry hmem)]
  refine congrArg Except.ok (List.map_congr_left fun entry hmem => ?_)
  rw [Plain.shown, foundTicks_of_spanned (hspanned entry hmem)]

theorem faithful_of_near (format : Format) (tags : TagTable) (hnear : Near entries) :
    Faithful format tags entries := by
  have horder := Entry.sortByTicks_ordering entries
  have hsorted := hnear.of_perm horder.perm
  have hspanned : ∀ entry ∈ Entry.sortByTicks entries,
      Spanned (baseTicks (Entry.sortByTicks entries)) entry :=
    fun entry hmem => spanned_baseTicks horder.ascending hsorted hmem
  refine ⟨fun entry hmem => delta?_of_spanned (hspanned entry (horder.perm.symm.subset hmem)),
    _, encode?_eq_some_iff.2 ⟨hnear.measurable, rfl⟩, fun pool hpool hcount hnames => ?_⟩
  have hcount' : (Entry.sortByTicks entries).length < 2 ^ 31 := by
    rwa [Entry.sortByTicks_length]
  have hticks := horder.perm.map Entry.ticks
  cases format with
  | longValue =>
    have hdecode := decode_near .longValue tags hcount' hspanned
    have hfound := congrArg (Except.map (List.map TimedValue.ticks)) hdecode
    refine
      ⟨((Entry.sortByTicks entries).map Plain.longValue.shown).map TimedValue.ticks, hfound, ?_⟩
    rw [List.map_map]
    exact hticks
  | occurrence =>
    have hdecode := decode_near .occurrence tags hcount' hspanned
    exact ⟨_, hdecode, hticks⟩
  | tagged =>
    obtain ⟨result, pool', hdecode, hfilled⟩ := decodeTagged_encodeSorted hpool.clean
      horder.ascending hsorted hcount' (nameOf_length hnames)
    refine ⟨(contents (result.map Prod.snd)).map fun item => item.2.ticks, ?_, ?_⟩
    · rw [ticksIn, hdecode]
      rfl
    · have hcontents := (contents_perm hfilled).map fun item => item.2.ticks
      rw [List.map_map] at hcontents
      exact hcontents.trans hticks

end MetricReporting.Payload
