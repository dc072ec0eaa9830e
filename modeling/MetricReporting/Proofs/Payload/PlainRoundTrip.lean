import MetricReporting.Proofs.Payload.PlainGrammar
import MetricReporting.Proofs.Payload.TaggedRoundTrip

/-!
# Round trips of plain payloads

A batch is written with distances of 32 bits, however far apart its ticks are, as long as their
differences are words. Main statement: what is read of it are its values in ascending order of
ticks, every ticks up to a multiple of 2^32, and the right ticks for exactly the entries that lie
near the first one; a payload of rising distances that begins with zero is written again as it was.
-/
namespace MetricReporting.Payload

variable {plain : Plain} {base : Int64} {entry : Entry} {sorted : List Entry}

def Timely (base : Int64) (entry : Entry) : Prop :=
  Ticks.Representable (base.toInt + (delta base entry).toInt)

instance (base : Int64) (entry : Entry) : Decidable (Timely base entry) :=
  inferInstanceAs (Decidable (Ticks.Representable _))

def foundTicks (base : Int64) (entry : Entry) : Int64 :=
  Int64.ofInt (base.toInt + (delta base entry).toInt)

def Plain.body : (plain : Plain) → Entry → plain.Body
  | longValue, entry => entry.value
  | occurrence, _ => ()

def Plain.shown (plain : Plain) (entry : Entry) : plain.Item :=
  plain.item entry.ticks (plain.body entry)

/-! ## Distances of 32 bits -/

theorem delta_toInt_eq_bmod (base : Int64) (entry : Entry) :
    (delta base entry).toInt = (entry.ticks.toInt - base.toInt).bmod (2 ^ 32) := by
  exact Int32.toInt_ofInt

theorem foundTicks_toInt (h : Timely base entry) :
    (foundTicks base entry).toInt = base.toInt + (delta base entry).toInt :=
  h.toInt_ofInt

theorem foundTicks_emod (h : Timely base entry) :
    (foundTicks base entry).toInt % 2 ^ 32 = entry.ticks.toInt % 2 ^ 32 := by
  have hdelta : (delta base entry).toInt % 2 ^ 32 = (entry.ticks.toInt - base.toInt) % 2 ^ 32 := by
    rw [delta_toInt_eq_bmod]
    exact Int.bmod_emod
  rw [foundTicks_toInt h]
  omega

theorem foundTicks_eq_iff (h : Timely base entry) (hle : base ≤ entry.ticks) :
    foundTicks base entry = entry.ticks ↔ entry.ticks.toInt - base.toInt ≤ 2 ^ 31 - 1 := by
  have hdistance := Int64.le_iff_toInt_le.1 hle
  rw [← Int64.toInt_inj, foundTicks_toInt h, delta_toInt_eq_bmod]
  constructor
  · intro hsame
    have hlt := @Int.bmod_lt (entry.ticks.toInt - base.toInt) (2 ^ 32) (by decide)
    omega
  · intro hnear
    rw [Int.bmod_eq_of_le (by omega) (by omega)]
    omega

/-! ## From batches to payloads -/

def recordOf (plain : Plain) (base : Int64) (entry : Entry) : PlainRecord plain :=
  ⟨delta base entry, plain.body entry⟩

def formOf (plain : Plain) (sorted : List Entry) : PlainForm plain :=
  ⟨baseTicks sorted, sorted.map (recordOf plain (baseTicks sorted))⟩

theorem encodeSorted_plain (plain : Plain) (tags : TagTable) (sorted : List Entry) :
    encodeSorted tags sorted plain.format = (formOf plain sorted).bytes := by
  have hrecord : ∀ entry, recordBytes (delta (baseTicks sorted) entry) entry plain.format =
      (recordOf plain (baseTicks sorted) entry).bytes := by
    intro entry
    cases plain with
    | longValue => rfl
    | occurrence => exact (List.append_nil _).symm
  have hfront : frontBytes tags sorted plain.format =
      headerBytes (baseTicks sorted) ++ countBytes sorted.length := by
    cases plain <;> rfl
  simp only [encodeSorted, hfront, hrecord, formOf, PlainForm.bytes, List.length_map,
    List.flatMap_map]

theorem Plain.decode_form {form : PlainForm plain} (h : form.Valid) :
    plain.decode form.bytes = .ok form.items := by
  have htakes := (plain_reads plain).takes form h []
  rw [List.append_nil] at htakes
  rw [decode_eq, htakes]
  rfl

theorem Plain.decode_rejected {payload : Bytes} {error : DecodeError}
    (h : PlainRejected plain payload error) : plain.decode payload = .error error := by
  rw [decode_eq, (plain_reads plain).reports payload error h]
  rfl

/-- A batch is read back if every distance leads to a moment. -/
theorem decode_timely (plain : Plain) (tags : TagTable) (hcount : sorted.length < 2 ^ 31)
    (h : ∀ entry ∈ sorted, Timely (baseTicks sorted) entry) :
    plain.decode (encodeSorted tags sorted plain.format) =
      .ok (sorted.map fun entry =>
        plain.item (foundTicks (baseTicks sorted) entry) (plain.body entry)) := by
  have hvalid : (formOf plain sorted).Valid := by
    constructor
    · rwa [formOf, List.length_map]
    · intro record hrecord
      obtain ⟨entry, hentry, rfl⟩ := List.mem_map.1 hrecord
      exact h entry hentry
  rw [encodeSorted_plain, Plain.decode_form hvalid, PlainForm.items, formOf, List.map_map]
  rfl

theorem decode_untimely (plain : Plain) (tags : TagTable) (hcount : sorted.length < 2 ^ 31)
    {before after : List Entry} (hsplit : sorted = before ++ entry :: after)
    (h : ∀ earlier ∈ before, Timely (baseTicks sorted) earlier)
    (hnot : ¬ Timely (baseTicks sorted) entry) :
    plain.decode (encodeSorted tags sorted plain.format) =
      .error (.timestampOverflow (baseTicks sorted) (delta (baseTicks sorted) entry)) := by
  generalize hbase : baseTicks sorted = base at h hnot ⊢
  subst hsplit
  rw [encodeSorted_plain]
  apply Plain.decode_rejected
  have hbytes : (formOf plain (before ++ entry :: after)).bytes =
      headerBytes base ++ (countBytes (before ++ entry :: after).length ++
        ((before.map (recordOf plain base)).flatMap PlainRecord.bytes ++
          (Bytes.ofInt32 (delta base entry) ++ (plain.bodyBytes (plain.body entry) ++
            (after.map (recordOf plain base)).flatMap PlainRecord.bytes)))) := by
    simp [formOf, hbase, PlainForm.bytes, recordOf, PlainRecord.bytes]
  rw [hbytes]
  refine .record hcount ?_ ?_ (.ticks hnot)
  · simp
  · intro record hrecord
    obtain ⟨earlier, hearlier, rfl⟩ := List.mem_map.1 hrecord
    exact h earlier hearlier

theorem timely_or_first (base : Int64) (row : List Entry) :
    (∀ entry ∈ row, Timely base entry) ∨ ∃ before entry after, row = before ++ entry :: after ∧
      (∀ earlier ∈ before, Timely base earlier) ∧ ¬ Timely base entry := by
  induction row with
  | nil => exact Or.inl nofun
  | cons first rest ih =>
    by_cases hfirst : Timely base first
    · rcases ih with hall | ⟨before, entry, after, rfl, hbefore, hnot⟩
      · exact Or.inl (List.forall_mem_cons.2 ⟨hfirst, hall⟩)
      · exact Or.inr ⟨first :: before, entry, after, rfl,
          List.forall_mem_cons.2 ⟨hfirst, hbefore⟩, hnot⟩
    · exact Or.inr ⟨[], first, rest, rfl, nofun, hfirst⟩

theorem decode_error_iff (plain : Plain) (tags : TagTable) (hcount : sorted.length < 2 ^ 31)
    (error : DecodeError) :
    plain.decode (encodeSorted tags sorted plain.format) = .error error ↔
      ∃ before entry after, sorted = before ++ entry :: after ∧
        (∀ earlier ∈ before, Timely (baseTicks sorted) earlier) ∧
        ¬ Timely (baseTicks sorted) entry ∧
        error = .timestampOverflow (baseTicks sorted) (delta (baseTicks sorted) entry) := by
  constructor
  · intro herror
    rcases timely_or_first (baseTicks sorted) sorted with
      hall | ⟨before, entry, after, hsplit, hbefore, hnot⟩
    · rw [decode_timely plain tags hcount hall] at herror
      cases herror
    · rw [decode_untimely plain tags hcount hsplit hbefore hnot] at herror
      exact ⟨before, entry, after, hsplit, hbefore, hnot, (Except.error.inj herror).symm⟩
  · rintro ⟨before, entry, after, hsplit, hbefore, hnot, rfl⟩
    exact decode_untimely plain tags hcount hsplit hbefore hnot

/-! ## From payloads to batches -/

theorem Plain.reader_eq_ok_iff {payload : Bytes} {items : List plain.Item} :
    plain.reader payload = .ok (items, []) ↔
      ∃ form : PlainForm plain, form.Valid ∧ payload = form.bytes ∧ items = form.items := by
  constructor
  · intro haccepted
    rcases (plain_reads plain).total payload with ⟨error, hbad⟩ | ⟨form, rest, hvalid, rfl⟩
    · rw [(plain_reads plain).reports payload error hbad] at haccepted
      cases haccepted
    · rw [(plain_reads plain).takes form hvalid rest, Except.ok.injEq, Prod.mk.injEq] at haccepted
      obtain ⟨rfl, rfl⟩ := haccepted
      exact ⟨form, hvalid, List.append_nil _, rfl⟩
  · rintro ⟨form, hvalid, rfl, rfl⟩
    have htakes := (plain_reads plain).takes form hvalid []
    rwa [List.append_nil] at htakes

def PlainForm.Rising (form : PlainForm plain) : Prop :=
  (∃ first rest, form.records = first :: rest ∧ first.delta = 0) ∧
    form.records.Pairwise fun a b => a.delta < b.delta

theorem PlainRecord.item_eq_shown {record : PlainRecord plain}
    (h : plain.shown entry = record.item base) :
    entry.ticks = Int64.ofInt (base.toInt + record.delta.toInt) ∧
      plain.body entry = record.body := by
  cases plain with
  | longValue =>
    simp only [Plain.shown, Plain.item, PlainRecord.item, TimedValue.mk.injEq] at h
    exact h
  | occurrence => exact ⟨h, rfl⟩

theorem ticks_of_shown {record : PlainRecord plain} (htimely : record.Timely base)
    (h : plain.shown entry = record.item base) :
    entry.ticks.toInt = base.toInt + record.delta.toInt := by
  rw [(PlainRecord.item_eq_shown h).1]
  exact htimely.toInt_ofInt

theorem recordOf_eq {record : PlainRecord plain} (htimely : record.Timely base)
    (h : plain.shown entry = record.item base) : recordOf plain base entry = record := by
  have hdelta : delta base entry = record.delta := by
    have hle := record.delta.le_toInt
    have hlt := record.delta.toInt_lt
    have hdistance : base.toInt + record.delta.toInt - base.toInt = record.delta.toInt := by omega
    rw [← Int32.toInt_inj, delta_toInt_eq_bmod, ticks_of_shown htimely h, hdistance]
    exact Int.bmod_eq_of_le (by omega) (by omega)
  rw [recordOf, hdelta, (PlainRecord.item_eq_shown h).2]

theorem map_recordOf_eq {again : List Entry} {records : List (PlainRecord plain)}
    (htimely : ∀ record ∈ records, record.Timely base)
    (h : again.map plain.shown = records.map (PlainRecord.item base)) :
    again.map (recordOf plain base) = records := by
  induction records generalizing again with
  | nil =>
    obtain rfl : again = [] := List.map_eq_nil_iff.1 h
    rfl
  | cons record records ih =>
    obtain ⟨hrecord, hrecords⟩ := List.forall_mem_cons.1 htimely
    obtain ⟨entry, rest, rfl, hentry, hrest⟩ := List.map_eq_cons_iff.1 h
    rw [List.map_cons, recordOf_eq hrecord hentry, ih hrecords hrest]

theorem rising_ticks {again : List Entry} {records : List (PlainRecord plain)}
    (htimely : ∀ record ∈ records, record.Timely base)
    (hrising : records.Pairwise fun a b => a.delta < b.delta)
    (h : again.map plain.shown = records.map (PlainRecord.item base)) :
    again.Pairwise fun a b => a.ticks < b.ticks := by
  induction records generalizing again with
  | nil =>
    obtain rfl : again = [] := List.map_eq_nil_iff.1 h
    exact .nil
  | cons record records ih =>
    obtain ⟨hrecord, hrecords⟩ := List.forall_mem_cons.1 htimely
    obtain ⟨hfirst, hrises⟩ := List.pairwise_cons.1 hrising
    obtain ⟨entry, rest, rfl, hentry, hrest⟩ := List.map_eq_cons_iff.1 h
    refine List.pairwise_cons.2 ⟨fun later hlater => ?_, ih hrecords hrises hrest⟩
    obtain ⟨other, hother, hshown⟩ : ∃ other ∈ records, other.item base = plain.shown later := by
      rw [← List.mem_map, ← hrest]
      exact List.mem_map_of_mem hlater
    have hlt := Int32.lt_iff_toInt_lt.1 (hfirst other hother)
    rw [Int64.lt_iff_toInt_lt, ticks_of_shown hrecord hentry,
      ticks_of_shown (hrecords other hother) hshown.symm]
    omega

theorem eq_of_rising {again : List Entry} (h : again.Pairwise fun a b => a.ticks < b.ticks)
    (horder : Entry.Ordering again sorted) : sorted = again := by
  have hdistinct : sorted.Pairwise fun a b => a.ticks ≠ b.ticks := by
    apply (horder.perm.pairwise_iff fun hne => hne.symm).2
    exact h.imp fun hlt => Int64.ne_of_lt hlt
  have hrising : sorted.Pairwise fun a b => a.ticks < b.ticks :=
    (horder.ascending.and hdistinct).imp fun hboth => Int64.lt_of_le_of_ne hboth.1 hboth.2
  apply horder.perm.eq_of_pairwise ?_ hrising h
  intro a b _ _ hlt hgt
  exact absurd (Int64.lt_trans hlt hgt) Int64.lt_irrefl

theorem measured_of_shown {record : PlainRecord plain} (htimely : record.Timely base)
    (h : plain.shown entry = record.item base) : Measured base entry := by
  have hlow := record.delta.le_toInt
  have hhigh := record.delta.toInt_lt
  rw [Measured, ticks_of_shown htimely h]
  exact Ticks.representable_iff.2 ⟨by omega, by omega⟩

theorem encodeSorted_again {form : PlainForm plain} (hvalid : form.Valid) (hrising : form.Rising)
    (tags : TagTable) {again : List Entry} (h : again.map plain.shown = form.items)
    (horder : Entry.Ordering again sorted) :
    encodeSorted? tags sorted plain.format = some form.bytes := by
  obtain ⟨⟨first, rest, hfirst, hzero⟩, hrises⟩ := hrising
  have hbase : baseTicks again = form.base := by
    rw [PlainForm.items, hfirst, List.map_cons] at h
    obtain ⟨entry, others, rfl, hentry, -⟩ := List.map_eq_cons_iff.1 h
    have hticks := (PlainRecord.item_eq_shown hentry).1
    have hnone : form.base.toInt + (0 : Int32).toInt = form.base.toInt := Int.add_zero _
    rw [hzero, hnone, Int64.ofInt_toInt] at hticks
    exact hticks
  have hmeasured : ∀ entry ∈ again, Measured (baseTicks again) entry := by
    intro entry hentry
    obtain ⟨record, hrecord, hshown⟩ : ∃ record ∈ form.records,
        record.item form.base = plain.shown entry := by
      rw [← List.mem_map, ← PlainForm.items, ← h]
      exact List.mem_map_of_mem hentry
    rw [hbase]
    exact measured_of_shown (hvalid.records record hrecord) hshown.symm
  rw [eq_of_rising (rising_ticks hvalid.records hrises h) horder,
    encodeSorted?_of_measured tags plain.format hmeasured, encodeSorted_plain, formOf, hbase,
    map_recordOf_eq hvalid.records h]

/-- Plain payloads, there and back. A batch whose ticks differ by words, and no other, is appended
to the buffer and read in ascending order of ticks, whichever way the sort leaves equal ticks: with
its values, and with ticks that are right up to a multiple of 2^32, and right exactly where the
distance from the least ticks fits 32 bits. Reading it fails only where a distance that was cut
leads out of the 64-bit numbers. The payloads accepted to their last byte are those of the grammar,
and one whose distances begin with zero and rise is written again, byte for byte, from any entries
that show what was read. -/
theorem plain_roundTrip (plain : Plain) (tags : TagTable) :
    (∀ (entries : List Entry) (buffer : Bytes),
      write? plain.format tags entries buffer = none ↔ ¬ Measurable entries) ∧
    (∀ (entries : List Entry) (buffer : Bytes), entries.length < 2 ^ 31 → Measurable entries →
      (∃ sorted bytes, Entry.Ordering entries sorted ∧
        encodeSorted? tags sorted plain.format = some bytes ∧
        write? plain.format tags entries buffer = some (sorted, buffer ++ bytes)) ∧
      ∀ sorted, Entry.Ordering entries sorted → ∃ bytes,
        encodeSorted? tags sorted plain.format = some bytes ∧
        let base := baseTicks sorted
        let decoded := plain.decode bytes
        (∀ entry ∈ entries, base ≤ entry.ticks) ∧
        (entries ≠ [] → ∃ entry ∈ entries, entry.ticks = base) ∧
        ((∀ entry ∈ entries, Timely base entry) → decoded = .ok (sorted.map fun entry =>
          plain.item (foundTicks base entry) (plain.body entry))) ∧
        (∀ error, decoded = .error error ↔ ∃ before entry after,
          sorted = before ++ entry :: after ∧ (∀ earlier ∈ before, Timely base earlier) ∧
          ¬ Timely base entry ∧ error = .timestampOverflow base (delta base entry)) ∧
        ∀ entry ∈ entries, Timely base entry →
          (foundTicks base entry).toInt % 2 ^ 32 = entry.ticks.toInt % 2 ^ 32 ∧
          (foundTicks base entry = entry.ticks ↔
            entry.ticks.toInt - base.toInt ≤ 2 ^ 31 - 1)) ∧
    (∀ (payload : Bytes) (items : List plain.Item), plain.reader payload = .ok (items, []) ↔
      ∃ form : PlainForm plain, form.Valid ∧ payload = form.bytes ∧ items = form.items) ∧
    ∀ form : PlainForm plain, form.Valid → plain.decode form.bytes = .ok form.items ∧
      (form.Rising → ∀ again sorted, again.map plain.shown = form.items →
        Entry.Ordering again sorted →
        encodeSorted? tags sorted plain.format = some form.bytes) := by
  refine ⟨fun entries buffer => write?_eq_none_iff buffer,
    fun entries buffer hcount hmeasurable => ?_, fun payload items => Plain.reader_eq_ok_iff,
    fun form hvalid => ⟨Plain.decode_form hvalid, fun hrising again sorted h horder =>
      encodeSorted_again hvalid hrising tags h horder⟩⟩
  have hbytes : ∀ sorted, Entry.Ordering entries sorted →
      encodeSorted? tags sorted plain.format = some (encodeSorted tags sorted plain.format) :=
    fun sorted horder => encodeSorted?_of_measurable tags plain.format horder hmeasurable
  have hleft := Entry.sortByTicks_ordering entries
  refine ⟨⟨_, _, hleft, hbytes _ hleft, write?_eq_some buffer (hbytes _ hleft)⟩,
    fun sorted horder => ⟨_, hbytes sorted horder, ?_⟩⟩
  intro base decoded
  have hmem : ∀ entry, entry ∈ sorted ↔ entry ∈ entries := fun entry => horder.perm.mem_iff
  have hlength : sorted.length < 2 ^ 31 := by rwa [horder.perm.length_eq]
  have hle : ∀ entry ∈ entries, base ≤ entry.ticks := fun entry hentry =>
    baseTicks_le horder.ascending ((hmem entry).2 hentry)
  refine ⟨hle, fun hne => ?_, fun htimely => ?_, decode_error_iff plain tags hlength,
    fun entry hentry htimely =>
      ⟨foundTicks_emod htimely, foundTicks_eq_iff htimely (hle entry hentry)⟩⟩
  · have hsome : sorted ≠ [] := by
      rintro rfl
      exact hne horder.perm.nil_eq.symm
    obtain ⟨entry, hentry, hticks⟩ := exists_baseTicks hsome
    exact ⟨entry, (hmem entry).1 hentry, hticks⟩
  · exact decode_timely plain tags hlength fun entry hentry => htimely entry ((hmem entry).1 hentry)

def closeForm : PlainForm .longValue where
  base := 100
  records := [⟨0, -1⟩, ⟨7, 4⟩]

/-- Ticks 2^31 apart are read as if they were before the base, at the lower end of the numbers they
cannot be read, and ticks from both ends of the numbers are not written. -/
theorem plain_roundTrip_farApart :
    (∃ bytes, encodeSorted? {} [⟨5, 80, 0⟩, ⟨2147483653, 70, 3⟩] .longValue = some bytes ∧
      Plain.longValue.decode bytes = .ok [⟨5, 80⟩, ⟨-2147483643, 70⟩]) ∧
    (∃ bytes, encodeSorted? {}
        [⟨Int64.minValue, 1, 0⟩, ⟨Int64.minValue + 2147483648, 2, 0⟩] .occurrence = some bytes ∧
      Plain.occurrence.decode bytes =
        .error (.timestampOverflow Int64.minValue Int32.minValue)) ∧
    write? .longValue {} [⟨0, 1, 0⟩, ⟨Int64.minValue, 2, 0⟩] [] = none ∧
    encodeSorted? {} [⟨100, -1, 2⟩, ⟨107, 4, 1⟩] .longValue = some closeForm.bytes := by
  have hfar : Entry.Ordering [⟨2147483653, 70, 3⟩, ⟨5, 80, 0⟩] [⟨5, 80, 0⟩, ⟨2147483653, 70, 3⟩] :=
    ⟨by decide, by decide⟩
  have hlow : Entry.Ordering [⟨Int64.minValue + 2147483648, 2, 0⟩, ⟨Int64.minValue, 1, 0⟩]
      [⟨Int64.minValue, 1, 0⟩, ⟨Int64.minValue + 2147483648, 2, 0⟩] := ⟨by decide, by decide⟩
  have hclose : Entry.Ordering [⟨100, -1, 2⟩, ⟨107, 4, 1⟩] [⟨100, -1, 2⟩, ⟨107, 4, 1⟩] :=
    ⟨by decide, by decide⟩
  have hvalid : closeForm.Valid := ⟨by decide, by decide⟩
  have hrising : closeForm.Rising := ⟨⟨_, _, rfl, rfl⟩, by decide⟩
  obtain ⟨hrefused, hwritten, -, hforms⟩ := plain_roundTrip .longValue {}
  obtain ⟨far, hfarBytes, -, -, hread, -⟩ :=
    (hwritten _ [] (by decide) (by unfold Measurable; decide)).2 _ hfar
  obtain ⟨low, hlowBytes, -, -, -, hfails, -⟩ :=
    ((plain_roundTrip .occurrence {}).2.1 _ [] (by decide) (by unfold Measurable; decide)).2 _ hlow
  refine ⟨⟨far, hfarBytes, hread (by decide)⟩,
    ⟨low, hlowBytes, (hfails _).2 ⟨[⟨Int64.minValue, 1, 0⟩], _, [], rfl, ?_⟩⟩,
    (hrefused _ []).2 (by unfold Measurable; decide),
    (hforms closeForm hvalid).2 hrising _ _ rfl hclose⟩
  decide

end MetricReporting.Payload
