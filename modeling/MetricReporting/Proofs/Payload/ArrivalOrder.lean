import MetricReporting.Proofs.Payload.Dictionary

/-!
# Payloads and the order of arrival

A batch is sorted before anything of it is written, by a sort that may leave equal ticks either way.
Main statement: batches of the same entries, no two with the same ticks, are written as the same
bytes in every format, or all not written. What stands before the records is the same even where
ticks are equal, and so are the records if the entries that share their ticks are written alike, as
occurrences always are.
-/
namespace MetricReporting

namespace Entry.Ordering

variable {α : Type} {entries others sorted sorted' : List Entry}

theorem map_ticks_eq (h : Ordering entries sorted) (h' : Ordering others sorted')
    (hperm : entries.Perm others) : sorted.map ticks = sorted'.map ticks := by
  have hticks := ((h.perm.trans hperm).trans h'.perm.symm).map ticks
  refine hticks.eq_of_pairwise (fun a b _ _ hle hge => Int64.le_antisymm hle hge) ?_ ?_
  · exact List.pairwise_map.2 h.ascending
  · exact List.pairwise_map.2 h'.ascending

theorem map_eq {f : Entry → α} (h : Ordering entries sorted) (h' : Ordering others sorted')
    (hperm : entries.Perm others)
    (hties : ∀ a ∈ entries, ∀ b ∈ entries, a.ticks = b.ticks → f a = f b) :
    sorted.map f = sorted'.map f := by
  have hticks := h.map_ticks_eq h' hperm
  have hlength : sorted.length = sorted'.length := by
    simpa only [List.length_map] using congrArg List.length hticks
  refine List.ext_getElem (by simpa only [List.length_map] using hlength) fun i hi hi' => ?_
  rw [List.length_map] at hi hi'
  rw [List.getElem_map, List.getElem_map]
  refine hties _ (h.perm.mem_iff.1 (List.getElem_mem hi)) _
    (hperm.mem_iff.2 (h'.perm.mem_iff.1 (List.getElem_mem hi'))) ?_
  rw [← List.getElem_map ticks, ← List.getElem_map ticks]
  · exact List.getElem_of_eq hticks _
  all_goals rwa [List.length_map]

end Entry.Ordering

namespace Payload

variable {tags : TagTable} {entries others sorted sorted' : List Entry} {format : Format}

/-! ## What stands before the records, and the records -/

theorem baseTicks_eq (sorted : List Entry) :
    baseTicks sorted = ((sorted.map Entry.ticks).head?).getD 0 := by
  cases sorted with
  | nil | cons => rfl

theorem baseTicks_of_orderings (h : Entry.Ordering entries sorted)
    (h' : Entry.Ordering others sorted') (hperm : entries.Perm others) :
    baseTicks sorted = baseTicks sorted' := by
  rw [baseTicks_eq, baseTicks_eq, h.map_ticks_eq h' hperm]

theorem frontBytes_of_orderings (tags : TagTable) (format : Format)
    (h : Entry.Ordering entries sorted) (h' : Entry.Ordering others sorted')
    (hperm : entries.Perm others) :
    frontBytes tags sorted format = frontBytes tags sorted' format := by
  have hsorted : sorted.Perm sorted' := (h.perm.trans hperm).trans h'.perm.symm
  have hids : tagIds sorted = tagIds sorted' :=
    tagIds_eq_iff.2 fun id => by simp only [hsorted.mem_iff]
  cases format with
  | longValue | occurrence | tagged =>
    simp only [frontBytes, baseTicks_of_orderings h h' hperm, hids, hsorted.length_eq]

/-- Equal ticks do not show where the entries that share them are written alike. -/
theorem encodeSorted?_of_orderings (tags : TagTable) (h : Entry.Ordering entries sorted)
    (h' : Entry.Ordering others sorted') (hperm : entries.Perm others)
    (hties : ∀ a ∈ entries, ∀ b ∈ entries, a.ticks = b.ticks → ∀ delta,
      recordBytes delta a format = recordBytes delta b format) :
    encodeSorted? tags sorted format = encodeSorted? tags sorted' format := by
  by_cases hmeasurable : Measurable entries
  · have hrecords := h.map_eq (f := fun entry =>
      recordBytes (delta (baseTicks sorted) entry) entry format) h' hperm fun a ha b hb hticks => by
        rw [delta, delta, hticks, hties a ha b hb hticks]
    rw [encodeSorted?_of_measurable tags format h hmeasurable,
      encodeSorted?_of_measurable tags format h' (hmeasurable.of_perm hperm.symm), encodeSorted,
      encodeSorted, frontBytes_of_orderings tags format h h' hperm, List.flatMap_def, hrecords,
      baseTicks_of_orderings h h' hperm, List.flatMap_def]
  · have hothers : ¬ Measurable others := fun hothers => hmeasurable (hothers.of_perm hperm)
    rw [(encodeSorted?_eq_none_iff tags format h).2 hmeasurable,
      (encodeSorted?_eq_none_iff tags format h').2 hothers]

/-- Occurrences with equal ticks are written alike. -/
theorem encodeSorted?_occurrence (tags : TagTable) (h : Entry.Ordering entries sorted)
    (h' : Entry.Ordering others sorted') (hperm : entries.Perm others) :
    encodeSorted? tags sorted .occurrence = encodeSorted? tags sorted' .occurrence :=
  encodeSorted?_of_orderings tags h h' hperm fun _ _ _ _ _ _ => rfl

/-- Payloads do not depend on the order of arrival. Batches of the same entries with ticks of their
own are left in the same order by any sort on ticks, and in each format, with the same table, the
same bytes are appended for them, whatever stood in the buffers before; if some of the ticks differ
by no word, for none of them. -/
theorem payload_ignores_arrival (format : Format) (tags : TagTable) (hperm : entries.Perm others)
    (hdistinct : (entries.map Entry.ticks).Nodup) :
    (∀ sorted sorted', Entry.Ordering entries sorted → Entry.Ordering others sorted' →
      sorted = sorted' ∧ encodeSorted? tags sorted format = encodeSorted? tags sorted' format) ∧
    ∀ buffer buffer',
      (Measurable entries → ∃ sorted appended, Entry.Ordering entries sorted ∧
        Entry.Ordering others sorted ∧ encodeSorted? tags sorted format = some appended ∧
        write? format tags entries buffer = some (sorted, buffer ++ appended) ∧
        write? format tags others buffer' = some (sorted, buffer' ++ appended)) ∧
      (¬ Measurable entries → write? format tags entries buffer = none ∧
        write? format tags others buffer' = none) := by
  have hties : ∀ a ∈ entries, ∀ b ∈ entries, a.ticks = b.ticks → a = b :=
    fun a ha b hb hticks => List.inj_on_of_nodup_map hdistinct ha hb hticks
  have hsame : ∀ {sorted sorted'}, Entry.Ordering entries sorted → Entry.Ordering others sorted' →
      sorted = sorted' := fun h h' => by
    simpa only [List.map_id] using h.map_eq (f := id) h' hperm hties
  constructor
  · intro sorted sorted' h h'
    exact ⟨hsame h h', congrArg (encodeSorted? tags · format) (hsame h h')⟩
  · intro buffer buffer'
    have h := Entry.sortByTicks_ordering entries
    have h' := Entry.sortByTicks_ordering others
    refine ⟨fun hmeasurable => ?_, fun hfar => ⟨(write?_eq_none_iff buffer).2 hfar,
      (write?_eq_none_iff buffer').2 fun hothers => hfar (hothers.of_perm hperm)⟩⟩
    have hbytes := encodeSorted?_of_measurable tags format h hmeasurable
    refine ⟨_, _, h, (hsame h h').symm ▸ h', hbytes, write?_eq_some buffer hbytes, ?_⟩
    have hwrite := write?_eq_some buffer' (hsame h h' ▸ hbytes)
    rwa [← hsame h h'] at hwrite

theorem payload_ignores_arrival_reversed :
    let tags := (TagTable.internAll {} ["a", "b"]).2
    let batch : List Entry := [⟨30, 3, 2⟩, ⟨-9223372036854775000, 1, 1⟩, ⟨20, 2, 7⟩]
    ∃ sorted appended, write? .tagged tags batch [9] = some (sorted, [9] ++ appended) ∧
      write? .tagged tags batch.reverse [] = some (sorted, appended) := by
  intro tags batch
  have hmeasurable : Measurable batch := by
    unfold Measurable
    decide
  obtain ⟨-, hwrite⟩ :=
    payload_ignores_arrival .tagged tags (List.reverse_perm batch).symm (by decide)
  obtain ⟨sorted, appended, -, -, -, hfirst, hsecond⟩ := (hwrite [9] []).1 hmeasurable
  exact ⟨sorted, appended, hfirst, hsecond⟩

end Payload

end MetricReporting
