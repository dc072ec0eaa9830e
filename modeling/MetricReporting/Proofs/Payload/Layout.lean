import MetricReporting.Payload.Encode
import MetricReporting.Proofs.Rows
import Mathlib.Algebra.Group.Int.Defs
import Mathlib.Logic.Basic

/-!
# What is written of a batch

A batch is put in an ascending order of ticks, so the base is its least ticks and no distance is
negative. It is written where all distances fit a word, and the writer panics where one does not;
that is told by the ticks of the batch, in whatever order they come.
-/
namespace MetricReporting

/-- `sorted` is the batch in an ascending order of ticks; the order among equal ticks is free. -/
structure Entry.Ordering (entries sorted : List Entry) : Prop where
  perm : sorted.Perm entries
  ascending : sorted.Pairwise fun a b => a.ticks ≤ b.ticks

theorem Entry.place_ascending (entry : Entry) {row : List Entry}
    (h : row.Pairwise fun a b => a.ticks ≤ b.ticks) :
    (place entry row).Pairwise fun a b => a.ticks ≤ b.ticks := by
  induction row with
  | nil => exact List.pairwise_singleton _ _
  | cons other rest ih =>
    obtain ⟨hother, hrest⟩ := List.pairwise_cons.1 h
    rw [place]
    split
    · rename_i hle
      refine List.pairwise_cons.2 ⟨fun a ha => ?_, h⟩
      rcases List.mem_cons.1 ha with rfl | hmem
      · exact hle
      · exact Int64.le_trans hle (hother a hmem)
    · rename_i hnot
      refine List.pairwise_cons.2 ⟨fun a ha => ?_, ih hrest⟩
      rcases List.mem_cons.1 ((place_perm entry rest).mem_iff.1 ha) with rfl | hmem
      · exact (Int64.le_total _ _).resolve_left hnot
      · exact hother a hmem

theorem Entry.sortByTicks_ordering (entries : List Entry) :
    Entry.Ordering entries (sortByTicks entries) := by
  refine ⟨sortByTicks_perm entries, ?_⟩
  induction entries with
  | nil => exact List.Pairwise.nil
  | cons entry rest ih => exact place_ascending entry ih

namespace Payload

def Near (entries : List Entry) : Prop :=
  ∀ a ∈ entries, ∀ b ∈ entries, a.ticks.toInt - b.ticks.toInt < 2 ^ 31

/-- The differences between the ticks of a batch fit words. -/
def Measurable (entries : List Entry) : Prop :=
  ∀ a ∈ entries, ∀ b ∈ entries, Ticks.Representable (a.ticks.toInt - b.ticks.toInt)

def Measured (base : Int64) (entry : Entry) : Prop :=
  Ticks.Representable (entry.ticks.toInt - base.toInt)

/-- The distance of an entry from the base, cut to 32 bits. -/
def delta (base : Int64) (entry : Entry) : Int32 :=
  Int32.ofInt (entry.ticks.toInt - base.toInt)

/-- What is written of a batch in order if all distances fit words. -/
def encodeSorted (tags : TagTable) (sorted : List Entry) (format : Format) : Bytes :=
  frontBytes tags sorted format ++
    sorted.flatMap fun entry => recordBytes (delta (baseTicks sorted) entry) entry format

variable {entries sorted : List Entry} {entry : Entry} {base : Int64} {format : Format}
  {tags : TagTable}

/-! ## The base -/

theorem baseTicks_le (h : sorted.Pairwise fun a b => a.ticks ≤ b.ticks) (hmem : entry ∈ sorted) :
    baseTicks sorted ≤ entry.ticks := by
  cases sorted with
  | nil => cases hmem
  | cons first rest =>
    rcases List.mem_cons.1 hmem with rfl | hrest
    · exact Int64.le_refl _
    · exact (List.pairwise_cons.1 h).1 entry hrest

theorem exists_baseTicks (h : sorted ≠ []) : ∃ entry ∈ sorted, entry.ticks = baseTicks sorted := by
  cases sorted with
  | nil => exact absurd rfl h
  | cons first rest => exact ⟨first, List.mem_cons_self, rfl⟩

/-! ## Distances -/

theorem delta?_of_measured (h : Measured base entry) :
    delta? base entry = some (delta base entry) :=
  if_pos h

theorem delta?_eq_none_iff : delta? base entry = none ↔ ¬ Measured base entry := by
  simp [delta?, Measured]

theorem Near.of_perm (hnear : Near entries) (hperm : sorted.Perm entries) : Near sorted :=
  fun a ha b hb => hnear a (hperm.subset ha) b (hperm.subset hb)

theorem Near.measurable (hnear : Near entries) : Measurable entries := by
  intro a ha b hb
  have hforth := hnear a ha b hb
  have hback := hnear b hb a ha
  exact Ticks.representable_iff.2 ⟨by omega, by omega⟩

theorem Measurable.of_perm (h : Measurable entries) (hperm : sorted.Perm entries) :
    Measurable sorted :=
  fun a ha b hb => h a (hperm.subset ha) b (hperm.subset hb)

theorem measured_iff (horder : Entry.Ordering entries sorted) :
    (∀ entry ∈ sorted, Measured (baseTicks sorted) entry) ↔ Measurable entries := by
  constructor
  · intro hmeasured a ha b hb
    have hbase : ∀ entry ∈ entries, (baseTicks sorted).toInt ≤ entry.ticks.toInt :=
      fun entry hmem => Int64.le_iff_toInt_le.1
        (baseTicks_le horder.ascending (horder.perm.mem_iff.2 hmem))
    have hleast := hbase a ha
    have hleast' := hbase b hb
    have hfits := Ticks.representable_iff.1 (hmeasured a (horder.perm.mem_iff.2 ha))
    have hfits' := Ticks.representable_iff.1 (hmeasured b (horder.perm.mem_iff.2 hb))
    exact Ticks.representable_iff.2 ⟨by omega, by omega⟩
  · intro hmeasurable entry hmem
    obtain ⟨first, hfirst, hticks⟩ := exists_baseTicks (List.ne_nil_of_mem hmem)
    rw [Measured, ← hticks]
    exact hmeasurable entry (horder.perm.mem_iff.1 hmem) first (horder.perm.mem_iff.1 hfirst)

/-! ## Batches -/

theorem encodeSorted?_of_measured (tags : TagTable) (format : Format)
    (h : ∀ entry ∈ sorted, Measured (baseTicks sorted) entry) :
    encodeSorted? tags sorted format = some (encodeSorted tags sorted format) := by
  have hrecords : sorted.mapM (record? format (baseTicks sorted)) = some (sorted.map fun entry =>
      recordBytes (delta (baseTicks sorted) entry) entry format) := by
    refine mapM_eq_some fun entry hmem => ?_
    rw [record?, delta?_of_measured (h entry hmem), Option.map_some]
  rw [encodeSorted?, hrecords, Option.map_some, encodeSorted, List.flatMap_def]

theorem encodeSorted?_of_far (tags : TagTable) (format : Format) (hmem : entry ∈ sorted)
    (hfar : ¬ Measured (baseTicks sorted) entry) : encodeSorted? tags sorted format = none := by
  have hnone : record? format (baseTicks sorted) entry = none := by
    rw [record?, delta?_eq_none_iff.2 hfar, Option.map_none]
  rw [encodeSorted?, mapM_eq_none hmem hnone, Option.map_none]

theorem encodeSorted?_of_measurable (tags : TagTable) (format : Format)
    (horder : Entry.Ordering entries sorted) (h : Measurable entries) :
    encodeSorted? tags sorted format = some (encodeSorted tags sorted format) :=
  encodeSorted?_of_measured tags format ((measured_iff horder).2 h)

theorem encodeSorted?_eq_none_iff (tags : TagTable) (format : Format)
    (horder : Entry.Ordering entries sorted) :
    encodeSorted? tags sorted format = none ↔ ¬ Measurable entries := by
  constructor
  · intro hnone h
    rw [encodeSorted?_of_measurable tags format horder h] at hnone
    cases hnone
  · intro hnot
    rw [← measured_iff horder] at hnot
    obtain ⟨entry, hfar⟩ := not_forall.1 hnot
    obtain ⟨hmem, hfar⟩ := Classical.not_imp.1 hfar
    exact encodeSorted?_of_far tags format hmem hfar

theorem encodeSorted?_eq_some_iff (horder : Entry.Ordering entries sorted) {bytes : Bytes} :
    encodeSorted? tags sorted format = some bytes ↔
      Measurable entries ∧ bytes = encodeSorted tags sorted format := by
  by_cases h : Measurable entries
  · rw [encodeSorted?_of_measurable tags format horder h, Option.some.injEq, and_iff_right h]
    exact eq_comm
  · rw [(encodeSorted?_eq_none_iff tags format horder).2 h]
    simp [h]

theorem encode?_eq_some_iff {bytes : Bytes} : encode? format tags entries = some bytes ↔
    Measurable entries ∧ bytes = encodeSorted tags (Entry.sortByTicks entries) format :=
  encodeSorted?_eq_some_iff (Entry.sortByTicks_ordering entries)

theorem encode?_eq_none_iff : encode? format tags entries = none ↔ ¬ Measurable entries :=
  encodeSorted?_eq_none_iff tags format (Entry.sortByTicks_ordering entries)

theorem write?_eq_some (buffer : Bytes) {bytes : Bytes}
    (h : encodeSorted? tags (Entry.sortByTicks entries) format = some bytes) :
    write? format tags entries buffer = some (Entry.sortByTicks entries, buffer ++ bytes) := by
  rw [write?, h, Option.map_some]

theorem write?_eq_none_iff (buffer : Bytes) :
    write? format tags entries buffer = none ↔ ¬ Measurable entries := by
  rw [← @encode?_eq_none_iff entries format tags, write?, Option.map_eq_none_iff, encode?]

end Payload

end MetricReporting
