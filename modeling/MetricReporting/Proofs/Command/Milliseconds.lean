import MetricReporting.Command.Listing
import MetricReporting.Proofs.Rows

/-!
# Milliseconds of a summary

Ticks are turned into milliseconds by a subtraction that not all of them survive and a division that
cuts toward zero. The cut keeps the order on both sides of 1970 and across it, so what a summary
says of its first and last value bounds all of them.
-/
namespace MetricReporting

open Payload (TimedValue)

/-! ## Words in order -/

instance wordLawfulOrderMax : Std.LawfulOrderMax Int64 where
  max_eq_or a b := by
    show (if a ≤ b then b else a) = a ∨ (if a ≤ b then b else a) = b
    split
    · exact Or.inr rfl
    · exact Or.inl rfl
  max_le_iff a b c := by
    show (if a ≤ b then b else a) ≤ c ↔ _
    split
    · rename_i hle
      exact ⟨fun h => ⟨Int64.le_trans hle h, h⟩, And.right⟩
    · rename_i hlt
      exact ⟨fun h => ⟨h, Int64.le_trans (Int64.le_of_lt (Int64.not_le.1 hlt)) h⟩, And.left⟩

/-! ## One moment -/

namespace Ticks

variable {a b millis millis' : Int64}

def earliest : Int64 := -8602016068854775808

theorem earliest_le_iff : earliest ≤ a ↔ Representable (a.toInt - unixEpoch.toInt) := by
  have hlow := a.le_toInt
  have hhigh := a.toInt_lt
  have hearliest : earliest.toInt = -8602016068854775808 := by decide
  have hepoch : unixEpoch.toInt = 621355968000000000 := by decide
  rw [Int64.le_iff_toInt_le, representable_iff, hearliest, hepoch]
  omega

theorem toUnixMillis?_eq_none_iff : toUnixMillis? a = none ↔ a < earliest := by
  rw [← Int64.not_le, earliest_le_iff, toUnixMillis?]
  split <;> simp_all

theorem toUnixMillis?_eq_some (h : toUnixMillis? a = some millis) :
    millis.toInt = (a.toInt - 621355968000000000).tdiv 10000 ∧
      -922337203685477 ≤ millis.toInt ∧ millis.toInt ≤ 860201606885477 := by
  have hepoch : unixEpoch.toInt = 621355968000000000 := by decide
  have hper : perMillisecond.toInt = 10000 := by decide
  have hhigh := a.toInt_lt
  rw [toUnixMillis?, hepoch, hper] at h
  split at h
  · rename_i hword
    have hleast := Int.tdiv_le_tdiv (c := 10000) (by decide) (representable_iff.1 hword).1
    have hgreatest := Int.tdiv_le_tdiv (c := 10000) (by decide)
      (show a.toInt - 621355968000000000 ≤ 8602016068854775807 by omega)
    have hmillis := congrArg Int64.toInt (Option.some.inj h)
    have hleast' : (-9223372036854775808 : Int).tdiv 10000 = -922337203685477 := by decide
    have hgreatest' : (8602016068854775807 : Int).tdiv 10000 = 860201606885477 := by decide
    rw [Int64.toInt_ofInt_of_le (by omega) (by omega)] at hmillis
    omega
  · cases h

theorem exists_millis_iff : (∃ millis, toUnixMillis? a = some millis) ↔ earliest ≤ a := by
  rw [← Option.ne_none_iff_exists', ne_eq, toUnixMillis?_eq_none_iff, Int64.not_lt]

theorem millis_mono (hle : a ≤ b) (ha : toUnixMillis? a = some millis)
    (hb : toUnixMillis? b = some millis') : millis ≤ millis' := by
  rw [Int64.le_iff_toInt_le, (toUnixMillis?_eq_some ha).1, (toUnixMillis?_eq_some hb).1]
  exact Int.tdiv_le_tdiv (by decide) (Int.sub_le_sub_right (Int64.le_iff_toInt_le.1 hle) _)

theorem millis_sub (ha : toUnixMillis? a = some millis) (hb : toUnixMillis? b = some millis') :
    (millis' - millis).toInt = millis'.toInt - millis.toInt := by
  have hfirst := toUnixMillis?_eq_some ha
  have hsecond := toUnixMillis?_eq_some hb
  rw [Int64.toInt_sub]
  exact Int.bmod_eq_of_le (by omega) (by omega)

end Ticks

/-! ## The moments of a summary -/

namespace TagSummary

variable {withValues : Bool} {tag : String} {items : List TimedValue} {item : TimedValue}
  {summary : TagSummary} {values : List Int64} {word : Int64}

theorem leastOf_eq_min? (values : List Int64) : leastOf values = values.min? := by
  cases values <;> rfl

theorem greatestOf_eq_max? (values : List Int64) : greatestOf values = values.max? := by
  cases values <;> rfl

theorem leastOf_eq_some_iff :
    leastOf values = some word ↔ word ∈ values ∧ ∀ other ∈ values, word ≤ other := by
  rw [leastOf_eq_min?, List.min?_eq_some_iff]

theorem greatestOf_eq_some_iff :
    greatestOf values = some word ↔ word ∈ values ∧ ∀ other ∈ values, other ≤ word := by
  rw [greatestOf_eq_max?, List.max?_eq_some_iff]

/-- A summary says of some values how many there are, which is the least and which the greatest, and
when the first and the last of them were recorded. -/
structure Tells (summary : TagSummary) (items : List TimedValue) : Prop where
  count : summary.count = items.length
  least : ∃ item ∈ items, item.value = summary.least
  least_le : ∀ item ∈ items, summary.least ≤ item.value
  greatest : ∃ item ∈ items, item.value = summary.greatest
  le_greatest : ∀ item ∈ items, item.value ≤ summary.greatest
  first : ∃ item ∈ items, Ticks.toUnixMillis? item.ticks = some summary.firstMillis ∧
    ∀ other ∈ items, item.ticks ≤ other.ticks
  last : ∃ item ∈ items, Ticks.toUnixMillis? item.ticks = some summary.lastMillis ∧
    ∀ other ∈ items, other.ticks ≤ item.ticks

/-- The values that a summary shows: all of them in order, each with its milliseconds, or none. -/
def Shows (withValues : Bool) (summary : TagSummary) (items : List TimedValue) : Prop :=
  if withValues then
    List.Forall₂ (fun item shown => Ticks.toUnixMillis? item.ticks = some shown.millis ∧
      item.value = shown.value) items summary.values
  else summary.values = []

theorem Shows.exists_of_mem (h : summary.Shows withValues items) {shown : TimedMillis}
    (hshown : shown ∈ summary.values) :
    ∃ item ∈ items, Ticks.toUnixMillis? item.ticks = some shown.millis := by
  cases withValues with
  | false =>
    have hnone : summary.values = [] := h
    rw [hnone] at hshown
    cases hshown
  | true =>
    obtain ⟨item, hitem, hmillis, -⟩ := exists_of_forall₂ h hshown
    exact ⟨item, hitem, hmillis⟩

theorem timed?_eq_some_iff {shown : TimedMillis} : timed? item = some shown ↔
    Ticks.toUnixMillis? item.ticks = some shown.millis ∧ item.value = shown.value := by
  obtain ⟨millis, value⟩ := shown
  rw [timed?, Option.map_eq_some_iff]
  grind

theorem exists_leastOf (h : items ≠ []) (field : TimedValue → Int64) :
    ∃ item ∈ items, leastOf (items.map field) = some (field item) ∧
      ∀ other ∈ items, field item ≤ field other := by
  obtain ⟨word, hword⟩ : ∃ word, leastOf (items.map field) = some word := by
    rw [leastOf_eq_min?, ← Option.isSome_iff_exists, List.isSome_min?_iff]
    exact fun hnil => h (List.map_eq_nil_iff.1 hnil)
  obtain ⟨hmem, hle⟩ := leastOf_eq_some_iff.1 hword
  obtain ⟨item, hitem, rfl⟩ := List.mem_map.1 hmem
  exact ⟨item, hitem, hword, fun other hother => hle _ (List.mem_map_of_mem hother)⟩

theorem exists_greatestOf (h : items ≠ []) (field : TimedValue → Int64) :
    ∃ item ∈ items, greatestOf (items.map field) = some (field item) ∧
      ∀ other ∈ items, field other ≤ field item := by
  obtain ⟨word, hword⟩ : ∃ word, greatestOf (items.map field) = some word := by
    rw [greatestOf_eq_max?, ← Option.isSome_iff_exists, List.isSome_max?_iff]
    exact fun hnil => h (List.map_eq_nil_iff.1 hnil)
  obtain ⟨hmem, hle⟩ := greatestOf_eq_some_iff.1 hword
  obtain ⟨item, hitem, rfl⟩ := List.mem_map.1 hmem
  exact ⟨item, hitem, hword, fun other hother => hle _ (List.mem_map_of_mem hother)⟩

theorem ofValues?_eq_some_iff : ofValues? withValues tag items = some summary ↔
    ∃ first last shown,
      Ticks.toUnixMillis? ((leastOf (items.map TimedValue.ticks)).getD Ticks.unixEpoch) =
        some first ∧
      Ticks.toUnixMillis? ((greatestOf (items.map TimedValue.ticks)).getD Ticks.unixEpoch) =
        some last ∧
      (if withValues then items.mapM timed? else some []) = some shown ∧
      summary = ⟨tag, items.length, (leastOf (items.map TimedValue.value)).getD 0,
        (greatestOf (items.map TimedValue.value)).getD 0, first, last, shown⟩ := by
  rw [ofValues?]
  cases withValues with
  | false | true =>
    simp only [Option.bind_eq_bind, Option.bind_eq_some_iff, Option.some.injEq, if_true, if_false,
      Bool.false_eq_true]
    grind

theorem exists_ofValues?_iff (h : items ≠ []) :
    (∃ summary, ofValues? withValues tag items = some summary) ↔
      ∀ item ∈ items, Ticks.earliest ≤ item.ticks := by
  obtain ⟨first, hfirst, hleast, hle⟩ := exists_leastOf h TimedValue.ticks
  obtain ⟨last, hlast, hgreatest, -⟩ := exists_greatestOf h TimedValue.ticks
  simp only [ofValues?_eq_some_iff, hleast, hgreatest, Option.getD_some]
  constructor
  · rintro ⟨summary, firstMillis, lastMillis, shown, hmillis, -⟩ item hitem
    exact Int64.le_trans (Ticks.exists_millis_iff.1 ⟨firstMillis, hmillis⟩) (hle item hitem)
  · intro htimely
    obtain ⟨firstMillis, hfirstMillis⟩ := Ticks.exists_millis_iff.2 (htimely first hfirst)
    obtain ⟨lastMillis, hlastMillis⟩ := Ticks.exists_millis_iff.2 (htimely last hlast)
    obtain ⟨shown, hshown⟩ : ∃ shown, (if withValues then items.mapM timed? else some []) =
        some shown := by
      cases withValues with
      | false => exact ⟨[], rfl⟩
      | true =>
        refine exists_mapM_iff.2 fun item hitem => ?_
        obtain ⟨millis, hmillis⟩ := Ticks.exists_millis_iff.2 (htimely item hitem)
        exact ⟨⟨millis, item.value⟩, timed?_eq_some_iff.2 ⟨hmillis, rfl⟩⟩
    exact ⟨_, firstMillis, lastMillis, shown, hfirstMillis, hlastMillis, hshown, rfl⟩

theorem Tells.of_perm {others : List TimedValue} (h : summary.Tells items)
    (hperm : items.Perm others) : summary.Tells others where
  count := h.count.trans hperm.length_eq
  least := h.least.imp fun _ hitem => ⟨hperm.mem_iff.1 hitem.1, hitem.2⟩
  least_le item hitem := h.least_le item (hperm.mem_iff.2 hitem)
  greatest := h.greatest.imp fun _ hitem => ⟨hperm.mem_iff.1 hitem.1, hitem.2⟩
  le_greatest item hitem := h.le_greatest item (hperm.mem_iff.2 hitem)
  first := h.first.imp fun _ hitem => ⟨hperm.mem_iff.1 hitem.1, hitem.2.1, fun other hother =>
    hitem.2.2 other (hperm.mem_iff.2 hother)⟩
  last := h.last.imp fun _ hitem => ⟨hperm.mem_iff.1 hitem.1, hitem.2.1, fun other hother =>
    hitem.2.2 other (hperm.mem_iff.2 hother)⟩

theorem tells_of_ofValues? (hne : items ≠ []) (h : ofValues? withValues tag items = some summary) :
    summary.tag = tag ∧ summary.Tells items ∧ summary.Shows withValues items := by
  obtain ⟨firstMillis, lastMillis, shown, hfirstMillis, hlastMillis, hshown, rfl⟩ :=
    ofValues?_eq_some_iff.1 h
  obtain ⟨least, hleast, hleastOf, hleast_le⟩ := exists_leastOf hne TimedValue.value
  obtain ⟨greatest, hgreatest, hgreatestOf, hle_greatest⟩ := exists_greatestOf hne TimedValue.value
  obtain ⟨first, hfirst, hfirstOf, hfirst_le⟩ := exists_leastOf hne TimedValue.ticks
  obtain ⟨last, hlast, hlastOf, hle_last⟩ := exists_greatestOf hne TimedValue.ticks
  rw [hfirstOf] at hfirstMillis
  rw [hlastOf] at hlastMillis
  rw [hleastOf, hgreatestOf]
  refine ⟨rfl, ⟨rfl, ⟨least, hleast, rfl⟩, hleast_le, ⟨greatest, hgreatest, rfl⟩, hle_greatest,
    ⟨first, hfirst, hfirstMillis, hfirst_le⟩, ⟨last, hlast, hlastMillis, hle_last⟩⟩, ?_⟩
  cases withValues with
  | false => exact (Option.some.inj hshown).symm
  | true => exact (mapM_eq_some_iff.1 hshown).imp fun _ _ => timed?_eq_some_iff.1

theorem Tells.millis_between (h : summary.Tells items) (hitem : item ∈ items) {millis : Int64}
    (hmillis : Ticks.toUnixMillis? item.ticks = some millis) :
    summary.firstMillis ≤ millis ∧ millis ≤ summary.lastMillis := by
  obtain ⟨first, -, hfirst, hle⟩ := h.first
  obtain ⟨last, -, hlast, hge⟩ := h.last
  exact ⟨Ticks.millis_mono (hle item hitem) hfirst hmillis,
    Ticks.millis_mono (hge item hitem) hmillis hlast⟩

theorem Tells.span (h : summary.Tells items) :
    (summary.lastMillis - summary.firstMillis).toInt =
        summary.lastMillis.toInt - summary.firstMillis.toInt ∧
      0 ≤ (summary.lastMillis - summary.firstMillis).toInt := by
  obtain ⟨first, hmem, hfirst, -⟩ := h.first
  obtain ⟨last, -, hlast, -⟩ := h.last
  have hspan := Ticks.millis_sub hfirst hlast
  have hle := Int64.le_iff_toInt_le.1 (h.millis_between hmem hfirst).2
  exact ⟨hspan, by omega⟩

end TagSummary

end MetricReporting
