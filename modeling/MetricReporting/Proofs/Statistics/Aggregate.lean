import MetricReporting.Proofs.Keyed
import MetricReporting.Proofs.Statistics.Running
import MetricReporting.Statistics.Aggregate
import Mathlib.Data.List.DropRight
import Mathlib.Data.List.Induction

/-!
# Statistics per metric type against all that was recorded

After any history of values, drops and resets the statistics are those of what was recorded since
the last reset, metric type by metric type: how the types were mixed and in which order the values
came plays no part.
-/
namespace MetricReporting.Aggregate

variable {α : Type}

inductive Act (α : Type)
  | record (metricType : String) (value : α)
  | recordDropped (count : Nat)
  | reset

namespace Act

def isReset : Act α → Bool
  | .reset => true
  | _ => false

def recorded? : Act α → Option (String × α)
  | .record metricType value => some (metricType, value)
  | _ => none

def dropped? : Act α → Option Nat
  | .recordDropped count => some count
  | _ => none

end Act

def sinceReset (acts : List (Act α)) : List (Act α) :=
  acts.rtakeWhile fun act => !act.isReset

def recorded (acts : List (Act α)) : List (String × α) :=
  acts.filterMap Act.recorded?

def valuesOf (metricType : String) (acts : List (Act α)) : List α :=
  ((recorded acts).filter fun pair => pair.1 = metricType).map Prod.snd

def drops (acts : List (Act α)) : List Nat :=
  acts.filterMap Act.dropped?

theorem sinceReset_concat (acts : List (Act α)) (act : Act α) :
    sinceReset (acts ++ [act]) = if act.isReset then [] else sinceReset acts ++ [act] := by
  rw [sinceReset, List.rtakeWhile_concat]
  cases act <;> rfl

theorem recorded_concat (acts : List (Act α)) (act : Act α) :
    recorded (acts ++ [act]) = recorded acts ++ act.recorded?.toList := by
  rw [recorded, List.filterMap_append, recorded]
  cases act <;> rfl

theorem drops_concat (acts : List (Act α)) (act : Act α) :
    drops (acts ++ [act]) = drops acts ++ act.dropped?.toList := by
  rw [drops, List.filterMap_append, drops]
  cases act <;> rfl

theorem valuesOf_concat_self (acts : List (Act α)) (metricType : String) (value : α) :
    valuesOf metricType (acts ++ [.record metricType value]) =
      valuesOf metricType acts ++ [value] := by
  simp [valuesOf, recorded_concat, Act.recorded?]

theorem valuesOf_concat_other {metricType : String} {act : Act α}
    (h : ∀ value, act ≠ .record metricType value) (acts : List (Act α)) :
    valuesOf metricType (acts ++ [act]) = valuesOf metricType acts := by
  cases act with
  | record other value =>
    have hother : other ≠ metricType := fun hsame => h value (hsame ▸ rfl)
    simp [valuesOf, recorded_concat, Act.recorded?, hother]
  | _ => simp [valuesOf, recorded_concat, Act.recorded?]

theorem mem_recorded {metricType : String} {value : α} {acts : List (Act α)} :
    (metricType, value) ∈ recorded acts ↔ .record metricType value ∈ acts := by
  rw [recorded, List.mem_filterMap]
  constructor
  · rintro ⟨act, hmem, hact⟩
    cases act with
    | record other value' =>
      obtain ⟨rfl, rfl⟩ := Prod.mk.inj (Option.some.inj hact)
      exact hmem
    | _ => cases hact
  · exact fun hmem => ⟨_, hmem, rfl⟩

theorem mem_valuesOf {metricType : String} {value : α} {acts : List (Act α)} :
    value ∈ valuesOf metricType acts ↔ .record metricType value ∈ acts := by
  simp only [valuesOf, List.mem_map, List.mem_filter, decide_eq_true_eq]
  constructor
  · rintro ⟨⟨_, _⟩, ⟨hmem, rfl⟩, rfl⟩
    exact mem_recorded.1 hmem
  · exact fun hmem => ⟨(metricType, value), ⟨mem_recorded.2 hmem, rfl⟩, rfl⟩

/-! ## What an aggregate holds -/

variable [StatNumber α]

def act (aggregate : Aggregate α) : Act α → Aggregate α
  | .record metricType value => aggregate.record metricType value
  | .recordDropped count => aggregate.recordDropped count
  | .reset => aggregate.reset

def run (aggregate : Aggregate α) (acts : List (Act α)) : Aggregate α :=
  acts.foldl act aggregate

structure Holds (acts : List (Act α)) (aggregate : Aggregate α) : Prop where
  ascending : aggregate.perMetric.Pairwise fun a b => a.1 < b.1
  found : ∀ metricType, Keyed.find? metricType aggregate.perMetric =
    if valuesOf metricType acts = [] then none
    else some (RunningStats.ofList (valuesOf metricType acts))
  total : aggregate.total = (recorded acts).length
  dropped : aggregate.dropped = (drops acts).sum

variable {acts : List (Act α)} {aggregate : Aggregate α}

theorem holds_empty : Holds [] ({} : Aggregate α) :=
  ⟨List.Pairwise.nil, fun _ => rfl, rfl, rfl⟩

theorem ofList_concat (values : List α) (value : α) :
    RunningStats.ofList (values ++ [value]) = (RunningStats.ofList values).push value :=
  List.foldl_concat _ _ _ _

theorem total_record (aggregate : Aggregate α) (metricType : String) (value : α) :
    (aggregate.record metricType value).total = aggregate.total + 1 := by
  have hpush : ∀ stats : RunningStats α, (stats.push value).count = stats.count + 1 :=
    fun stats => stats.push_count value
  exact Keyed.sum_adjustAscending RunningStats.count _ _ (hpush _) (fun stats => hpush stats) _

theorem Holds.record (h : Holds acts aggregate) (metricType : String) (value : α) :
    Holds (acts ++ [.record metricType value]) (aggregate.record metricType value) := by
  refine ⟨Keyed.ascending_adjustAscending h.ascending _ _, fun other => ?_, ?_, ?_⟩
  · by_cases hother : other = metricType
    · subst hother
      have hne : valuesOf other acts ++ [value] ≠ [] := List.concat_ne_nil _ _
      rw [valuesOf_concat_self, if_neg hne, ofList_concat, Aggregate.record,
        Keyed.find?_adjustAscending h.ascending, h.found]
      split
      · rename_i hnil
        rw [hnil]
        rfl
      · rfl
    · rw [valuesOf_concat_other fun _ hsame => hother (Act.record.inj hsame).1.symm, ← h.found]
      exact Keyed.find?_adjustAscending_other _ hother _ _
  · rw [total_record, h.total, recorded_concat, List.length_append]
    rfl
  · rw [drops_concat]
    exact h.dropped.trans (congrArg List.sum (List.append_nil _).symm)

theorem Holds.recordDropped (h : Holds acts aggregate) (count : Nat) :
    Holds (acts ++ [.recordDropped count]) (aggregate.recordDropped count) := by
  refine ⟨h.ascending, fun metricType => ?_, ?_, ?_⟩
  · rw [valuesOf_concat_other nofun]
    exact h.found metricType
  · rw [recorded_concat]
    exact h.total.trans (congrArg List.length (List.append_nil _).symm)
  · rw [drops_concat, List.sum_append, ← h.dropped]
    rfl

theorem run_holds (acts : List (Act α)) :
    Holds (sinceReset acts) (({} : Aggregate α).run acts) := by
  -- acts are taken off the end: what counts since the last reset is told by the last of them
  induction acts using List.reverseRecOn with
  | nil => exact holds_empty
  | append_singleton acts act ih =>
    rw [sinceReset_concat, run, List.foldl_concat]
    cases act with
    | record metricType value => exact ih.record metricType value
    | recordDropped count => exact ih.recordDropped count
    | reset => exact holds_empty

/-! ## Over exact rationals -/

variable {metricType : String}

theorem Holds.mem_iff {acts : List (Act Rat)} {aggregate : Aggregate Rat}
    (h : Holds acts aggregate) {stats : RunningStats Rat} :
    (metricType, stats) ∈ aggregate.perMetric ↔ valuesOf metricType acts ≠ [] ∧
      stats = RunningStats.ofList (valuesOf metricType acts) := by
  rw [← Keyed.find?_eq_some_iff (Keyed.nodup_of_ascending h.ascending), h.found]
  split
  · rename_i hnil
    exact ⟨nofun, fun hstats => absurd hnil hstats.1⟩
  · rename_i hne
    rw [Option.some_inj, eq_comm]
    exact ⟨fun hstats => ⟨hne, hstats⟩, And.right⟩

theorem Holds.perMetric_eq {acts others : List (Act Rat)} {aggregate other : Aggregate Rat}
    (h : Holds acts aggregate) (h' : Holds others other)
    (hperm : (recorded acts).Perm (recorded others)) : aggregate.perMetric = other.perMetric := by
  refine Keyed.eq_of_find?_eq h.ascending h'.ascending fun metricType => ?_
  have hvalues : (valuesOf metricType acts).Perm (valuesOf metricType others) :=
    (hperm.filter _).map _
  have hnil : valuesOf metricType acts = [] ↔ valuesOf metricType others = [] := by
    rw [← List.length_eq_zero_iff, hvalues.length_eq, List.length_eq_zero_iff]
  simp only [h.found, h'.found, hnil, RunningStats.ofList_perm hvalues]

/-- Statistics are those of all values at once. There is an entry for each metric type that was
recorded since the last reset and for no other, in ascending order; its count, mean, variance and
extremes are those of all its values, in whatever order they came and with whatever between them.
All values and all drops since the last reset are counted. -/
theorem stats_of_recorded (acts : List (Act Rat)) :
    let aggregate := ({} : Aggregate Rat).run acts
    let recent := sinceReset acts
    (aggregate.perMetric.Pairwise fun a b => a.1 < b.1) ∧
    (∀ metricType, metricType ∈ aggregate.perMetric.map Prod.fst ↔
      ∃ value, .record metricType value ∈ recent) ∧
    (∀ pair ∈ aggregate.perMetric, pair.2.Describes (valuesOf pair.1 recent)) ∧
    (aggregate.total = (aggregate.perMetric.map fun pair => pair.2.count).sum ∧
      aggregate.total = (recorded recent).length) ∧
    aggregate.dropped = (drops recent).sum ∧
    ∀ others : List (Act Rat), (recorded recent).Perm (recorded (sinceReset others)) →
      (({} : Aggregate Rat).run others).perMetric = aggregate.perMetric := by
  intro aggregate recent
  have h : Holds recent aggregate := run_holds acts
  refine ⟨h.ascending, fun metricType => ?_, fun pair hpair => ?_, ⟨rfl, h.total⟩, h.dropped,
    fun others hperm => (run_holds others).perMetric_eq h hperm.symm⟩
  · rw [List.mem_map]
    constructor
    · rintro ⟨pair, hpair, rfl⟩
      obtain ⟨value, hvalue⟩ := List.exists_mem_of_ne_nil _ (h.mem_iff.1 hpair).1
      exact ⟨value, mem_valuesOf.1 hvalue⟩
    · rintro ⟨value, hvalue⟩
      have hne : valuesOf metricType recent ≠ [] := List.ne_nil_of_mem (mem_valuesOf.2 hvalue)
      exact ⟨(metricType, _), h.mem_iff.2 ⟨hne, rfl⟩, rfl⟩
  · obtain ⟨hne, hstats⟩ := h.mem_iff.1 hpair
    rw [hstats]
    exact RunningStats.ofList_describes hne

def mixed : List (Act Rat) :=
  [.record "Retries" 9, .recordDropped 5, .reset, .record "ProcessingTime" 1,
    .record "QueueLength" 7, .recordDropped 3, .record "ProcessingTime" 4, .recordDropped 4,
    .record "ProcessingTime" 1]

theorem stats_of_recorded_mixed :
    let aggregate := ({} : Aggregate Rat).run mixed
    (∃ stats, ("ProcessingTime", stats) ∈ aggregate.perMetric ∧ stats.count = 3 ∧ stats.mean = 2 ∧
      stats.variance = 3 ∧ stats.smallest = 1 ∧ stats.largest = 4) ∧
    "Retries" ∉ aggregate.perMetric.map Prod.fst ∧ aggregate.total = 4 ∧ aggregate.dropped = 7 ∧
    (({} : Aggregate Rat).run (mixed.drop 3).reverse).perMetric = aggregate.perMetric := by
  intro aggregate
  obtain ⟨-, hnames, hstats, ⟨-, htotal⟩, hdropped, hperm⟩ := stats_of_recorded mixed
  have hvalues : valuesOf "ProcessingTime" (sinceReset mixed) = [1, 4, 1] := by decide +kernel
  obtain ⟨pair, hpair, hname⟩ := List.mem_map.1 ((hnames "ProcessingTime").2
    ⟨1, mem_valuesOf.1 (hvalues ▸ List.mem_cons_self)⟩)
  obtain ⟨name, stats⟩ := pair
  obtain rfl : name = "ProcessingTime" := hname
  obtain ⟨hcount, hmean, hvariance, hsmallest, hlargest⟩ := hstats _ hpair
  rw [hvalues] at hcount hmean hvariance hsmallest hlargest
  refine
    ⟨⟨stats, hpair, hcount, hmean.trans (by decide +kernel), hvariance.trans (by decide +kernel),
    (Option.some.inj hsmallest).symm.trans (by decide +kernel),
    (Option.some.inj hlargest).symm.trans (by decide +kernel)⟩, ?_, ?_, ?_, ?_⟩
  · intro hmem
    obtain ⟨value, hvalue⟩ := (hnames "Retries").1 hmem
    have hnone : valuesOf "Retries" (sinceReset mixed) = [] := by decide +kernel
    have hheld := mem_valuesOf.2 hvalue
    rw [hnone] at hheld
    cases hheld
  · exact htotal.trans (by decide +kernel)
  · exact hdropped.trans (by decide +kernel)
  · exact hperm (mixed.drop 3).reverse (by decide +kernel)

end MetricReporting.Aggregate
