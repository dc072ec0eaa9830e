import MetricReporting.Statistics.Running
import Mathlib.Algebra.BigOperators.Group.List.Basic
import Mathlib.Algebra.Order.Ring.Rat
import Mathlib.Tactic.FieldSimp
import Mathlib.Tactic.Ring

/-!
# Running statistics against all values at once

Over exact rationals, statistics that are updated with one value at a time are those of the values
taken all at once. What an update keeps is that the squares are summed up around the mean of the
values so far: moving the point that distances are taken from by `d` adds `d ^ 2` for each value,
since the distances from the mean itself cancel.
-/
namespace MetricReporting

def squaredDistances (values : List Rat) (point : Rat) : Rat :=
  (values.map fun value => (value - point) ^ 2).sum

theorem squaredDistances_concat (values : List Rat) (value point : Rat) :
    squaredDistances (values ++ [value]) point =
      squaredDistances values point + (value - point) ^ 2 := by
  simp only [squaredDistances, List.map_append, List.sum_append, List.map_cons, List.map_nil,
    List.sum_cons, List.sum_nil, add_zero]

theorem squaredDistances_perm {values others : List Rat} (h : values.Perm others) (point : Rat) :
    squaredDistances values point = squaredDistances others point :=
  (h.map _).sum_eq

theorem squaredDistances_shift (values : List Rat) (point other : Rat) :
    squaredDistances values other = squaredDistances values point +
      2 * (point - other) * (values.sum - values.length * point) +
      values.length * (point - other) ^ 2 := by
  induction values with
  | nil => simp [squaredDistances]
  | cons value rest ih =>
    simp only [squaredDistances, List.map_cons, List.sum_cons, List.length_cons] at ih ⊢
    rw [ih]
    push_cast
    ring

/-! ## Extremes of a list with one more value -/

section Extremes

variable {α : Type} {values : List α} {extreme : α}

theorem min?_concat [Min α] (h : values.min? = some extreme) (value : α) :
    (values ++ [value]).min? = some (min extreme value) := by
  cases values with
  | nil => cases h
  | cons first rest =>
    rw [List.min?_cons'] at h
    rw [List.cons_append, List.min?_cons', List.foldl_concat, Option.some.inj h]

theorem max?_concat [Max α] (h : values.max? = some extreme) (value : α) :
    (values ++ [value]).max? = some (max extreme value) := by
  cases values with
  | nil => cases h
  | cons first rest =>
    rw [List.max?_cons'] at h
    rw [List.cons_append, List.max?_cons', List.foldl_concat, Option.some.inj h]

end Extremes

theorem smaller_eq_min (a b : Rat) : StatNumber.smaller a b = min a b := by
  rw [min_comm, min_def_lt]
  rfl

theorem larger_eq_max (a b : Rat) : StatNumber.larger a b = max a b := by
  rw [max_def_lt]
  rfl

attribute [ext] RunningStats

namespace RunningStats

structure Gathered (values : List Rat) (stats : RunningStats Rat) : Prop where
  count : stats.count = values.length
  sum : stats.count * stats.mean = values.sum
  squares : stats.squares = squaredDistances values stats.mean
  extremes : values ≠ [] → values.min? = some stats.smallest ∧ values.max? = some stats.largest

variable {values others : List Rat} {stats : RunningStats Rat}

theorem gathered_empty : Gathered [] empty :=
  ⟨rfl, mul_zero _, rfl, fun hne => absurd rfl hne⟩

theorem push_first (h : stats.count = 0) (value : Rat) :
    stats.push value = ⟨1, value, 0, value, value⟩ := by
  rw [push, if_pos h]
  rfl

theorem push_later (h : stats.count ≠ 0) (value : Rat) :
    let mean := stats.mean + (value - stats.mean) / (stats.count + 1 : ℕ)
    stats.push value = ⟨stats.count + 1, mean,
      stats.squares + (value - stats.mean) * (value - mean), min stats.smallest value,
      max stats.largest value⟩ := by
  rw [push, if_neg h, smaller_eq_min, larger_eq_max]
  rfl

/-- A later value moves the mean, and all distances with it. -/
theorem Gathered.push_later (h : Gathered values stats) (hcount : stats.count ≠ 0) (value : Rat) :
    Gathered (values ++ [value]) (stats.push value) := by
  have hne : values ≠ [] := fun hnil => hcount (by rw [h.count, hnil, List.length_nil])
  obtain ⟨hmin, hmax⟩ := h.extremes hne
  have hnext : (stats.count : Rat) + 1 ≠ 0 := Nat.cast_add_one_ne_zero _
  rw [RunningStats.push_later hcount]
  refine ⟨?_, ?_, ?_, fun _ => ⟨min?_concat hmin value, max?_concat hmax value⟩⟩
  · rw [List.length_append, List.length_singleton, h.count]
  · rw [List.sum_append, List.sum_singleton, ← h.sum]
    push_cast
    field_simp
    ring
  · -- all distances move with the mean; those from the mean before cancel
    rw [squaredDistances_concat, squaredDistances_shift values stats.mean, ← h.squares, ← h.sum,
      ← h.count]
    push_cast
    field_simp
    ring

theorem Gathered.push (h : Gathered values stats) (value : Rat) :
    Gathered (values ++ [value]) (stats.push value) := by
  by_cases hcount : stats.count = 0
  · obtain rfl : values = [] := List.length_eq_zero_iff.1 (h.count.symm.trans hcount)
    rw [push_first hcount]
    refine ⟨rfl, ?_, ?_, fun _ => ⟨rfl, rfl⟩⟩
    · rw [Nat.cast_one, one_mul, List.nil_append, List.sum_singleton]
    · simp [squaredDistances]
  · exact h.push_later hcount value

theorem Gathered.foldl_push (h : Gathered values stats) (more : List Rat) :
    Gathered (values ++ more) (more.foldl RunningStats.push stats) := by
  induction more generalizing values stats with
  | nil => rwa [List.append_nil]
  | cons value more ih =>
    have hnext := ih (h.push value)
    rwa [List.append_assoc, List.singleton_append] at hnext

theorem gathered_ofList (values : List Rat) : Gathered values (ofList values) :=
  gathered_empty.foldl_push values

theorem Gathered.mean_eq (h : Gathered values stats) (hne : values ≠ []) :
    stats.mean = values.sum / values.length := by
  have hlength : (values.length : Rat) ≠ 0 :=
    Nat.cast_ne_zero.2 fun hzero => hne (List.length_eq_zero_iff.1 hzero)
  rw [eq_div_iff hlength, ← h.sum, h.count, mul_comm]

/-! ## All values at once -/

structure Describes (values : List Rat) (stats : RunningStats Rat) : Prop where
  count : stats.count = values.length
  mean : stats.mean = values.sum / values.length
  variance : stats.variance = if values.length < 2 then 0
    else squaredDistances values (values.sum / values.length) / (values.length - 1)
  smallest : values.min? = some stats.smallest
  largest : values.max? = some stats.largest

theorem ofList_describes (hne : values ≠ []) : Describes values (ofList values) := by
  have h := gathered_ofList values
  obtain ⟨hmin, hmax⟩ := h.extremes hne
  refine ⟨h.count, h.mean_eq hne, ?_, hmin, hmax⟩
  rw [variance, h.count]
  split
  · rfl
  · rename_i hlength
    have hpred : ((values.length - 1 : ℕ) : Rat) = values.length - 1 := Nat.cast_pred (by omega)
    rw [h.squares, h.mean_eq hne, ← hpred]
    rfl

theorem min?_of_perm {least : Rat} (h : values.Perm others) (hleast : values.min? = some least) :
    others.min? = some least := by
  obtain ⟨hmem, hle⟩ := List.min?_eq_some_iff.1 hleast
  exact List.min?_eq_some_iff.2 ⟨h.mem_iff.1 hmem,
    fun value hvalue => hle value (h.mem_iff.2 hvalue)⟩

theorem max?_of_perm {greatest : Rat} (h : values.Perm others)
    (hgreatest : values.max? = some greatest) : others.max? = some greatest := by
  obtain ⟨hmem, hle⟩ := List.max?_eq_some_iff.1 hgreatest
  exact List.max?_eq_some_iff.2 ⟨h.mem_iff.1 hmem,
    fun value hvalue => hle value (h.mem_iff.2 hvalue)⟩

theorem ofList_perm (h : values.Perm others) : ofList values = ofList others := by
  by_cases hne : values = []
  · obtain rfl : others = [] := by rwa [hne, List.nil_perm] at h
    rw [hne]
  · have hne' : others ≠ [] := fun hnil => hne (by rwa [hnil, List.perm_nil] at h)
    have hvalues := ofList_describes hne
    have hothers := ofList_describes hne'
    have hcount : (ofList values).count = (ofList others).count := by
      rw [hvalues.count, hothers.count, h.length_eq]
    have hmean : (ofList values).mean = (ofList others).mean := by
      rw [hvalues.mean, hothers.mean, h.sum_eq, h.length_eq]
    have hsquares : (ofList values).squares = (ofList others).squares := by
      rw [(gathered_ofList values).squares, (gathered_ofList others).squares, hmean,
        squaredDistances_perm h]
    have hsmallest : (ofList values).smallest = (ofList others).smallest :=
      Option.some.inj ((min?_of_perm h hvalues.smallest).symm.trans hothers.smallest)
    have hlargest : (ofList values).largest = (ofList others).largest :=
      Option.some.inj ((max?_of_perm h hvalues.largest).symm.trans hothers.largest)
    exact RunningStats.ext hcount hmean hsquares hsmallest hlargest

end RunningStats

end MetricReporting
