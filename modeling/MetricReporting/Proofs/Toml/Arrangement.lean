import MetricReporting.Proofs.Config.Alike

/-!
# What is read of a document

The order in which fields are written is not theirs, and those that are null are not written. What
is read of a document is alike to what it was written for.
-/
namespace MetricReporting

namespace Toml

open Value (Alike Kept)

theorem shown_plain {value : Value} (h : isTable value = false) : shown value = value := by
  cases value with
  | record => cases h
  | _ => rfl

theorem isNull_of_isTable {value : Value} (h : isTable value = true) : isNull value = false := by
  cases value with
  | record => rfl
  | _ => cases h

theorem shown_given_plain (fields : List (String × Value)) :
    (given (fields.filter fun field => !isTable field.2)).map
        (fun field => (field.1, shown field.2)) =
      given (fields.filter fun field => !isTable field.2) := by
  refine (List.map_congr_left fun field hmem => ?_).trans (List.map_id _)
  have hplain := (List.mem_filter.1 (List.mem_filter.1 hmem).1).2
  rw [Bool.not_eq_true'] at hplain
  rw [shown_plain hplain, id]

theorem given_tables (fields : List (String × Value)) :
    given (fields.filter fun field => isTable field.2) =
      fields.filter fun field => isTable field.2 := by
  refine List.filter_eq_self.2 fun field hmem => ?_
  rw [isNull_of_isTable (List.mem_filter.1 hmem).2]
  rfl

theorem arranged_perm (fields : List (String × Value)) :
    (arranged fields).Perm ((given fields).map fun field => (field.1, shown field.2)) := by
  rw [arranged, ← shown_given_plain, ← given_tables, ← List.map_append, given, given,
    ← List.filter_append]
  exact ((List.perm_append_comm.trans (List.filter_append_perm _ fields)).filter _).map _

theorem kept_given {change : Value → Value} (h : ∀ value, Alike value (change value))
    (fields : List (String × Value)) :
    Kept Alike fields ((given fields).map fun field => (field.1, change field.2)) := by
  induction fields with
  | nil => exact .nil
  | cons field fields ih =>
    obtain ⟨name, value⟩ := field
    by_cases hnull : value = .null
    · rw [hnull]
      exact .missing name ih
    · rw [given_cons hnull, List.map_cons]
      exact .field name (h value) ih

theorem alike_shown (value : Value) : Alike value (shown value) := by
  cases value with
  | record fields =>
    have hkept := kept_given .same fields
    rw [List.map_id''] at hkept
    · exact .record hkept (.refl _)
    · exact fun _ => rfl
  | _ => exact .same _

theorem alike_arranged (fields : List (String × Value)) :
    Alike (.record fields) (.record (arranged fields)) :=
  .record (kept_given alike_shown fields) (arranged_perm fields).symm

theorem layer_faithful : (ConfigFormat.layer .toml).Faithful := by
  intro fields text hwritable hwrite
  obtain rfl : write fields = text := Option.some.inj hwrite
  exact ⟨_, read?_write hwritable, alike_arranged fields⟩

end Toml

end MetricReporting
