import MetricReporting.Config.Format
import MetricReporting.Proofs.Toml.Documents

/-!
# Trees that are alike

What is read of a text need not be the very tree that the text was written for. A format without
null leaves out the fields that are null, and one with tables writes them behind everything else.
Whoever looks fields up by their names still finds the same.
-/
namespace MetricReporting

namespace Value

open Toml (isNull isTable)

/-- Of each field in turn there is an alike one; a field that is null may be missing. -/
inductive Kept (alike : Value → Value → Prop) :
    List (String × Value) → List (String × Value) → Prop
  | nil : Kept alike [] []
  | missing (name : String) {fields kept : List (String × Value)} :
      Kept alike fields kept → Kept alike ((name, .null) :: fields) kept
  | field (name : String) {value value' : Value} {fields kept : List (String × Value)} :
      alike value value' → Kept alike fields kept →
      Kept alike ((name, value) :: fields) ((name, value') :: kept)

/-- The same but for the order of fields, and for fields that are null, which may be missing. -/
inductive Alike : Value → Value → Prop
  | same (value : Value) : Alike value value
  | record {fields kept found : List (String × Value)} :
      Kept Alike fields kept → kept.Perm found → Alike (.record fields) (.record found)

variable {alike : Value → Value → Prop} {fields kept found : List (String × Value)}
  {value value' : Value}

theorem Kept.refl (hrefl : ∀ value, alike value value) (fields : List (String × Value)) :
    Kept alike fields fields := by
  induction fields with
  | nil => exact .nil
  | cons field fields ih => exact .field field.1 (hrefl field.2) ih

theorem Kept.names (h : Kept alike fields kept) :
    (kept.map Prod.fst).Sublist (fields.map Prod.fst) := by
  induction h with
  | nil => exact .refl []
  | missing name hkept ih => exact ih.cons name
  | field name halike hkept ih => exact ih.cons_cons name

theorem Kept.find? (h : Kept alike fields kept) (hdistinct : (fields.map Prod.fst).Nodup)
    {name : String} (hfind : Keyed.find? name fields = some value) :
    (∃ value', Keyed.find? name kept = some value' ∧ alike value value') ∨
      value = .null ∧ Keyed.find? name kept = none := by
  induction h with
  | nil => cases hfind
  | missing other hkept ih =>
    obtain ⟨hnew, hdistinct⟩ := List.nodup_cons.1 hdistinct
    by_cases hname : other = name
    · -- no later field has this name, so none that is kept has it
      rw [Keyed.find?, if_pos hname] at hfind
      refine Or.inr ⟨(Option.some.inj hfind).symm, Keyed.find?_of_absent fun hmem => hnew ?_⟩
      exact hname ▸ hkept.names.subset hmem
    · rw [Keyed.find?, if_neg hname] at hfind
      exact ih hdistinct hfind
  | @field other v v' rest kept halike hkept ih =>
    by_cases hname : other = name
    · rw [Keyed.find?, if_pos hname] at hfind
      rw [Keyed.find?, if_pos hname]
      exact Or.inl ⟨v', rfl, Option.some.inj hfind ▸ halike⟩
    · rw [Keyed.find?, if_neg hname] at hfind
      rw [Keyed.find?, if_neg hname]
      exact ih (List.nodup_cons.1 hdistinct).2 hfind

theorem Alike.eq_of_plain (h : Alike value value') (hplain : isTable value = false) :
    value' = value := by
  cases h with
  | same => rfl
  | record => cases hplain

theorem Alike.exists_kept (h : Alike (.record fields) value) :
    ∃ kept found, value = .record found ∧ Kept Alike fields kept ∧ found.Perm kept := by
  cases h with
  | same => exact ⟨fields, fields, rfl, .refl .same fields, .refl fields⟩
  | @record _ kept found hkept hperm => exact ⟨kept, found, rfl, hkept, hperm.symm⟩

theorem Kept.eq_of_plain (h : Kept Alike fields kept)
    (hplain : ∀ field ∈ fields, isNull field.2 = false ∧ isTable field.2 = false) :
    kept = fields := by
  induction h with
  | nil => rfl
  | missing name =>
    obtain ⟨hnull, -⟩ := hplain _ List.mem_cons_self
    cases hnull
  | field name halike hkept ih =>
    obtain ⟨⟨-, hvalue⟩, hplain⟩ := List.forall_mem_cons.1 hplain
    rw [halike.eq_of_plain hvalue, ih hplain]

/-- A record of plain values, none of them null, has all its fields in any order. -/
theorem Alike.exists_perm (h : Alike (.record fields) value)
    (hplain : ∀ field ∈ fields, isNull field.2 = false ∧ isTable field.2 = false) :
    ∃ found, value = .record found ∧ found.Perm fields := by
  obtain ⟨kept, found, hvalue, hkept, hperm⟩ := h.exists_kept
  exact ⟨found, hvalue, hkept.eq_of_plain hplain ▸ hperm⟩

theorem isReadable_record (h : ∀ field ∈ fields, field.2.isReadable = true) :
    (record fields).isReadable = true := by
  show haveClean _ fields = true
  induction fields with
  | nil => rfl
  | cons field fields ih =>
    obtain ⟨hvalue, hfields⟩ := List.forall_mem_cons.1 h
    rw [haveClean, ih hfields, Bool.and_true]
    exact hvalue

end Value

namespace TextLayer

/-- What is read of a text is alike to what the text was written for. -/
def Faithful (layer : TextLayer) : Prop :=
  ∀ {fields : List (String × Value)} {text : String}, Toml.Writable fields →
    layer.write? fields = some text →
    ∃ value, layer.read? text = some value ∧ Value.Alike (.record fields) value

/-- There is a text for everything that a document can hold. -/
def WritesAll (layer : TextLayer) : Prop :=
  ∀ {fields : List (String × Value)}, Toml.Writable fields → ∃ text, layer.write? fields = some text

end TextLayer

end MetricReporting
