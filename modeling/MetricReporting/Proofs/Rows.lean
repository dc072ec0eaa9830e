import Mathlib.Data.List.Basic
import Mathlib.Data.List.Forall2

/-!
# Rows of calls that may fail

A call on each item of a row succeeds just if all of them do, and then its results stand beside the
row, item by item.
-/
namespace MetricReporting

variable {α β : Type} {f : α → Option β} {xs : List α} {ys : List β}

theorem mapM_eq_some_iff :
    xs.mapM f = some ys ↔ List.Forall₂ (fun x y => f x = some y) xs ys := by
  induction xs generalizing ys with
  | nil =>
    rw [List.mapM_nil, List.forall₂_nil_left_iff]
    exact Option.some_inj.trans eq_comm
  | cons x xs ih =>
    rw [List.mapM_cons, List.forall₂_cons_left_iff]
    simp only [Option.bind_eq_bind, Option.bind_eq_some_iff, Option.pure_def, Option.some.injEq, ih]
    grind

theorem exists_mapM_iff : (∃ ys, xs.mapM f = some ys) ↔ ∀ x ∈ xs, ∃ y, f x = some y := by
  induction xs with
  | nil => exact iff_of_true ⟨[], rfl⟩ nofun
  | cons x xs ih =>
    rw [List.forall_mem_cons, ← ih, List.mapM_cons]
    simp only [Option.bind_eq_bind, Option.bind_eq_some_iff, Option.pure_def, Option.some.injEq]
    grind

theorem mapM_eq_some {g : α → β} (h : ∀ x ∈ xs, f x = some (g x)) :
    xs.mapM f = some (xs.map g) :=
  mapM_eq_some_iff.2 (List.forall₂_map_right_iff.2 (List.forall₂_same.2 h))

theorem mapM_eq_none {x : α} (hx : x ∈ xs) (hnone : f x = none) : xs.mapM f = none := by
  refine Option.eq_none_iff_forall_ne_some.2 fun ys h => ?_
  obtain ⟨y, hy⟩ := exists_mapM_iff.1 ⟨ys, h⟩ x hx
  rw [hnone] at hy
  cases hy

theorem map_eq_of_forall₂ {γ : Type} {R : α → β → Prop} {g : β → γ} {g' : α → γ}
    (h : List.Forall₂ R xs ys) (hsame : ∀ x y, R x y → g y = g' x) : ys.map g = xs.map g' := by
  induction h with
  | nil => rfl
  | cons hxy _ ih => rw [List.map_cons, List.map_cons, hsame _ _ hxy, ih]

theorem exists_of_forall₂ {R : α → β → Prop} (h : List.Forall₂ R xs ys) {y : β} (hy : y ∈ ys) :
    ∃ x ∈ xs, R x y := by
  induction h with
  | nil => cases hy
  | cons hxy _ ih =>
    rcases List.mem_cons.1 hy with rfl | hrest
    · exact ⟨_, List.mem_cons_self, hxy⟩
    · obtain ⟨x, hx, hR⟩ := ih hrest
      exact ⟨x, List.mem_cons_of_mem _ hx, hR⟩

end MetricReporting
