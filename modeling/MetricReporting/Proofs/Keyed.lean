import MetricReporting.Keyed
import Mathlib.Data.List.Basic
import Mathlib.Data.List.Nodup

/-!
# What is found under keys

What is found under a key is the first of its pairs; where keys differ, it is its only one, so the
order of the pairs does not matter. A new key goes to the end, or to its place where keys ascend.
-/
namespace MetricReporting.Keyed

variable {κ α β : Type} [DecidableEq κ] {key : κ} {pairs others : List (κ × α)}

theorem find?_eq_head? (key : κ) (pairs : List (κ × α)) :
    find? key pairs = ((pairs.filter fun pair => pair.1 = key).head?).map Prod.snd := by
  induction pairs with
  | nil => rfl
  | cons pair rest ih =>
    by_cases h : pair.1 = key
    · simp [find?, h]
    · simp [find?, h, ih]

theorem find?_eq_none_iff :
    find? key pairs = none ↔ ∀ pair ∈ pairs, pair.1 ≠ key := by
  rw [find?_eq_head?, Option.map_eq_none_iff, List.head?_eq_none_iff, List.filter_eq_nil_iff]
  simp

theorem mem_of_find?_eq_some {value : α} (h : find? key pairs = some value) :
    (key, value) ∈ pairs := by
  rw [find?_eq_head?, Option.map_eq_some_iff] at h
  obtain ⟨⟨other, found⟩, hhead, rfl⟩ := h
  obtain ⟨hmem, hkey⟩ := List.mem_filter.1 (List.mem_of_head? hhead)
  obtain rfl : other = key := of_decide_eq_true hkey
  exact hmem

theorem find?_map (key : κ) (value : κ → α) (keys : List κ) :
    find? key (keys.map fun k => (k, value k)) = if key ∈ keys then some (value key) else none := by
  split
  · rename_i hmem
    refine find?_eq_some (List.mem_map.2 ⟨key, hmem, rfl⟩) fun pair hpair hkey => ?_
    obtain ⟨k, -, rfl⟩ := List.mem_map.1 hpair
    exact congrArg value hkey
  · rename_i hnot
    rw [find?_eq_none_iff]
    intro pair hpair hkey
    obtain ⟨k, hk, rfl⟩ := List.mem_map.1 hpair
    exact hnot (hkey ▸ hk)

/-! ## New keys -/

theorem find?_append_of_absent (h : key ∉ pairs.map Prod.fst) (others : List (κ × α)) :
    find? key (pairs ++ others) = find? key others := by
  induction pairs with
  | nil => rfl
  | cons pair pairs ih =>
    rw [List.map_cons, List.mem_cons, not_or] at h
    rw [List.cons_append, find?, if_neg (Ne.symm h.1), ih h.2]

theorem find?_of_absent (h : key ∉ pairs.map Prod.fst) : find? key pairs = none := by
  rw [← List.append_nil pairs, find?_append_of_absent h, find?]

theorem adjust_append_of_absent (h : key ∉ pairs.map Prod.fst) (change : Option α → α)
    (others : List (κ × α)) :
    adjust key change (pairs ++ others) = pairs ++ adjust key change others := by
  induction pairs with
  | nil => rfl
  | cons pair pairs ih =>
    rw [List.map_cons, List.mem_cons, not_or] at h
    rw [List.cons_append, adjust, if_neg (Ne.symm h.1), ih h.2, List.cons_append]

theorem adjust_of_absent (h : key ∉ pairs.map Prod.fst) (change : Option α → α) :
    adjust key change pairs = pairs ++ [(key, change none)] := by
  have hnew := adjust_append_of_absent h change []
  rwa [List.append_nil, adjust] at hnew

theorem adjust_adjust (key : κ) (first second : Option α → α) (pairs : List (κ × α)) :
    adjust key second (adjust key first pairs) =
      adjust key (fun found => second (some (first found))) pairs := by
  induction pairs with
  | nil => simp [adjust]
  | cons pair pairs ih =>
    by_cases h : pair.1 = key
    · simp [adjust, h]
    · simp [adjust, h, ih]

/-! ## Keys that differ -/

theorem find?_eq_some_iff {value : α} (hdistinct : (pairs.map Prod.fst).Nodup) :
    find? key pairs = some value ↔ (key, value) ∈ pairs :=
  ⟨mem_of_find?_eq_some, fun hmem => find?_eq_some hmem fun _ hpair hkey =>
    congrArg Prod.snd (List.inj_on_of_nodup_map hdistinct hpair hmem hkey)⟩

theorem find?_of_perm (h : pairs.Perm others) (hdistinct : (pairs.map Prod.fst).Nodup) :
    find? key pairs = find? key others := by
  have hothers := ((h.map Prod.fst).nodup_iff).1 hdistinct
  ext value
  rw [find?_eq_some_iff hdistinct, find?_eq_some_iff hothers, h.mem_iff]

/-! ## Sums over the values -/

section Sums

variable {weights : Type} [Add weights] [Zero weights]
  [Std.Associative fun a b : weights => a + b] [Std.Commutative fun a b : weights => a + b]

theorem sum_adjustAscending (weight : α → weights) (lt : κ → κ → Bool) (key : κ)
    {change : Option α → α} {more : weights} (hnew : weight (change none) = more)
    (hold : ∀ value, weight (change (some value)) = weight value + more)
    (pairs : List (κ × α)) :
    ((adjustAscending lt key change pairs).map fun pair => weight pair.2).sum =
      (pairs.map fun pair => weight pair.2).sum + more := by
  have hcomm : ∀ a b : weights, a + b = b + a := Std.Commutative.comm
  have hassoc : ∀ a b c : weights, a + b + c = a + (b + c) := Std.Associative.assoc
  induction pairs with
  | nil =>
    show weight (change none) + 0 = 0 + more
    rw [hnew, hcomm]
  | cons pair pairs ih =>
    obtain ⟨other, value⟩ := pair
    rw [adjustAscending]
    split
    · rw [List.map_cons, List.sum_cons, List.map_cons, List.sum_cons, hold, hassoc, hcomm more,
        ← hassoc]
    · split
      · rw [List.map_cons, List.sum_cons, hnew, hcomm]
      · rw [List.map_cons, List.sum_cons, ih, List.map_cons, List.sum_cons, hassoc]

end Sums

/-! ## Keys in ascending order -/

section Ascending

variable [LE κ] [LT κ] [DecidableLT κ] [Std.IsLinearOrder κ] [Std.LawfulOrderLT κ]

theorem ascending_adjustAscending (h : pairs.Pairwise fun a b => a.1 < b.1) (key : κ)
    (change : Option α → α) :
    (adjustAscending (fun a b => decide (a < b)) key change pairs).Pairwise
      fun a b => a.1 < b.1 := by
  induction pairs with
  | nil => exact List.pairwise_singleton _ _
  | cons pair rest ih =>
    obtain ⟨hhead, hrest⟩ := List.pairwise_cons.1 h
    rw [adjustAscending]
    split
    · exact List.pairwise_cons.2 ⟨hhead, hrest⟩
    · rename_i hne
      split
      · rename_i hlt
        refine List.pairwise_cons.2 ⟨fun other hother => ?_, h⟩
        rcases List.mem_cons.1 hother with rfl | hmem
        · exact of_decide_eq_true hlt
        · exact Std.lt_trans (of_decide_eq_true hlt) (hhead other hmem)
      · rename_i hge
        have hle : pair.1 ≤ key := Std.not_lt.1 fun hlt => hge (decide_eq_true hlt)
        refine List.pairwise_cons.2 ⟨fun other hother => ?_, ih hrest⟩
        rcases mem_adjustAscending _ _ _ hother with hsame | hmem
        · rw [hsame]
          exact Std.lt_of_le_of_ne hle hne
        · exact hhead other hmem

omit [DecidableEq κ] [DecidableLT κ] [Std.IsLinearOrder κ] in
theorem nodup_of_ascending (h : pairs.Pairwise fun a b => a.1 < b.1) :
    (pairs.map Prod.fst).Nodup := by
  rw [List.Nodup, List.pairwise_map]
  exact h.imp Std.ne_of_lt

omit [DecidableLT κ] in
/-- Two lists in ascending order are the same where the same is found in them. -/
theorem eq_of_find?_eq (h : pairs.Pairwise fun a b => a.1 < b.1)
    (h' : others.Pairwise fun a b => a.1 < b.1)
    (hfind : ∀ key, find? key pairs = find? key others) : pairs = others := by
  have hmem : ∀ pair, pair ∈ pairs ↔ pair ∈ others := by
    rintro ⟨key, value⟩
    rw [← find?_eq_some_iff (nodup_of_ascending h), ← find?_eq_some_iff (nodup_of_ascending h'),
      hfind]
  have hperm : pairs.Perm others := (List.perm_ext_iff_of_nodup (nodup_of_ascending h).of_map
    (nodup_of_ascending h').of_map).2 hmem
  exact hperm.eq_of_pairwise (fun _ _ _ _ hab hba => absurd (Std.lt_trans hab hba) Std.lt_irrefl)
    h h'

theorem find?_adjustAscending (h : pairs.Pairwise fun a b => a.1 < b.1) (key : κ)
    (change : Option α → α) :
    find? key (adjustAscending (fun a b => decide (a < b)) key change pairs) =
      some (change (find? key pairs)) := by
  induction pairs with
  | nil => simp [adjustAscending, find?]
  | cons pair rest ih =>
    obtain ⟨hhead, hrest⟩ := List.pairwise_cons.1 h
    by_cases hkey : pair.1 = key
    · simp [adjustAscending, find?, hkey]
    · by_cases hlt : key < pair.1
      · -- a key below the first one is found nowhere
        have hnone : find? key rest = none := find?_eq_none_iff.2 fun other hother hsame =>
          Std.lt_irrefl (Std.lt_trans hlt (hsame ▸ hhead other hother))
        simp [adjustAscending, find?, hkey, hlt, hnone]
      · simp [adjustAscending, find?, hkey, hlt, ih hrest]

end Ascending

end MetricReporting.Keyed
