/-!
# Values under keys

Lists of pairs, one per key: either in the order in which the keys were first used, or in ascending
order of the keys. The value under a key is changed by a function of the value found, if any.
-/
namespace MetricReporting.Keyed

variable {κ α : Type}

/-- Changes the value under a key; a key not seen before goes to the end. -/
def adjust [DecidableEq κ] (key : κ) (change : Option α → α) : List (κ × α) → List (κ × α)
  | [] => [(key, change none)]
  | (k, a) :: rest =>
      if k = key then (k, change (some a)) :: rest else (k, a) :: adjust key change rest

/-- Changes the value under a key of a list in ascending order, which it stays. -/
def adjustAscending [DecidableEq κ] (lt : κ → κ → Bool) (key : κ) (change : Option α → α) :
    List (κ × α) → List (κ × α)
  | [] => [(key, change none)]
  | (k, a) :: rest =>
      if k = key then (k, change (some a)) :: rest
      else if lt key k then (key, change none) :: (k, a) :: rest
      else (k, a) :: adjustAscending lt key change rest

def find? [DecidableEq κ] (key : κ) : List (κ × α) → Option α
  | [] => none
  | (k, a) :: rest => if k = key then some a else find? key rest

theorem find?_adjust_self [DecidableEq κ] (key : κ) (change : Option α → α)
    (pairs : List (κ × α)) :
    find? key (adjust key change pairs) = some (change (find? key pairs)) := by
  induction pairs with
  | nil => simp [adjust, find?]
  | cons pair rest ih =>
    by_cases h : pair.1 = key
    · simp [adjust, find?, h]
    · simp [adjust, find?, h, ih]

theorem find?_adjust_other [DecidableEq κ] {key other : κ} (hne : other ≠ key)
    (change : Option α → α) (pairs : List (κ × α)) :
    find? other (adjust key change pairs) = find? other pairs := by
  induction pairs with
  | nil => simp [adjust, find?, hne.symm]
  | cons pair rest ih =>
    by_cases h : pair.1 = key
    · simp [adjust, find?, h, hne.symm]
    · by_cases ho : pair.1 = other
      · simp [adjust, find?, ho, hne]
      · simp [adjust, find?, h, ho, ih]

theorem find?_adjustAscending_self [DecidableEq κ] (lt : κ → κ → Bool) (key : κ) (value : α)
    (pairs : List (κ × α)) :
    find? key (adjustAscending lt key (fun _ => value) pairs) = some value := by
  induction pairs with
  | nil => simp [adjustAscending, find?]
  | cons pair rest ih =>
    by_cases h : pair.1 = key
    · simp [adjustAscending, find?, h]
    · by_cases hlt : lt key pair.1 = true
      · simp [adjustAscending, find?, h, hlt]
      · simp [adjustAscending, find?, h, hlt, ih]

theorem find?_adjustAscending_other [DecidableEq κ] (lt : κ → κ → Bool) {key other : κ}
    (hne : other ≠ key) (change : Option α → α) (pairs : List (κ × α)) :
    find? other (adjustAscending lt key change pairs) = find? other pairs := by
  induction pairs with
  | nil => simp [adjustAscending, find?, hne.symm]
  | cons pair rest ih =>
    by_cases h : pair.1 = key
    · simp [adjustAscending, find?, h, hne.symm]
    · by_cases hlt : lt key pair.1 = true
      · simp [adjustAscending, find?, h, hlt, hne.symm]
      · simp [adjustAscending, find?, h, hlt, ih]

theorem mem_adjustAscending [DecidableEq κ] (lt : κ → κ → Bool) (key : κ) (change : Option α → α)
    {pairs : List (κ × α)} {pair : κ × α} (h : pair ∈ adjustAscending lt key change pairs) :
    pair.1 = key ∨ pair ∈ pairs := by
  induction pairs with
  | nil =>
    rw [adjustAscending, List.mem_singleton] at h
    exact Or.inl (congrArg Prod.fst h)
  | cons first rest ih =>
    rw [adjustAscending] at h
    split at h
    · rename_i hkey
      rcases List.mem_cons.1 h with rfl | hrest
      · exact Or.inl hkey
      · exact Or.inr (List.mem_cons_of_mem first hrest)
    · split at h
      · rcases List.mem_cons.1 h with rfl | hpairs
        · exact Or.inl rfl
        · exact Or.inr hpairs
      · rcases List.mem_cons.1 h with rfl | hrest
        · exact Or.inr List.mem_cons_self
        · exact (ih hrest).imp_right (List.mem_cons_of_mem first)

theorem find?_eq_some [DecidableEq κ] {key : κ} {value : α} {pairs : List (κ × α)}
    (hmem : (key, value) ∈ pairs) (hvalue : ∀ pair ∈ pairs, pair.1 = key → pair.2 = value) :
    find? key pairs = some value := by
  induction pairs with
  | nil => cases hmem
  | cons pair rest ih =>
    by_cases h : pair.1 = key
    · rw [find?, if_pos h, hvalue pair List.mem_cons_self h]
    · rw [find?, if_neg h]
      have hrest : (key, value) ∈ rest := by
        rcases List.mem_cons.1 hmem with rfl | hrest
        · exact absurd rfl h
        · exact hrest
      exact ih hrest fun other hother => hvalue other (List.mem_cons_of_mem pair hother)

theorem filter_eq_find? [DecidableEq κ] (key : κ) {pairs : List (κ × α)}
    (h : pairs.Pairwise fun a b => a.1 ≠ b.1) :
    (pairs.filter fun pair => pair.1 = key).map Prod.snd = (find? key pairs).toList := by
  induction pairs with
  | nil => rfl
  | cons pair rest ih =>
    obtain ⟨hhead, hrest⟩ := List.pairwise_cons.1 h
    by_cases hkey : pair.1 = key
    · have hnone : rest.filter (fun pair => pair.1 = key) = [] := by
        rw [List.filter_eq_nil_iff]
        intro other hother
        have := hhead other hother
        simpa [hkey] using this.symm
      simp [find?, hkey, hnone]
    · simpa [find?, hkey] using ih hrest

end MetricReporting.Keyed
