import Mathlib.Algebra.Group.Nat.Defs
import MetricReporting.TagTable

/-!
# Ids and their names

The two sides of a tag table say the same: the ids found are the places of the names. Both steps of
interning keep this and only add names, so an id keeps its name for good. As long as a place fits an
id, no two ids share a name.
-/
namespace MetricReporting.TagTable

/-- The ids found are the places of the names, and only the first place has the empty name. -/
structure Sound (table : TagTable) : Prop where
  first : table.names[0]? = some ""
  others : ∀ i, 0 < i → table.names[i]? ≠ some ""
  found : ∀ tag id, Keyed.find? tag table.ids = some id ↔
    ∃ i, 0 < i ∧ table.names[i]? = some tag ∧ id = Int32.ofNat i

/-- Every place of a name is an id. -/
def Small (table : TagTable) : Prop :=
  table.names.size ≤ 2 ^ 31

def Extends (later earlier : TagTable) : Prop :=
  earlier.names.toList <+: later.names.toList

def Keeps (later earlier : TagTable) : Prop :=
  ∀ tag id, earlier.lookup? tag = some id → later.lookup? tag = some id

variable {table later : TagTable} {tag name : String} {id other : Int32}

theorem sound_empty : Sound {} := by
  refine ⟨rfl, fun i hi => ?_, fun tag id => ⟨fun h => by simp [Keyed.find?] at h, ?_⟩⟩
  · simp [Nat.ne_of_gt hi]
  · rintro ⟨i, hi, hname, -⟩
    simp [Nat.ne_of_gt hi] at hname

theorem Sound.size_pos (h : table.Sound) : 0 < table.names.size :=
  (Array.getElem?_eq_some_iff.1 h.first).1

theorem getElem?_push_eq_some {names : Array String} {last : String} {i : Nat} :
    (names.push last)[i]? = some name ↔
      names[i]? = some name ∨ i = names.size ∧ name = last := by
  rw [Array.getElem?_push]
  split
  · rename_i hi
    subst hi
    simp [eq_comm]
  · rename_i hi
    simp [hi]

theorem Sound.insert (h : table.Sound) (hne : tag ≠ "") : (table.insert tag).2.Sound := by
  unfold TagTable.insert
  cases hfind : Keyed.find? tag table.ids with
  | some id => exact h
  | none =>
    have hpos := h.size_pos
    refine ⟨?_, fun i hi hname => ?_, fun other id => ?_⟩
    · exact getElem?_push_eq_some.2 (Or.inl h.first)
    · rcases getElem?_push_eq_some.1 hname with hold | ⟨-, hlast⟩
      · exact h.others i hi hold
      · exact hne hlast.symm
    · constructor
      · intro hother
        by_cases hsame : tag = other
        · simp only [Keyed.find?, if_pos hsame, Option.some.injEq] at hother
          exact ⟨_, hpos, getElem?_push_eq_some.2 (Or.inr ⟨rfl, hsame.symm⟩), hother.symm⟩
        · simp only [Keyed.find?, if_neg hsame] at hother
          obtain ⟨i, hi, hname, hid⟩ := (h.found other id).1 hother
          exact ⟨i, hi, getElem?_push_eq_some.2 (Or.inl hname), hid⟩
      · rintro ⟨i, hi, hname, hid⟩
        rcases getElem?_push_eq_some.1 hname with hold | ⟨hlast, hsame⟩
        · have hother := (h.found other id).2 ⟨i, hi, hold, hid⟩
          have hdiff : tag ≠ other := by
            rintro rfl
            rw [hfind] at hother
            cases hother
          simpa [Keyed.find?, hdiff] using hother
        · simp [Keyed.find?, hsame, hid, hlast]

theorem extends_refl (table : TagTable) : table.Extends table :=
  List.prefix_rfl

theorem insert_extends (table : TagTable) (tag : String) :
    (table.insert tag).2.Extends table := by
  unfold TagTable.insert
  split
  · exact List.prefix_rfl
  · simp [Extends]

theorem keeps_refl (table : TagTable) : table.Keeps table :=
  fun _ _ h => h

theorem insert_keeps (table : TagTable) (tag : String) : (table.insert tag).2.Keeps table := by
  intro other id h
  unfold TagTable.insert
  cases hfind : Keyed.find? tag table.ids with
  | some found => exact h
  | none =>
    unfold lookup? at h ⊢
    split at h
    · rename_i hempty
      rwa [if_pos hempty]
    · rename_i hempty
      have hne : tag ≠ other := by
        rintro rfl
        rw [hfind] at h
        cases h
      rw [if_neg hempty, Keyed.find?, if_neg hne]
      exact h

theorem Extends.getElem? (h : later.Extends table) {i : Nat} (hname : table.names[i]? = some name) :
    later.names[i]? = some name := by
  rw [← Array.getElem?_toList] at hname ⊢
  obtain ⟨hi, hget⟩ := List.getElem?_eq_some_iff.1 hname
  rw [List.prefix_iff_getElem?.1 h i hi, hget]

theorem Extends.name? (h : later.Extends table) (hname : table.name? id = some name) :
    later.name? id = some name := by
  unfold TagTable.name? at hname ⊢
  split at hname
  · cases hname
  · rename_i hid
    rw [if_neg hid]
    exact h.getElem? hname

theorem Extends.small (h : later.Extends table) (hsmall : later.Small) : table.Small := by
  have := h.length_le
  simp only [Array.length_toList] at this
  exact Nat.le_trans this hsmall

theorem Small.toInt_ofNat (h : table.Small) {i : Nat} (hi : i < table.names.size) :
    (Int32.ofNat i).toInt = i :=
  Int32.toInt_ofNat_of_lt (Nat.lt_of_lt_of_le hi h)

theorem Small.name?_ofNat (h : table.Small) {i : Nat} (hname : table.names[i]? = some name) :
    table.name? (Int32.ofNat i) = some name := by
  have hi := (Array.getElem?_eq_some_iff.1 hname).1
  have hvalue := h.toInt_ofNat hi
  have hid : ¬ Int32.ofNat i < 0 := by
    rw [Int32.lt_iff_toInt_lt, hvalue]
    simp
  rw [TagTable.name?, if_neg hid, hvalue]
  exact hname

theorem name?_of_neg (h : id < 0) : table.name? id = none :=
  if_pos h

theorem name?_eq_some (h : table.name? id = some name) :
    0 ≤ id.toInt ∧ table.names[id.toInt.toNat]? = some name := by
  unfold TagTable.name? at h
  split at h
  · cases h
  · rename_i hid
    rw [Int32.lt_iff_toInt_lt] at hid
    exact ⟨by simpa using hid, h⟩

theorem Sound.place_unique (h : table.Sound) (hsmall : table.Small) {i j : Nat}
    (hi : table.names[i]? = some name) (hj : table.names[j]? = some name) : i = j := by
  rcases Nat.eq_zero_or_pos i with rfl | hpos
  · obtain rfl : "" = name := Option.some.inj (h.first.symm.trans hi)
    rcases Nat.eq_zero_or_pos j with rfl | hpos
    · rfl
    · exact absurd hj (h.others j hpos)
  · rcases Nat.eq_zero_or_pos j with rfl | hpos'
    · obtain rfl : "" = name := Option.some.inj (h.first.symm.trans hj)
      exact absurd hi (h.others i hpos)
    · have hfind := (h.found name _).2 ⟨i, hpos, hi, rfl⟩
      have hfind' := (h.found name _).2 ⟨j, hpos', hj, rfl⟩
      have hid : Int32.ofNat i = Int32.ofNat j := Option.some.inj (hfind.symm.trans hfind')
      have hcast := congrArg Int32.toInt hid
      rw [hsmall.toInt_ofNat (Array.getElem?_eq_some_iff.1 hi).1,
        hsmall.toInt_ofNat (Array.getElem?_eq_some_iff.1 hj).1] at hcast
      exact Int.ofNat.inj hcast

theorem Sound.name?_injective (h : table.Sound) (hsmall : table.Small)
    (hid : table.name? id = some name) (hother : table.name? other = some name) : id = other := by
  obtain ⟨hpos, hi⟩ := name?_eq_some hid
  obtain ⟨hpos', hj⟩ := name?_eq_some hother
  have := h.place_unique hsmall hi hj
  exact Int32.toInt_inj.1 (by omega)

theorem Sound.name?_untagged (h : table.Sound) : table.name? untagged = some "" := by
  simpa [TagTable.name?, untagged] using h.first

theorem Sound.name?_of_lookup? (h : table.Sound) (hsmall : table.Small)
    (hid : table.lookup? tag = some id) : table.name? id = some tag := by
  unfold lookup? at hid
  split at hid
  · rename_i hempty
    obtain rfl : untagged = id := Option.some.inj hid
    rw [String.isEmpty_iff.1 hempty]
    exact h.name?_untagged
  · obtain ⟨i, -, hname, rfl⟩ := (h.found tag id).1 hid
    exact hsmall.name?_ofNat hname

theorem Sound.name?_insert (h : table.Sound) (hsmall : (table.insert tag).2.Small) :
    (table.insert tag).2.name? (table.insert tag).1 = some tag := by
  unfold TagTable.insert at hsmall ⊢
  cases hfind : Keyed.find? tag table.ids with
  | some id =>
    simp only [hfind] at hsmall ⊢
    obtain ⟨i, -, hname, rfl⟩ := (h.found tag id).1 hfind
    exact hsmall.name?_ofNat hname
  | none =>
    simp only [hfind] at hsmall ⊢
    exact hsmall.name?_ofNat (getElem?_push_eq_some.2 (Or.inr ⟨rfl, rfl⟩))

theorem mem_names_insert (h : name ∈ (table.insert tag).2.names) :
    name ∈ table.names ∨ name = tag := by
  unfold TagTable.insert at h
  split at h
  · exact Or.inl h
  · exact Array.mem_push.1 h

theorem lookup?_ne_empty (h : table.lookup? tag = none) : tag ≠ "" := by
  rintro rfl
  cases h

/-! ## Interning -/

theorem Sound.intern (h : table.Sound) (tag : String) : (table.intern tag).2.Sound := by
  unfold TagTable.intern
  cases hlookup : table.lookup? tag with
  | some id => exact h
  | none => exact h.insert (lookup?_ne_empty hlookup)

theorem intern_extends (table : TagTable) (tag : String) :
    (table.intern tag).2.Extends table := by
  unfold TagTable.intern
  cases table.lookup? tag with
  | some id => exact extends_refl table
  | none => exact insert_extends table tag

theorem Sound.name?_intern (h : table.Sound) (hsmall : (table.intern tag).2.Small) :
    (table.intern tag).2.name? (table.intern tag).1 = some tag := by
  unfold TagTable.intern at hsmall ⊢
  cases hlookup : table.lookup? tag with
  | some id =>
    simp only [hlookup] at hsmall ⊢
    exact h.name?_of_lookup? hsmall hlookup
  | none =>
    simp only [hlookup] at hsmall ⊢
    exact h.name?_insert hsmall

theorem mem_names_intern (h : name ∈ (table.intern tag).2.names) :
    name ∈ table.names ∨ name = tag := by
  unfold TagTable.intern at h
  split at h
  · exact Or.inl h
  · exact mem_names_insert h

theorem Sound.intern_new (h : table.Sound) (hnew : tag ∉ table.names) :
    table.intern tag = (Int32.ofNat table.names.size,
      ⟨(tag, Int32.ofNat table.names.size) :: table.ids, table.names.push tag⟩) := by
  have hne : tag.isEmpty = false := by
    rw [← Bool.not_eq_true, String.isEmpty_iff]
    rintro rfl
    exact hnew (Array.mem_of_getElem? h.first)
  have hfind : Keyed.find? tag table.ids = none := by
    cases hfind : Keyed.find? tag table.ids with
    | none => rfl
    | some id =>
      obtain ⟨i, -, hname, -⟩ := (h.found tag id).1 hfind
      exact absurd (Array.mem_of_getElem? hname) hnew
  simp [TagTable.intern, lookup?, TagTable.insert, hne, hfind]

def internAll : TagTable → List String → List Int32 × TagTable
  | table, [] => ([], table)
  | table, tag :: rest =>
      let (id, table) := table.intern tag
      let (ids, table) := internAll table rest
      (id :: ids, table)

theorem Sound.internAll (h : table.Sound) (calls : List String) :
    (table.internAll calls).2.Sound := by
  induction calls generalizing table with
  | nil => exact h
  | cons tag rest ih => exact ih (h.intern tag)

theorem internAll_extends (table : TagTable) (calls : List String) :
    (table.internAll calls).2.Extends table := by
  induction calls generalizing table with
  | nil => exact extends_refl table
  | cons tag rest ih => exact (intern_extends table tag).trans (ih _)

theorem Sound.names_internAll (h : table.Sound) {calls : List String} (hnodup : calls.Nodup)
    (hnew : ∀ tag ∈ calls, tag ∉ table.names) :
    (table.internAll calls).2.names.toList = table.names.toList ++ calls := by
  induction calls generalizing table with
  | nil => exact (List.append_nil _).symm
  | cons tag rest ih =>
    obtain ⟨hfresh, hrest⟩ := List.nodup_cons.1 hnodup
    have hintern := h.intern_new (hnew tag List.mem_cons_self)
    have hlater : ∀ other ∈ rest, other ∉ (table.intern tag).2.names := by
      intro other hother hmem
      rcases mem_names_intern hmem with hold | rfl
      · exact hnew other (List.mem_cons_of_mem tag hother) hold
      · exact hfresh hother
    have hnames := ih (h.intern tag) hrest hlater
    rw [hintern] at hnames
    rw [TagTable.internAll, hintern]
    refine hnames.trans ?_
    rw [Array.toList_push, List.append_assoc]
    rfl

theorem Sound.name?_internAll (h : table.Sound) {calls : List String}
    (hsmall : (table.internAll calls).2.Small) :
    ∀ call ∈ calls.zip (table.internAll calls).1,
      (table.internAll calls).2.name? call.2 = some call.1 := by
  induction calls generalizing table with
  | nil => simp
  | cons tag rest ih =>
    intro call hcall
    have hextends := internAll_extends (table.intern tag).2 rest
    rcases List.mem_cons.1 hcall with rfl | hrest
    · exact hextends.name? (h.name?_intern (hextends.small hsmall))
    · exact ih (h.intern tag) hsmall call hrest

theorem exists_call {calls : List String} (h : id ∈ (table.internAll calls).1) :
    ∃ tag, (tag, id) ∈ calls.zip (table.internAll calls).1 := by
  induction calls generalizing table with
  | nil => cases h
  | cons tag rest ih =>
    rcases List.mem_cons.1 h with rfl | hrest
    · exact ⟨tag, List.mem_cons_self⟩
    · obtain ⟨other, hother⟩ := ih hrest
      exact ⟨other, List.mem_cons_of_mem _ hother⟩

end MetricReporting.TagTable
