import Mathlib.Data.List.Perm.Subperm
import MetricReporting.Payload.Encode
import MetricReporting.Proofs.Tags.Interning

/-!
# Agreement about ids

Any number of callers ask for ids of tags and share a table. Looking a tag up and inserting it are
two acts, and anything may come between them, so a list of acts is one interleaving. Main statement:
all agree on the ids, the ids count the tags in the order in which callers came to insert them, and
what an id is said to name it names for good.
-/
namespace MetricReporting.TagTable

inductive Phase
  | looking
  | inserting
  | returned (id : Int32)
deriving DecidableEq, Repr

def Phase.stepsLeft : Phase → Nat
  | looking => 2
  | inserting => 1
  | returned _ => 0

theorem Phase.stepsLeft_le (phase : Phase) : phase.stepsLeft ≤ 2 := by
  cases phase with
  | looking | inserting | returned => simp [stepsLeft]

structure Call where
  tag : String
  phase : Phase := .looking
deriving DecidableEq, Repr

/-- What a table is asked for besides ids. -/
inductive Query
  | name (id : Int32)
  | size
  | dictionary (ids : List Int32)
deriving DecidableEq, Repr

inductive Answer
  | name (id : Int32) (name : Option String)
  | size (count : Nat)
  | dictionary (bytes : Bytes)
deriving DecidableEq, Repr

def answer (table : TagTable) : Query → Answer
  | .name id => .name id (table.name? id)
  | .size => .size table.size
  | .dictionary ids => .dictionary (Payload.dictionary table ids)

structure Sharing where
  table : TagTable := {}
  /-- All calls begun so far; a call's number is its place here. -/
  calls : List Call := []
  /-- The tags that came to be inserted, in the order in which they came; nothing reads this. -/
  entered : List String := []
  answers : List Answer := []
deriving DecidableEq, Repr

namespace Sharing

inductive Act
  | call (tag : String)
  | step (number : Nat)
  | ask (query : Query)
deriving DecidableEq, Repr

def enter (s : Sharing) (number : Nat) (tag : String) (phase : Phase) : Sharing :=
  { s with calls := s.calls.set number ⟨tag, phase⟩ }

def insert (s : Sharing) (number : Nat) (tag : String) : Sharing :=
  { s.enter number tag (.returned (s.table.insert tag).1) with
    table := (s.table.insert tag).2
    entered := s.entered ++ [tag] }

def step (s : Sharing) (number : Nat) : Sharing :=
  match s.calls[number]? with
  | none | some ⟨_, .returned _⟩ => s
  | some ⟨tag, .looking⟩ =>
      match s.table.lookup? tag with
      | some id => s.enter number tag (.returned id)
      | none => s.enter number tag .inserting
  | some ⟨tag, .inserting⟩ => s.insert number tag

def act (s : Sharing) : Act → Sharing
  | .call tag => { s with calls := s.calls ++ [{ tag := tag }] }
  | .step number => s.step number
  | .ask query => { s with answers := s.answers ++ [s.table.answer query] }

def run (s : Sharing) (acts : List Act) : Sharing :=
  acts.foldl act s

/-- The tags inserted, each where it came first. -/
def seen (s : Sharing) : List String :=
  s.entered.eraseDups

def tags (s : Sharing) : List String :=
  (s.calls.map Call.tag).eraseDups.filter fun tag => tag ≠ ""

def Returned (s : Sharing) (tag : String) (id : Int32) : Prop :=
  ⟨tag, .returned id⟩ ∈ s.calls

end Sharing

variable {table : TagTable} {tag other : String} {id : Int32} {number : Nat}
  {s later : Sharing}

/-! ## Names and ids -/

theorem Sound.mem_names_iff (h : table.Sound) (hne : tag ≠ "") :
    tag ∈ table.names.toList ↔ ∃ id, Keyed.find? tag table.ids = some id := by
  rw [List.mem_iff_getElem?]
  constructor
  · rintro ⟨i, hi⟩
    rw [Array.getElem?_toList] at hi
    rcases Nat.eq_zero_or_pos i with rfl | hpos
    · exact absurd (Option.some.inj (hi.symm.trans h.first)) hne
    · exact ⟨_, (h.found tag _).2 ⟨i, hpos, hi, rfl⟩⟩
  · rintro ⟨id, hid⟩
    obtain ⟨i, -, hi, -⟩ := (h.found tag id).1 hid
    exact ⟨i, by rwa [Array.getElem?_toList]⟩

theorem Sound.insert_names (h : table.Sound) (hne : tag ≠ "") :
    (table.insert tag).2.names.toList =
      if tag ∈ table.names.toList then table.names.toList else table.names.toList ++ [tag] := by
  unfold TagTable.insert
  cases hfind : Keyed.find? tag table.ids with
  | some id => rw [if_pos ((h.mem_names_iff hne).2 ⟨id, hfind⟩)]
  | none =>
    have hnot : tag ∉ table.names.toList := by
      intro hmem
      obtain ⟨id, hid⟩ := (h.mem_names_iff hne).1 hmem
      rw [hfind] at hid
      cases hid
    rw [if_neg hnot, Array.toList_push]

theorem lookup?_of_ne (hne : tag ≠ "") : table.lookup? tag = Keyed.find? tag table.ids := by
  rw [lookup?, if_neg]
  rwa [String.isEmpty_iff]

theorem Sound.find?_iff (h : table.Sound) (hsmall : table.Small) :
    Keyed.find? tag table.ids = some id ↔ id ≠ untagged ∧ table.name? id = some tag := by
  rw [h.found]
  constructor
  · rintro ⟨i, hpos, hi, rfl⟩
    refine ⟨fun hzero => ?_, hsmall.name?_ofNat hi⟩
    have hvalue := hsmall.toInt_ofNat (Array.getElem?_eq_some_iff.1 hi).1
    rw [hzero] at hvalue
    exact absurd (Int.ofNat.inj hvalue).symm (Nat.ne_of_gt hpos)
  · rintro ⟨hne, hname⟩
    obtain ⟨hle, hi⟩ := name?_eq_some hname
    have hvalue := hsmall.toInt_ofNat (Array.getElem?_eq_some_iff.1 hi).1
    have hid : id = Int32.ofNat id.toInt.toNat := by
      rw [← Int32.toInt_inj, hvalue, Int.toNat_of_nonneg hle]
    refine ⟨id.toInt.toNat, ?_, hi, hid⟩
    apply Nat.pos_of_ne_zero
    intro hzero
    rw [hzero] at hid
    exact hne hid

theorem Sound.name?_eq_none_iff (h : table.Sound) :
    table.name? id = none ↔ id.toInt < 0 ∨ (table.size : Int) < id.toInt := by
  have hpos := h.size_pos
  unfold TagTable.name? TagTable.size
  split
  · rename_i hid
    rw [Int32.lt_iff_toInt_lt] at hid
    simp only [true_iff]
    exact Or.inl hid
  · rename_i hid
    rw [Int32.lt_iff_toInt_lt] at hid
    have hzero : (0 : Int32).toInt = 0 := rfl
    rw [Array.getElem?_eq_none_iff]
    omega

/-! ## What a step can do -/

namespace Sharing

inductive Step (s : Sharing) (number : Nat) : Sharing → Prop
  | stay : Step s number s
  | found {tag : String} {id : Int32} : s.calls[number]? = some ⟨tag, .looking⟩ →
      s.table.lookup? tag = some id → Step s number (s.enter number tag (.returned id))
  | missed {tag : String} : s.calls[number]? = some ⟨tag, .looking⟩ →
      s.table.lookup? tag = none → Step s number (s.enter number tag .inserting)
  | inserted {tag : String} : s.calls[number]? = some ⟨tag, .inserting⟩ →
      Step s number (s.insert number tag)

theorem step_spec (s : Sharing) (number : Nat) : Step s number (s.step number) := by
  unfold step
  split
  · exact .stay
  · exact .stay
  · rename_i tag hcall
    split
    · rename_i id hid
      exact .found hcall hid
    · rename_i hnone
      exact .missed hcall hnone
  · rename_i tag hcall
    exact .inserted hcall

theorem Step.elsewhere (h : Step s number later) {place : Nat} (hne : number ≠ place) :
    later.calls[place]? = s.calls[place]? := by
  cases h with
  | stay => rfl
  | found | missed | inserted => exact List.getElem?_set_ne hne

theorem step_found (h : s.calls[number]? = some ⟨tag, .looking⟩)
    (hid : s.table.lookup? tag = some id) : s.step number = s.enter number tag (.returned id) := by
  simp only [step, h, hid]

theorem step_missed (h : s.calls[number]? = some ⟨tag, .looking⟩)
    (hnone : s.table.lookup? tag = none) : s.step number = s.enter number tag .inserting := by
  simp only [step, h, hnone]

theorem step_inserting (h : s.calls[number]? = some ⟨tag, .inserting⟩) :
    s.step number = s.insert number tag := by
  simp only [step, h]

theorem step_returned (h : s.calls[number]? = some ⟨tag, .returned id⟩) : s.step number = s := by
  simp only [step, h]

theorem getElem?_enter (h : number < s.calls.length) (tag : String) (phase : Phase) :
    (s.enter number tag phase).calls[number]? = some ⟨tag, phase⟩ :=
  List.getElem?_set_self h

/-- A call that nobody comes between is `TagTable.intern`. -/
theorem step_step_intern (h : s.calls[number]? = some ⟨tag, .looking⟩) :
    ((s.step number).step number).calls[number]? =
        some ⟨tag, .returned (s.table.intern tag).1⟩ ∧
      ((s.step number).step number).table = (s.table.intern tag).2 := by
  have hlt := (List.getElem?_eq_some_iff.1 h).1
  cases hlookup : s.table.lookup? tag with
  | some id =>
    have hcall := getElem?_enter hlt tag (.returned id)
    rw [step_found h hlookup, step_returned hcall, intern, hlookup]
    exact ⟨hcall, rfl⟩
  | none =>
    rw [step_missed h hlookup, step_inserting (getElem?_enter hlt tag .inserting), intern, hlookup]
    exact ⟨getElem?_enter (by rwa [enter, List.length_set]) tag _, rfl⟩

end Sharing

/-! ## What every act keeps -/

theorem eraseDups_concat (entered : List String) (tag : String) :
    (entered ++ [tag]).eraseDups =
      if tag ∈ entered then entered.eraseDups else entered.eraseDups ++ [tag] := by
  rw [List.eraseDups_append]
  by_cases h : tag ∈ entered
  · simp [List.removeAll, h]
  · simp [List.removeAll, h, List.eraseDups_cons]

def Phase.Sound (table : TagTable) (tag : String) : Phase → Prop
  | looking => True
  | inserting => tag ≠ ""
  | returned id => table.lookup? tag = some id

theorem Phase.Sound.mono {phase : Phase} {later : TagTable} (h : phase.Sound table tag)
    (hkeeps : later.Keeps table) : phase.Sound later tag := by
  cases phase with
  | looking => trivial
  | inserting => exact h
  | returned id => exact hkeeps tag id h

namespace Sharing

structure Sound (s : Sharing) : Prop where
  table : s.table.Sound
  names : s.table.names.toList = "" :: s.seen
  distinct : s.table.names.toList.Nodup
  entered : ∀ tag ∈ s.entered, tag ≠ "" ∧ tag ∈ s.calls.map Call.tag
  calls : ∀ call ∈ s.calls, call.phase.Sound s.table call.tag

theorem sound_empty : Sound {} where
  table := TagTable.sound_empty
  names := rfl
  distinct := List.pairwise_singleton _ _
  entered := nofun
  calls := nofun

variable {before phase : Phase}

theorem map_tag_enter (h : s.calls[number]? = some ⟨tag, before⟩) :
    (s.enter number tag phase).calls.map Call.tag = s.calls.map Call.tag := by
  obtain ⟨hlt, hget⟩ := List.getElem?_eq_some_iff.1 h
  have hsame : (⟨tag, phase⟩ : Call).tag = s.calls[number].tag := by rw [hget]
  rw [enter, List.map_set, hsame, ← List.map_set, List.set_getElem_self]

theorem Sound.enter (h : s.Sound) (hcall : s.calls[number]? = some ⟨tag, before⟩)
    (hphase : phase.Sound s.table tag) : (s.enter number tag phase).Sound where
  table := h.table
  names := h.names
  distinct := h.distinct
  entered := by
    rw [map_tag_enter hcall]
    exact h.entered
  calls := by
    intro other hother
    rcases List.mem_or_eq_of_mem_set hother with hold | rfl
    · exact h.calls other hold
    · exact hphase

theorem Sound.mem_names_iff (h : s.Sound) (hne : tag ≠ "") :
    tag ∈ s.table.names.toList ↔ tag ∈ s.entered := by
  rw [h.names, List.mem_cons, seen, List.mem_eraseDups]
  exact or_iff_right hne

theorem Sound.insert (h : s.Sound) (hcall : s.calls[number]? = some ⟨tag, before⟩)
    (hne : tag ≠ "") : (s.insert number tag).Sound where
  table := h.table.insert hne
  names := by
    simp only [seen, Sharing.insert]
    rw [h.table.insert_names hne, eraseDups_concat]
    by_cases hmem : tag ∈ s.entered
    · rw [if_pos ((h.mem_names_iff hne).2 hmem), if_pos hmem, h.names, seen]
    · rw [if_neg (mt (h.mem_names_iff hne).1 hmem), if_neg hmem, h.names, seen, List.cons_append]
  distinct := by
    rw [Sharing.insert, h.table.insert_names hne]
    split
    · exact h.distinct
    · rename_i hnot
      refine List.nodup_append.2 ⟨h.distinct, List.pairwise_singleton _ _, ?_⟩
      rintro other hother last hlast rfl
      obtain rfl := List.mem_singleton.1 hlast
      exact hnot hother
  entered := by
    intro other hother
    rw [Sharing.insert, map_tag_enter hcall]
    rcases List.mem_append.1 hother with hold | hlast
    · exact h.entered other hold
    · obtain rfl := List.mem_singleton.1 hlast
      exact ⟨hne, List.mem_map_of_mem (List.mem_of_getElem? hcall)⟩
  calls := by
    intro other hother
    rcases List.mem_or_eq_of_mem_set hother with hold | rfl
    · exact (h.calls other hold).mono (insert_keeps s.table tag)
    · apply lookup?_insert
      rwa [Bool.eq_false_iff, ne_eq, String.isEmpty_iff]

theorem Sound.step (h : s.Sound) (hstep : Step s number later) : later.Sound := by
  cases hstep with
  | stay => exact h
  | found hcall hid => exact h.enter hcall hid
  | missed hcall hnone => exact h.enter hcall (lookup?_ne_empty hnone)
  | inserted hcall => exact h.insert hcall (h.calls _ (List.mem_of_getElem? hcall))

theorem Sound.act (h : s.Sound) (act : Act) : (s.act act).Sound := by
  cases act with
  | call tag =>
    refine ⟨h.table, h.names, h.distinct, fun other hother => ?_, fun call hcall => ?_⟩
    · obtain ⟨hne, hold⟩ := h.entered other hother
      refine ⟨hne, ?_⟩
      rw [Sharing.act, List.map_append]
      exact List.mem_append_left _ hold
    · rcases List.mem_append.1 hcall with hold | hlast
      · exact h.calls call hold
      · obtain rfl := List.mem_singleton.1 hlast
        trivial
  | step number => exact h.step (step_spec s number)
  | ask query => exact ⟨h.table, h.names, h.distinct, h.entered, h.calls⟩

theorem Sound.run (h : s.Sound) (acts : List Act) : (s.run acts).Sound := by
  induction acts generalizing s with
  | nil => exact h
  | cons act acts ih => exact ih (h.act act)

/-! ## What lasts -/

/-- What a call was given stays: its id, the name of the id, and every answer about it. -/
structure Lasts (later s : Sharing) (number : Nat) (tag : String) (id : Int32) : Prop where
  call : later.calls[number]? = some ⟨tag, .returned id⟩
  name : later.table.name? id = some tag
  answers : ∃ given, later.answers = s.answers ++ given ∧
    ∀ name, .name id name ∈ given → name = some tag

theorem Step.extends (h : Step s number later) : later.table.Extends s.table := by
  cases h with
  | stay | found | missed => exact extends_refl s.table
  | inserted => exact insert_extends s.table _

theorem Step.answers_eq (h : Step s number later) : later.answers = s.answers := by
  cases h with
  | stay | found | missed | inserted => rfl

theorem returned_step (h : s.calls[number]? = some ⟨tag, .returned id⟩) (stepped : Nat) :
    (s.step stepped).calls[number]? = some ⟨tag, .returned id⟩ := by
  by_cases hsame : stepped = number
  · subst hsame
    rwa [step_returned h]
  · rwa [(step_spec s stepped).elsewhere hsame]

theorem Lasts.act (h : Lasts later s number tag id) (act : Act) :
    Lasts (later.act act) s number tag id := by
  cases act with
  | call other =>
    refine ⟨?_, h.name, h.answers⟩
    have hlt := (List.getElem?_eq_some_iff.1 h.call).1
    rw [Sharing.act, List.getElem?_append_left hlt]
    exact h.call
  | step stepped =>
    have hstep := step_spec later stepped
    refine ⟨returned_step h.call stepped, hstep.extends.name? h.name, ?_⟩
    rw [Sharing.act, hstep.answers_eq]
    exact h.answers
  | ask query =>
    refine ⟨h.call, h.name, ?_⟩
    obtain ⟨given, hgiven, hnames⟩ := h.answers
    refine ⟨given ++ [later.table.answer query], ?_, fun name hname => ?_⟩
    · rw [Sharing.act, hgiven, List.append_assoc]
    · rcases List.mem_append.1 hname with hold | hlast
      · exact hnames name hold
      · have hanswer := List.mem_singleton.1 hlast
        cases query with
        | name other =>
          obtain ⟨rfl, rfl⟩ := Answer.name.inj hanswer
          exact h.name
        | size => cases hanswer
        | dictionary ids => cases hanswer

theorem Lasts.run (h : Lasts later s number tag id) (acts : List Act) :
    Lasts (later.run acts) s number tag id := by
  induction acts generalizing later with
  | nil => exact h
  | cons act acts ih => exact ih (h.act act)

/-! ## Every call returns -/

theorem step_own (h : s.calls[number]? = some ⟨tag, before⟩) :
    ∃ after, (s.step number).calls[number]? = some ⟨tag, after⟩ ∧
      after.stepsLeft ≤ before.stepsLeft - 1 := by
  have hlt := (List.getElem?_eq_some_iff.1 h).1
  cases before with
  | looking =>
    cases hlookup : s.table.lookup? tag with
    | some id =>
      rw [step_found h hlookup]
      exact ⟨_, getElem?_enter hlt tag _, Nat.zero_le _⟩
    | none =>
      rw [step_missed h hlookup]
      exact ⟨_, getElem?_enter hlt tag _, Nat.le_refl 1⟩
  | inserting =>
    rw [step_inserting h]
    exact ⟨_, getElem?_enter hlt tag _, Nat.le_refl 0⟩
  | returned id =>
    rw [step_returned h]
    exact ⟨_, h, Nat.le_refl 0⟩

theorem act_stepsLeft (h : s.calls[number]? = some ⟨tag, before⟩) (act : Act) :
    ∃ after, (s.act act).calls[number]? = some ⟨tag, after⟩ ∧
      after.stepsLeft ≤ before.stepsLeft := by
  cases act with
  | call other =>
    have hlt := (List.getElem?_eq_some_iff.1 h).1
    refine ⟨before, ?_, Nat.le_refl _⟩
    rwa [Sharing.act, List.getElem?_append_left hlt]
  | step stepped =>
    by_cases hsame : stepped = number
    · subst hsame
      obtain ⟨after, hafter, hleft⟩ := step_own h
      exact ⟨after, hafter, Nat.le_trans hleft (Nat.sub_le _ _)⟩
    · refine ⟨before, ?_, Nat.le_refl _⟩
      rwa [Sharing.act, (step_spec s stepped).elsewhere hsame]
  | ask query => exact ⟨before, h, Nat.le_refl _⟩

theorem run_stepsLeft (h : s.calls[number]? = some ⟨tag, before⟩) (acts : List Act) :
    ∃ after, (s.run acts).calls[number]? = some ⟨tag, after⟩ ∧
      after.stepsLeft ≤ before.stepsLeft := by
  induction acts generalizing s before with
  | nil => exact ⟨before, h, Nat.le_refl _⟩
  | cons act acts ih =>
    obtain ⟨middle, hmiddle, hleft⟩ := act_stepsLeft h act
    obtain ⟨after, hafter, hrest⟩ := ih hmiddle
    exact ⟨after, hafter, Nat.le_trans hrest hleft⟩

theorem returned_of_two_steps (h : s.calls[number]? = some ⟨tag, before⟩)
    (more others : List Act) :
    ∃ id, ((((s.run more).step number).run others).step number).calls[number]? =
      some ⟨tag, .returned id⟩ := by
  obtain ⟨waiting, hwaiting, hstart⟩ := run_stepsLeft h more
  obtain ⟨once, honce, hfirst⟩ := step_own hwaiting
  obtain ⟨again, hagain, hbetween⟩ := run_stepsLeft honce others
  obtain ⟨last, hlast, hsecond⟩ := step_own hagain
  have htwo := before.stepsLeft_le
  have hnone : last.stepsLeft = 0 := by omega
  cases last with
  | returned id => exact ⟨id, hlast⟩
  | looking | inserting => cases hnone

/-! ## Agreement -/

theorem Sound.small (h : s.Sound) (hfew : s.tags.length < 2 ^ 31 - 1) : s.table.Small := by
  have hdistinct := h.distinct
  rw [h.names, List.nodup_cons] at hdistinct
  have hsubset : s.seen ⊆ s.tags := by
    intro tag htag
    obtain ⟨hne, hcall⟩ := h.entered tag (List.mem_eraseDups.1 htag)
    exact List.mem_filter.2 ⟨List.mem_eraseDups.2 hcall, decide_eq_true hne⟩
  have hlength := (hdistinct.2.subperm hsubset).length_le
  have hsize := congrArg List.length h.names
  rw [Array.length_toList, List.length_cons] at hsize
  unfold Small
  omega

theorem Sound.getElem?_seen (h : s.Sound) (k : Nat) : s.seen[k]? = s.table.names[k + 1]? := by
  rw [← Array.getElem?_toList, h.names, List.getElem?_cons_succ]

theorem Sound.size_eq (h : s.Sound) : s.table.size = s.seen.length := by
  rw [TagTable.size, ← Array.length_toList, h.names, List.length_cons, Nat.add_sub_cancel]

theorem Sound.seen_iff (h : s.Sound) (hsmall : s.table.Small) (k : Nat) (tag : String) :
    s.seen[k]? = some tag ↔ ∃ id : Int32, id.toInt = k + 1 ∧ s.table.lookup? tag = some id := by
  rw [h.getElem?_seen]
  constructor
  · intro hname
    have hne : tag ≠ "" := by
      rintro rfl
      exact h.table.others (k + 1) (Nat.succ_pos k) hname
    refine ⟨Int32.ofNat (k + 1), ?_, ?_⟩
    · exact hsmall.toInt_ofNat (Array.getElem?_eq_some_iff.1 hname).1
    · rw [lookup?_of_ne hne]
      exact (h.table.found tag _).2 ⟨k + 1, Nat.succ_pos k, hname, rfl⟩
  · rintro ⟨id, hid, hlookup⟩
    have hname := (name?_eq_some (h.table.name?_of_lookup? hsmall hlookup)).2
    have hplace : id.toInt.toNat = k + 1 := by omega
    rwa [hplace] at hname

/-- Whichever way the callers' lookups and inserts and the questions of others interleave: a
returned id is the one that the table has, two of them are equal just if their tags are, the empty
tag has zero, and the other tags have the ids from one on in the order in which they came to be
inserted. Ids and names lead to one another, negative ids and ids not given yet have no name, a call
returns at its second step at the latest, and what it was given lasts. -/
theorem ids_agree (acts : List Act) (hfew : (run {} acts).tags.length < 2 ^ 31 - 1) :
    let s := run {} acts
    (∀ tag id, s.Returned tag id → s.table.lookup? tag = some id) ∧
    (∀ tag other id id', s.Returned tag id → s.Returned other id' → (id = id' ↔ tag = other)) ∧
    (∀ id, s.Returned "" id → id = untagged) ∧
    (s.table.size = s.seen.length ∧
      ∀ (k : Nat) tag, s.seen[k]? = some tag ↔
        ∃ id : Int32, id.toInt = k + 1 ∧ s.table.lookup? tag = some id) ∧
    (∀ tag id, Keyed.find? tag s.table.ids = some id ↔
      id ≠ untagged ∧ s.table.name? id = some tag) ∧
    (∀ id, s.table.name? id = none ↔ id.toInt < 0 ∨ (s.table.size : Int) < id.toInt) ∧
    (∀ number tag phase, s.calls[number]? = some ⟨tag, phase⟩ → ∀ more others, ∃ id,
      ((((s.run more).step number).run others).step number).calls[number]? =
        some ⟨tag, .returned id⟩) ∧
    ∀ number tag id, s.calls[number]? = some ⟨tag, .returned id⟩ →
      ∀ more, Lasts (s.run more) s number tag id := by
  intro s
  have h : s.Sound := sound_empty.run acts
  have hsmall : s.table.Small := h.small hfew
  have hfound : ∀ tag id, s.Returned tag id → s.table.lookup? tag = some id :=
    fun tag id hcall => h.calls _ hcall
  have hname : ∀ tag id, s.Returned tag id → s.table.name? id = some tag :=
    fun tag id hcall => h.table.name?_of_lookup? hsmall (hfound tag id hcall)
  refine ⟨hfound, fun tag other id id' hid hid' => ⟨?_, ?_⟩, fun id hid => ?_,
    ⟨h.size_eq, h.seen_iff hsmall⟩, fun tag id => h.table.find?_iff hsmall,
    fun id => h.table.name?_eq_none_iff, fun number tag phase => returned_of_two_steps,
    fun number tag id hcall more => ?_⟩
  · rintro rfl
    exact Option.some.inj ((hname tag id hid).symm.trans (hname other id hid'))
  · rintro rfl
    exact h.table.name?_injective hsmall (hname tag id hid) (hname tag id' hid')
  · exact (Option.some.inj (hfound "" id hid)).symm
  · have hnow : Lasts s s number tag id :=
      ⟨hcall, hname tag id (List.mem_of_getElem? hcall), [], (List.append_nil _).symm, nofun⟩
    exact hnow.run more

/-- Two callers miss the same tag, and another tag comes between them. -/
theorem ids_agree_bothMissed :
    let s := run {} [.call "a", .call "a", .step 0, .step 1, .call "b", .step 2, .step 2, .step 1,
      .ask (.name 2), .step 0, .call "", .step 3]
    s.seen = ["b", "a"] ∧ s.calls[0]? = some ⟨"a", .returned 2⟩ ∧ s.Returned "a" 2 ∧
      (∀ id, s.Returned "b" id → id ≠ 2) ∧ s.table.name? 3 = none ∧
      ∀ more, Lasts (s.run more) s 0 "a" 2 := by
  intro s
  have hfew : s.tags.length < 2 ^ 31 - 1 := by decide
  have hseen : s.seen = ["b", "a"] := by decide
  have hcall : s.calls[0]? = some ⟨"a", .returned 2⟩ := by decide
  have hreturned : s.Returned "a" 2 := List.mem_of_getElem? hcall
  obtain ⟨-, hsame, -, ⟨hsize, -⟩, -, hnone, -, hlasts⟩ := ids_agree _ hfew
  refine ⟨hseen, hcall, hreturned, fun id hid htwo => ?_, (hnone 3).2 (Or.inr ?_),
    hlasts 0 "a" 2 hcall⟩
  · have hequal := (hsame "b" "a" id 2 hid hreturned).1 htwo
    exact absurd hequal (by decide)
  · rw [hsize, hseen]
    decide

end Sharing

end MetricReporting.TagTable
