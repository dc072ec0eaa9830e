import MetricReporting.FileTree
import MetricReporting.Proofs.Keyed

/-!
# Where paths lead

A path below a directory leads to a node whose trail ends in its last name. Changing what one name
leads to leaves every other node and every directory as they were, so a path that was found before
is found again.
-/
namespace MetricReporting.FileTree

theorem bind_eq_ok_iff {α β : Type} {first : Except OsError α}
    {next : α → Except OsError β} {b : β} :
    (first >>= next) = .ok b ↔ ∃ a, first = .ok a ∧ next a = .ok b := by
  cases first with
  | error refusal => exact ⟨(nomatch ·), fun ⟨_, h, _⟩ => nomatch h⟩
  | ok a =>
    constructor
    · exact fun h => ⟨a, rfl, h⟩
    · rintro ⟨_, ⟨⟩, h⟩
      exact h

variable {tree changed : FileTree} {directory name path : String} {trail other : Trail}
  {content more : Bytes}

structure IsEntry (name : String) : Prop where
  nonempty : name ≠ ""
  notSelf : name ≠ selfName
  notAbove : name ≠ aboveName
  plain : '/' ∉ name.toList

/-! ## Paths below a directory -/

theorem endsWith_slash_iff : path.endsWith "/" = true ↔ ['/'] <:+ path.toList := by
  rw [← String.endsWith_toSlice, String.Slice.endsWith_string_iff, String.copy_toSlice]
  rfl

def front (directory : String) : String :=
  if directory = "" ∨ directory.endsWith "/" then directory else directory ++ "/"

theorem join_eq (h : '/' ∉ name.toList) : join directory name = front directory ++ name := by
  have hstart : name.startsWith "/" = false := by
    rw [String.startsWith_string_eq_false_iff]
    exact fun hslash => h (hslash.subset (by decide))
  rw [join, hstart, front]
  split
  · contradiction
  · split <;> rfl

theorem join_injective {first second : String} (hfirst : '/' ∉ first.toList)
    (hsecond : '/' ∉ second.toList) (h : join directory first = join directory second) :
    first = second := by
  rw [join_eq hfirst, join_eq hsecond, ← String.toList_inj, String.toList_append,
    String.toList_append] at h
  exact String.toList_inj.1 (List.append_cancel_left h)

theorem front_toList (directory : String) :
    (front directory).toList = [] ∨ ∃ before, (front directory).toList = before ++ ['/'] := by
  rw [front]
  split
  · rename_i h
    rcases h with rfl | hslash
    · exact Or.inl rfl
    · rw [endsWith_slash_iff] at hslash
      obtain ⟨before, hbefore⟩ := hslash
      exact Or.inr ⟨before, hbefore.symm⟩
  · exact Or.inr ⟨directory.toList, String.toList_append⟩

theorem parts_join (directory : String) (h : '/' ∉ name.toList) :
    ∃ before, parts (join directory name) = before ++ [name] := by
  have hname : name.toList.splitOn '/' = [name.toList] := List.splitOn_eq_singleton h
  rw [parts, join_eq h, String.toList_append]
  rcases front_toList directory with hempty | ⟨before, hslash⟩
  · refine ⟨[], ?_⟩
    rw [hempty, List.nil_append, hname, List.map_singleton, String.ofList_toList, List.nil_append]
  · refine ⟨(before.splitOn '/').map String.ofList, ?_⟩
    rw [hslash, List.append_assoc, List.singleton_append, List.splitOn_append_cons_self, hname,
      List.map_append, List.map_singleton, String.ofList_toList]

theorem names_join (directory : String) (h : IsEntry name) :
    ∃ before, names (join directory name) = before ++ [name] := by
  obtain ⟨before, hparts⟩ := parts_join directory h.plain
  have hkept : decide (name ≠ "" ∧ name ≠ selfName) = true :=
    decide_eq_true ⟨h.nonempty, h.notSelf⟩
  rw [names, hparts, List.filter_append, List.filter_singleton, hkept]
  split
  · exact ⟨_ :: _, rfl⟩
  · exact ⟨_, rfl⟩

theorem steps_join (directory : String) (h : IsEntry name) :
    ∃ before, steps (join directory name) = before ++ [name] := by
  have hself : endsInSelf (join directory name) = false := by
    obtain ⟨before, hparts⟩ := parts_join directory h.plain
    have hkept : decide (name ≠ "") = true := decide_eq_true h.nonempty
    rw [endsInSelf, hparts, List.filter_append, List.filter_singleton, hkept]
    simpa using h.notSelf
  have hslash : (join directory name).endsWith "/" = false := by
    rw [Bool.eq_false_iff, ne_eq, endsWith_slash_iff, join_eq h.plain, String.toList_append]
    rintro ⟨before, hbefore⟩
    have hne : name.toList ≠ [] := fun hnil => h.nonempty (String.toList_inj.1 hnil)
    have hlast := congrArg List.getLast? hbefore
    rw [List.getLast?_concat, List.getLast?_append_of_ne_nil _ hne] at hlast
    exact h.plain (List.mem_of_getLast? hlast.symm)
  obtain ⟨before, hnames⟩ := names_join directory h
  refine ⟨before, ?_⟩
  rw [steps, hself, hslash, hnames]
  exact List.append_nil _

/-! ## Trails -/

theorem enter_entry (h : IsEntry name) (trail : Trail) : enter trail name = trail ++ [name] := by
  rw [enter, if_neg h.notSelf, if_pos h.notAbove]

theorem getLast?_locate (h : IsEntry name)
    (hfound : tree.locate (join directory name) = .ok trail) : trail.getLast? = some name := by
  obtain ⟨before, hsteps⟩ := steps_join directory h
  rw [locate, hsteps, bind_eq_ok_iff] at hfound
  obtain ⟨-, -, hfollow⟩ := hfound
  rw [follow, List.dropLast_concat, bind_eq_ok_iff] at hfollow
  obtain ⟨above, -, hlast⟩ := hfollow
  rw [List.getLast?_concat] at hlast
  obtain ⟨-, -, hlast⟩ := bind_eq_ok_iff.1 hlast
  obtain rfl : enter above name = trail := Except.ok.inj hlast
  rw [enter_entry h, List.getLast?_concat]

theorem isBase_of_getLast? (h : IsEntry name) (hlast : trail.getLast? = some name) :
    isBase trail = false := by
  have hroot : trail ≠ [rootName] := by
    rintro rfl
    obtain rfl : rootName = name := Option.some.inj hlast
    exact h.plain (by decide)
  have habove : trail.all (· == aboveName) = false := by
    rw [List.all_eq_false]
    exact ⟨name, List.mem_of_getLast? hlast, by simpa using h.notAbove⟩
  rw [isBase, habove, Bool.or_false]
  exact beq_false_of_ne hroot

/-! ## Changes under one name -/

/-- The trees have the same directories, and agree on all but what the name stands for. -/
structure Changed (name : String) (tree changed : FileTree) : Prop where
  directories : ∀ trail, tree.node? trail = some .directory →
    changed.node? trail = some .directory
  others : ∀ trail, trail.getLast? ≠ some name → changed.node? trail = tree.node? trail

theorem Changed.refl (name : String) (tree : FileTree) : Changed name tree tree :=
  ⟨fun _ h => h, fun _ _ => rfl⟩

theorem node?_put_other (node : Node) (h : other ≠ trail) :
    (tree.put trail node).node? other = tree.node? other := by
  rw [node?, node?, put, Keyed.find?_adjust_other h]

theorem changed_put (hlast : trail.getLast? = some name) (h : tree.node? trail ≠ some .directory)
    (content : Bytes) : Changed name tree (tree.put trail (.file content)) where
  directories other hother := by
    have hne : other ≠ trail := fun hsame => h (hsame ▸ hother)
    rw [node?_put_other _ hne, hother]
  others other hother := node?_put_other _ fun hsame => hother (hsame ▸ hlast)

theorem Changed.walk (h : Changed name tree changed) {names : List String}
    (hwalk : tree.walk other names = .ok trail) : changed.walk other names = .ok trail := by
  induction names generalizing other with
  | nil => exact hwalk
  | cons first names ih =>
    rw [FileTree.walk, bind_eq_ok_iff] at hwalk ⊢
    obtain ⟨done, hname, hwalk⟩ := hwalk
    refine ⟨done, hname, ?_⟩
    -- only a directory lets the walk go on, and directories stay
    cases hnode : tree.node? (enter other first) with
    | none => simp only [hnode] at hwalk; cases hwalk
    | some node =>
      cases node with
      | file content => simp only [hnode] at hwalk; cases hwalk
      | directory =>
        simp only [hnode] at hwalk
        simp only [h.directories _ hnode]
        exact ih hwalk

/-- What a path led to before, it leads to still. -/
theorem Changed.locate (h : Changed name tree changed) (hfound : tree.locate path = .ok trail) :
    changed.locate path = .ok trail := by
  rw [FileTree.locate, bind_eq_ok_iff] at hfound ⊢
  obtain ⟨done, hpath, hfollow⟩ := hfound
  rw [follow, bind_eq_ok_iff] at hfollow
  obtain ⟨above, hwalk, hlast⟩ := hfollow
  exact ⟨done, hpath, bind_eq_ok_iff.2 ⟨above, h.walk hwalk, hlast⟩⟩

/-! ## Writing in several steps -/

def truncate (tree : FileTree) (path : String) : Except OsError (Trail × FileTree) := do
  let trail ← tree.locate path
  match tree.node? trail with
  | some .directory => .error .isADirectory
  | _ => .ok (trail, tree.put trail (.file []))

def overwrite (tree : FileTree) (trail : Trail) (offset : Nat) (bytes : Bytes) : FileTree :=
  match tree.node? trail with
  | some (.file content) =>
      tree.put trail (.file (content.take offset ++ List.replicate (offset - content.length) 0 ++
        bytes ++ content.drop (offset + bytes.length)))
  | _ => tree

structure Stores (tree : FileTree) (path : String) (trail : Trail) (content : Bytes) : Prop where
  located : tree.locate path = .ok trail
  stored : tree.node? trail = some (.file content)

theorem Stores.read (h : Stores tree path trail content) : tree.read path = .ok content := by
  rw [FileTree.read, h.located]
  simp only [bind, Except.bind, h.stored]

theorem Stores.frame (h : Stores tree path trail content) (hchanged : Changed name tree changed)
    (hlast : trail.getLast? ≠ some name) : Stores changed path trail content :=
  ⟨hchanged.locate h.located, (hchanged.others trail hlast).trans h.stored⟩

theorem truncate_eq_ok (h : tree.truncate path = .ok (trail, changed)) :
    tree.locate path = .ok trail ∧ tree.node? trail ≠ some .directory ∧
      tree.put trail (.file []) = changed := by
  rw [truncate, bind_eq_ok_iff] at h
  obtain ⟨found, hfound, h⟩ := h
  split at h
  · cases h
  · rename_i hnode
    cases h
    exact ⟨hfound, hnode, rfl⟩

section Entry

variable (hentry : IsEntry name)
include hentry

theorem changed_truncate (h : tree.truncate (join directory name) = .ok (trail, changed)) :
    Changed name tree changed := by
  obtain ⟨hfound, hnode, rfl⟩ := truncate_eq_ok h
  exact changed_put (getLast?_locate hentry hfound) hnode []

theorem stores_put (hfound : tree.locate (join directory name) = .ok trail)
    (hnode : tree.node? trail ≠ some .directory) (content : Bytes) :
    Stores (tree.put trail (.file content)) (join directory name) trail content := by
  have hlast := getLast?_locate hentry hfound
  exact ⟨(changed_put hlast hnode content).locate hfound,
    node?_put_self tree _ (isBase_of_getLast? hentry hlast)⟩

theorem stores_truncate (h : tree.truncate (join directory name) = .ok (trail, changed)) :
    Stores changed (join directory name) trail [] := by
  obtain ⟨hfound, hnode, rfl⟩ := truncate_eq_ok h
  exact stores_put hentry hfound hnode []

variable (h : Stores tree (join directory name) trail content)
include h

theorem Stores.getLast? : trail.getLast? = some name :=
  getLast?_locate hentry h.located

omit hentry in
theorem Stores.overwrite_eq (more : Bytes) :
    tree.overwrite trail content.length more = tree.put trail (.file (content ++ more)) := by
  simp only [overwrite, h.stored, List.take_length, Nat.sub_self, List.replicate_zero,
    List.append_nil, List.drop_eq_nil_of_le (Nat.le_add_right _ _)]

theorem Stores.changed_overwrite (more : Bytes) :
    Changed name tree (tree.overwrite trail content.length more) := by
  rw [h.overwrite_eq]
  exact changed_put (h.getLast? hentry) (by rw [h.stored]; simp) _

theorem Stores.stores_overwrite (more : Bytes) :
    Stores (tree.overwrite trail content.length more) (join directory name) trail
      (content ++ more) := by
  rw [h.overwrite_eq]
  exact stores_put hentry h.located (by rw [h.stored]; simp) _

end Entry

/-! ## Writing at once -/

theorem put_put (tree : FileTree) (trail : Trail) (first second : Node) :
    (tree.put trail first).put trail second = tree.put trail second := by
  rw [put, put, put, Keyed.adjust_adjust]

theorem write_eq (tree : FileTree) (path : String) (content : Bytes) :
    tree.write path content =
      (tree.truncate path).map fun (trail, opened) => opened.put trail (.file content) := by
  rw [write, truncate]
  cases tree.locate path with
  | error refusal => rfl
  | ok trail =>
    cases hnode : tree.node? trail with
    | none => simp only [bind, Except.bind, hnode, Except.map, put_put]
    | some node => cases node <;> simp only [bind, Except.bind, hnode, Except.map, put_put]

end MetricReporting.FileTree
