import MetricReporting.Proofs.Sender.Deliveries

/-!
# Streams that share a directory

The sinks of several streams count their sends each for itself, so as long as no count comes around
no two sends draw the same name and number, and no two have the same file.
-/
namespace MetricReporting

def FileSink.after (directory name : String) (sent : Nat) : FileSink :=
  ⟨name, directory, UInt64.ofNat sent⟩

theorem FileSink.next_after (directory name : String) (sent : Nat) :
    (after directory name sent).next = after directory name (sent + 1) := by
  simp only [after, next, UInt64.ofNat_add]
  rfl

theorem FileSink.toNat_sequence_after (directory name : String) {sent : Nat}
    (h : sent < 2 ^ 64) : (after directory name sent).sequence.toNat = sent :=
  UInt64.toNat_ofNat_of_lt' h

structure Outbox where
  files : FileTree
  sinks : List FileSink
  sends : List Delivery := []

namespace Outbox

inductive Act
  | call (place : Nat) (payload : Bytes)
  | move (place : Nat) (move : Delivery.Move)

def start (files : FileTree) (directory : String) (names : List String) : Outbox :=
  ⟨files, names.map fun name => ⟨name, directory, 0⟩, []⟩

def act (outbox : Outbox) : Act → Outbox
  | .call place payload =>
      match outbox.sinks[place]? with
      | none => outbox
      | some sink =>
          { outbox with
            sinks := outbox.sinks.set place sink.next
            sends := outbox.sends ++ [{ drawn := sink, payload }] }
  | .move place move =>
      match outbox.sends[place]? with
      | none => outbox
      | some delivery =>
          let moved := delivery.move outbox.files move
          { outbox with files := moved.2, sends := outbox.sends.set place moved.1 }

def run (outbox : Outbox) (acts : List Act) : Outbox :=
  acts.foldl act outbox

def drawn (outbox : Outbox) : List FileSink :=
  outbox.sends.map Delivery.drawn

/-- How many sends the stream of a name has begun. -/
def sentBy (outbox : Outbox) (name : String) : Nat :=
  outbox.drawn.countP fun sink => sink.name = name

variable {outbox : Outbox} {directory name : String} {names : List String} {place : Nat}
  {sink : FileSink}

/-! ## Numbers -/

structure Numbered (directory : String) (names : List String) (outbox : Outbox) : Prop where
  sinks : outbox.sinks = names.map fun name => .after directory name (outbox.sentBy name)
  numbers : ∀ name, (outbox.drawn.filter fun sink => sink.name = name) =
    (List.range (outbox.sentBy name)).map (.after directory name)
  known : ∀ sink ∈ outbox.drawn, sink.name ∈ names

theorem numbered_start (files : FileTree) (directory : String) (names : List String) :
    Numbered directory names (start files directory names) :=
  ⟨rfl, fun _ => rfl, fun _ hmem => nomatch hmem⟩

theorem Numbered.of_sink (h : Numbered directory names outbox)
    (hsink : outbox.sinks[place]? = some sink) : ∃ name, names[place]? = some name ∧
      sink = .after directory name (outbox.sentBy name) := by
  rw [h.sinks, List.getElem?_map, Option.map_eq_some_iff] at hsink
  obtain ⟨name, hname, rfl⟩ := hsink
  exact ⟨name, hname, rfl⟩

theorem act_move_drawn (outbox : Outbox) (place : Nat) (move : Delivery.Move) :
    (outbox.act (.move place move)).drawn = outbox.drawn := by
  simp only [act]
  split
  · rfl
  · rename_i delivery hplace
    obtain ⟨hlt, rfl⟩ := List.getElem?_eq_some_iff.1 hplace
    have hdrawn := (outbox.sends[place].moved outbox.files move).drawn
    have hlt' : place < (outbox.sends.map Delivery.drawn).length := by rwa [List.length_map]
    have hsame := List.set_getElem_self hlt'
    rw [List.getElem_map] at hsame
    rw [drawn, drawn, List.map_set, hdrawn, hsame]

theorem act_move_sinks (outbox : Outbox) (place : Nat) (move : Delivery.Move) :
    (outbox.act (.move place move)).sinks = outbox.sinks := by
  simp only [act]
  split <;> rfl

theorem act_call (h : outbox.sinks[place]? = some sink) (payload : Bytes) :
    outbox.act (.call place payload) = { outbox with
      sinks := outbox.sinks.set place sink.next
      sends := outbox.sends ++ [{ drawn := sink, payload }] } := by
  simp only [act, h]

theorem act_call_drawn (h : outbox.sinks[place]? = some sink) (payload : Bytes) :
    (outbox.act (.call place payload)).drawn = outbox.drawn ++ [sink] := by
  rw [act_call h, drawn, drawn, List.map_append, List.map_singleton]

theorem act_call_sentBy (h : outbox.sinks[place]? = some sink) (payload : Bytes) (name : String) :
    (outbox.act (.call place payload)).sentBy name =
      outbox.sentBy name + if sink.name = name then 1 else 0 := by
  rw [sentBy, act_call_drawn h, List.countP_append, sentBy, List.countP_singleton]
  simp

theorem sentBy_le_act (outbox : Outbox) (act : Act) (name : String) :
    outbox.sentBy name ≤ (outbox.act act).sentBy name := by
  cases act with
  | call place payload =>
    cases hsink : outbox.sinks[place]? with
    | none =>
      simp only [Outbox.act, hsink]
      exact Nat.le_refl _
    | some sink =>
      rw [act_call_sentBy hsink]
      exact Nat.le_add_right _ _
  | move place move =>
    refine Nat.le_of_eq ?_
    rw [sentBy, sentBy, act_move_drawn]

theorem sentBy_le_run (outbox : Outbox) (acts : List Act) (name : String) :
    outbox.sentBy name ≤ (outbox.run acts).sentBy name := by
  induction acts generalizing outbox with
  | nil => exact Nat.le_refl _
  | cons act acts ih => exact Nat.le_trans (sentBy_le_act outbox act name) (ih _)

theorem set_map (sinkOf sinkOf' : String → FileSink) (hdistinct : names.Nodup)
    (hname : names[place]? = some name) (h : ∀ other ∈ names, other ≠ name →
      sinkOf' other = sinkOf other) :
    (names.map sinkOf).set place (sinkOf' name) = names.map sinkOf' := by
  induction names generalizing place with
  | nil => cases hname
  | cons head rest ih =>
    obtain ⟨hhead, hrest⟩ := List.nodup_cons.1 hdistinct
    rw [List.forall_mem_cons] at h
    cases place with
    | zero =>
      obtain rfl : head = name := Option.some.inj hname
      have hothers : rest.map sinkOf = rest.map sinkOf' := List.map_congr_left fun other hmem =>
        (h.2 other hmem fun hsame => hhead (hsame ▸ hmem)).symm
      rw [List.map_cons, List.set_cons_zero, hothers, List.map_cons]
    | succ place =>
      have hmem : name ∈ rest := List.mem_of_getElem? hname
      have hne : head ≠ name := fun hsame => hhead (hsame ▸ hmem)
      rw [List.map_cons, List.set_cons_succ, ih hrest hname h.2, List.map_cons, h.1 hne]

theorem Numbered.call (h : Numbered directory names outbox) (hdistinct : names.Nodup)
    (hsink : outbox.sinks[place]? = some sink) (payload : Bytes) :
    Numbered directory names (outbox.act (.call place payload)) := by
  obtain ⟨name, hname, hafter⟩ := h.of_sink hsink
  have hnamed : sink.name = name := by rw [hafter, FileSink.after]
  have hsent : (outbox.act (.call place payload)).sentBy name = outbox.sentBy name + 1 := by
    rw [act_call_sentBy hsink, if_pos hnamed]
  have hothers : ∀ other, other ≠ name →
      (outbox.act (.call place payload)).sentBy other = outbox.sentBy other := by
    intro other hne
    rw [act_call_sentBy hsink, if_neg (hnamed ▸ hne.symm), Nat.add_zero]
  -- the stream of this sink alone has sent once more
  refine ⟨?_, fun other => ?_, ?_⟩
  · have hset := set_map (fun name => .after directory name (outbox.sentBy name))
      (fun name => .after directory name ((outbox.act (.call place payload)).sentBy name))
      hdistinct hname fun other _ hne => by rw [hothers other hne]
    rw [← hset, ← h.sinks, hsent, ← FileSink.next_after, ← hafter, act_call hsink]
  · rw [act_call_drawn hsink, List.filter_append, h.numbers, List.filter_singleton]
    by_cases hother : other = name
    · subst hother
      rw [hsent, List.range_succ, List.map_append, List.map_singleton, decide_eq_true hnamed,
        hafter]
      rfl
    · rw [hothers other hother, decide_eq_false (hnamed ▸ Ne.symm hother)]
      exact List.append_nil _
  · rw [act_call_drawn hsink, List.forall_mem_append, List.forall_mem_singleton, hnamed]
    exact ⟨h.known, List.mem_of_getElem? hname⟩

theorem Numbered.act (h : Numbered directory names outbox) (hdistinct : names.Nodup) (act : Act) :
    Numbered directory names (outbox.act act) := by
  cases act with
  | call place payload =>
    cases hsink : outbox.sinks[place]? with
    | none =>
      simp only [Outbox.act, hsink]
      exact h
    | some sink => exact h.call hdistinct hsink payload
  | move place move =>
    have hdrawn := act_move_drawn outbox place move
    refine ⟨?_, ?_, ?_⟩
    · rw [act_move_sinks, h.sinks]
      simp only [sentBy, hdrawn]
    · simpa only [sentBy, hdrawn] using h.numbers
    · simpa only [hdrawn] using h.known

/-! ## Files -/

/-- No stream has begun so many sends that its numbers come around. -/
def Few (outbox : Outbox) : Prop :=
  ∀ name, outbox.sentBy name ≤ 2 ^ 64

theorem Few.of_run (acts : List Act) (h : (outbox.run acts).Few) : outbox.Few :=
  fun name => Nat.le_trans (sentBy_le_run outbox acts name) (h name)

theorem Numbered.nodup_drawn (h : Numbered directory names outbox) (hfew : outbox.Few) :
    outbox.drawn.Nodup := by
  rw [List.nodup_iff_count_le_one]
  intro sink
  -- it is enough to look at the sends of its stream, which have drawn one number each
  have hnodup : (outbox.drawn.filter fun other => other.name = sink.name).Nodup := by
    rw [h.numbers]
    refine List.Nodup.map_on (fun n hn m hm hsame => ?_) List.nodup_range
    have hn := Nat.lt_of_lt_of_le (List.mem_range.1 hn) (hfew sink.name)
    have hm := Nat.lt_of_lt_of_le (List.mem_range.1 hm) (hfew sink.name)
    rw [← FileSink.toNat_sequence_after directory sink.name hn, hsame,
      FileSink.toNat_sequence_after directory sink.name hm]
  have hself : decide (sink.name = sink.name) = true := decide_eq_true rfl
  calc outbox.drawn.count sink
      = (outbox.drawn.filter fun other => other.name = sink.name).count sink :=
        (List.count_filter (p := fun other : FileSink => decide (other.name = sink.name))
          hself).symm
    _ ≤ 1 := List.nodup_iff_count_le_one.1 hnodup sink

theorem Numbered.eq_after (h : Numbered directory names outbox) (hmem : sink ∈ outbox.drawn) :
    ∃ n < outbox.sentBy sink.name, sink = .after directory sink.name n := by
  have hfilter : sink ∈ outbox.drawn.filter fun other => other.name = sink.name :=
    List.mem_filter.2 ⟨hmem, decide_eq_true rfl⟩
  rw [h.numbers] at hfilter
  obtain ⟨n, hn, hsame⟩ := List.mem_map.1 hfilter
  exact ⟨n, List.mem_range.1 hn, hsame.symm⟩

theorem Numbered.eq_of_fileName_eq (h : Numbered directory names outbox) {other : FileSink}
    (hmem : sink ∈ outbox.drawn) (hother : other ∈ outbox.drawn)
    (hsame : FileSink.fileName sink.name sink.sequence =
      FileSink.fileName other.name other.sequence) : sink = other := by
  obtain ⟨hname, hsequence⟩ := FileSink.fileName_injective hsame
  obtain ⟨n, -, hsink⟩ := h.eq_after hmem
  obtain ⟨m, -, hafter⟩ := h.eq_after hother
  have hdirectory : sink.directory = other.directory := by
    rw [hsink, hafter]
    rfl
  cases sink
  cases other
  cases hname
  cases hsequence
  cases hdirectory
  rfl

theorem drawn_mem {delivery : Delivery} (h : delivery ∈ outbox.sends) :
    delivery.drawn ∈ outbox.drawn :=
  List.mem_map_of_mem h

theorem Numbered.fileName_ne (h : Numbered directory names outbox) (hfew : outbox.Few)
    {i j : Nat} {first second : Delivery} (hi : outbox.sends[i]? = some first)
    (hj : outbox.sends[j]? = some second) (hne : i ≠ j) : first.fileName ≠ second.fileName := by
  intro hsame
  have hdrawn := h.eq_of_fileName_eq (drawn_mem (List.mem_of_getElem? hi))
    (drawn_mem (List.mem_of_getElem? hj)) hsame
  have hi' : outbox.drawn[i]? = some first.drawn := by rw [drawn, List.getElem?_map, hi]; rfl
  have hj' : outbox.drawn[j]? = some second.drawn := by rw [drawn, List.getElem?_map, hj]; rfl
  have hlt := (List.getElem?_eq_some_iff.1 hi').1
  exact hne ((List.getElem?_inj hlt (h.nodup_drawn hfew)).1
    (hi'.trans (hdrawn ▸ hj'.symm)))

def Plain (names : List String) : Prop :=
  ∀ name ∈ names, '/' ∉ name.toList

theorem Numbered.isEntry (h : Numbered directory names outbox) (hplain : Plain names)
    {delivery : Delivery} (hmem : delivery ∈ outbox.sends) : FileTree.IsEntry delivery.fileName :=
  FileSink.isEntry_fileName (hplain _ (h.known _ (drawn_mem hmem))) _

structure Orderly (directory : String) (names : List String) (outbox : Outbox) : Prop
    extends Numbered directory names outbox where
  stored : ∀ delivery ∈ outbox.sends, delivery.Stored outbox.files

theorem orderly_start (files : FileTree) (directory : String) (names : List String) :
    Orderly directory names (start files directory names) :=
  ⟨numbered_start files directory names, fun _ hmem => nomatch hmem⟩

theorem Orderly.move (h : Orderly directory names outbox) (hplain : Plain names)
    (hfew : outbox.Few) (place : Nat) (move : Delivery.Move) :
    ∀ delivery ∈ (outbox.act (.move place move)).sends,
      delivery.Stored (outbox.act (.move place move)).files := by
  simp only [Outbox.act]
  cases hplace : outbox.sends[place]? with
  | none => exact h.stored
  | some delivery =>
    have hmem := List.mem_of_getElem? hplace
    have hentry := h.isEntry hplain hmem
    have hmoved := delivery.moved outbox.files move
    have hstored := h.stored delivery hmem
    intro other hother
    obtain ⟨i, hi⟩ := List.mem_iff_getElem?.1 hother
    rw [List.getElem?_set] at hi
    by_cases hplace' : place = i
    · rw [if_pos hplace'] at hi
      split at hi
      · cases hi
        exact hmoved.stored hentry hstored
      · cases hi
    · -- the others keep what they have, since their files have other names
      rw [if_neg hplace'] at hi
      have hmem' := List.mem_of_getElem? hi
      have hne := h.fileName_ne hfew hi hplace (Ne.symm hplace')
      exact (h.stored other hmem').frame (h.isEntry hplain hmem') hne
        (hmoved.changed hentry hstored)

theorem Orderly.act (h : Orderly directory names outbox) (hdistinct : names.Nodup)
    (hplain : Plain names) (hfew : outbox.Few) (act : Act) :
    Orderly directory names (outbox.act act) := by
  refine ⟨h.toNumbered.act hdistinct act, ?_⟩
  cases act with
  | call place payload =>
    cases hsink : outbox.sinks[place]? with
    | none =>
      simp only [Outbox.act, hsink]
      exact h.stored
    | some sink =>
      rw [act_call hsink, List.forall_mem_append, List.forall_mem_singleton]
      exact ⟨h.stored, trivial⟩
  | move place move => exact h.move hplain hfew place move

theorem Orderly.run (h : Orderly directory names outbox) (hdistinct : names.Nodup)
    (hplain : Plain names) {acts : List Act} (hfew : (outbox.run acts).Few) :
    Orderly directory names (outbox.run acts) := by
  induction acts generalizing outbox with
  | nil => exact h
  | cons act acts ih =>
    have hfew' := hfew.of_run (act :: acts)
    exact ih (h.act hdistinct hplain hfew' act) hfew

def pathOf (directory name : String) (number : Nat) : String :=
  FileTree.join directory (name ++ "-" ++ Text.padded 6 number ++ ".bin")

theorem path_after (directory name : String) {number : Nat} (h : number < 2 ^ 64) :
    (FileSink.after directory name number).path = pathOf directory name number := by
  have hnumber := FileSink.toNat_sequence_after directory name h
  rw [FileSink.path, FileSink.fileName, hnumber]
  rfl

theorem Numbered.nodup_paths (h : Numbered directory names outbox) (hplain : Plain names)
    (hfew : outbox.Few) : (outbox.sends.map Delivery.path).Nodup := by
  have hpaths : outbox.sends.map Delivery.path = outbox.drawn.map FileSink.path := by
    rw [Outbox.drawn, List.map_map]
    rfl
  rw [hpaths]
  refine List.Nodup.map_on (fun sink hsink other hother hsame => ?_) (h.nodup_drawn hfew)
  obtain ⟨n, -, hafter⟩ := h.eq_after hsink
  obtain ⟨m, -, hafter'⟩ := h.eq_after hother
  have hdirectory : sink.directory = other.directory := by
    rw [hafter, hafter']
    rfl
  rw [FileSink.path, FileSink.path, hdirectory] at hsame
  exact h.eq_of_fileName_eq hsink hother (FileTree.join_injective
    (FileSink.isEntry_fileName (hplain _ (h.known _ hsink)) _).plain
    (FileSink.isEntry_fileName (hplain _ (h.known _ hother)) _).plain hsame)

theorem Numbered.paths_eq (h : Numbered directory names outbox) (hfew : outbox.Few)
    (name : String) :
    ((outbox.sends.filter fun delivery => delivery.drawn.name = name).map Delivery.path) =
      (List.range (outbox.sentBy name)).map (pathOf directory name) := by
  have hpaths : (outbox.sends.filter fun delivery => delivery.drawn.name = name).map
      Delivery.path = (outbox.drawn.filter fun sink => sink.name = name).map FileSink.path := by
    rw [Outbox.drawn, List.filter_map, List.map_map]
    rfl
  rw [hpaths, h.numbers, List.map_map]
  refine List.map_congr_left fun n hn => ?_
  exact path_after directory name (Nat.lt_of_lt_of_le (List.mem_range.1 hn) (hfew name))

/-- No two sends of streams with names of their own have the same path. The paths of a stream are
numbered from zero on, those of sends that fail among them, and the file of a send that succeeds
holds its payload. -/
theorem files_kept (files : FileTree) (directory : String) {names : List String}
    (hdistinct : names.Nodup) (hplain : Plain names) (acts : List Act)
    (hfew : ((start files directory names).run acts).Few) :
    let outbox := (start files directory names).run acts
    (outbox.sends.map Delivery.path).Nodup ∧
    (∀ delivery ∈ outbox.sends, delivery.drawn.name ∈ names) ∧
    (∀ name ∈ names,
      ((outbox.sends.filter fun delivery => delivery.drawn.name = name).map Delivery.path) =
        (List.range (outbox.sentBy name)).map (pathOf directory name)) ∧
    ∀ delivery ∈ outbox.sends, delivery.phase = .returned (.ok ()) →
      outbox.files.read delivery.path = .ok delivery.payload := by
  intro outbox
  have h := (orderly_start files directory names).run hdistinct hplain hfew
  have hnumbered := h.toNumbered
  refine ⟨hnumbered.nodup_paths hplain hfew,
    fun delivery hmem => hnumbered.known _ (drawn_mem hmem),
    fun name _ => hnumbered.paths_eq hfew name, fun delivery hmem hphase => ?_⟩
  have hstored := h.stored delivery hmem
  rw [Delivery.Stored, hphase] at hstored
  obtain ⟨trail, hstores⟩ := hstored
  exact hstores.read

/-- Two streams whose names can be taken for each other's files: while one send is under way another
is refused, and a third begins. -/
def interleaved : List Act :=
  [.call 0 [1, 2, 3], .call 1 [9], .move 0 .create, .move 1 .create, .move 0 (.append 2),
    .move 1 (.fail (.other "No space left on device (os error 28)")), .call 0 [7],
    .move 2 .create, .move 2 (.append 1), .move 0 (.append 2), .move 2 .close, .move 0 .close]

def shared : Outbox :=
  start ⟨[(["out"], .directory)]⟩ "out" ["a", "a-000000"]

theorem files_kept_interleaved :
    (shared.run interleaved).sends.map Delivery.path =
      ["out/a-000000.bin", "out/a-000000-000000.bin", "out/a-000001.bin"] ∧
    (shared.run interleaved).files.read "out/a-000000.bin" = .ok [1, 2, 3] ∧
    (shared.run interleaved).files.read "out/a-000001.bin" = .ok [7] := by
  have hplain : Plain ["a", "a-000000"] := by
    unfold Plain
    decide
  have hfew : (shared.run interleaved).Few := fun name =>
    Nat.le_trans List.countP_le_length (by decide +kernel)
  obtain ⟨-, -, -, hkept⟩ := files_kept ⟨[(["out"], .directory)]⟩ "out" (by decide) hplain
    interleaved hfew
  have hfirst : ⟨⟨"a", "out", 0⟩, [1, 2, 3], .returned (.ok ())⟩ ∈ (shared.run interleaved).sends :=
    by decide +kernel
  have hthird : ⟨⟨"a", "out", 1⟩, [7], .returned (.ok ())⟩ ∈ (shared.run interleaved).sends :=
    by decide +kernel
  have hpath : (Delivery.mk ⟨"a", "out", 0⟩ [1, 2, 3] (.returned (.ok ()))).path =
      "out/a-000000.bin" := by decide +kernel
  have hpath' : (Delivery.mk ⟨"a", "out", 1⟩ [7] (.returned (.ok ()))).path =
      "out/a-000001.bin" := by decide +kernel
  exact ⟨by decide +kernel, hpath ▸ hkept _ hfirst rfl, hpath' ▸ hkept _ hthird rfl⟩

/-! ## One send after another -/

theorem act_move_last (files : FileTree) (sinks : List FileSink) (sends : List Delivery)
    (delivery : Delivery) (move : Delivery.Move) :
    (Outbox.mk files sinks (sends ++ [delivery])).act (.move sends.length move) =
      ⟨(delivery.move files move).2, sinks, sends ++ [(delivery.move files move).1]⟩ := by
  simp only [Outbox.act, List.getElem?_concat_length, List.set_append_right _ _ (Nat.le_refl _),
    Nat.sub_self, List.set_cons_zero]

/-- A send that nothing comes between is the sink's own. -/
theorem run_send (hsink : outbox.sinks[place]? = some sink) (hplain : '/' ∉ sink.name.toList)
    (payload : Bytes) :
    outbox.run [.call place payload, .move outbox.sends.length .create,
      .move outbox.sends.length (.append payload.length), .move outbox.sends.length .close] =
    ⟨(sink.send outbox.files payload).2.2,
      outbox.sinks.set place (sink.send outbox.files payload).2.1,
      outbox.sends ++ [⟨sink, payload, .returned (sink.send outbox.files payload).1⟩]⟩ := by
  simp only [run, List.foldl_cons, List.foldl_nil, act_call hsink, act_move_last]
  rw [FileSink.send, FileTree.write_eq]
  cases hopen : outbox.files.truncate sink.path with
  | error refusal =>
    have hcreate : (Delivery.mk sink payload .numbered).move outbox.files .create =
        ((Delivery.mk sink payload .numbered).refused refusal, outbox.files) := by
      simp only [Delivery.move, Delivery.path, hopen]
    rw [hcreate]
    rfl
  | ok opened =>
    obtain ⟨trail, opened⟩ := opened
    have hcreate : (Delivery.mk sink payload .numbered).move outbox.files .create =
        (⟨sink, payload, .writing trail 0⟩, opened) := by
      simp only [Delivery.move, Delivery.path, hopen]
    have hstores := FileTree.stores_truncate (FileSink.isEntry_fileName hplain _) hopen
    have happend : (Delivery.mk sink payload (.writing trail 0)).move opened
        (.append payload.length) = (⟨sink, payload, .writing trail payload.length⟩,
          opened.put trail (.file payload)) := by
      have hput := hstores.overwrite_eq payload
      rw [List.length_nil] at hput
      simp only [Delivery.move, List.drop_zero, List.take_length, Nat.zero_add, hput,
        List.nil_append]
    have hclose : (Delivery.mk sink payload (.writing trail payload.length)).move
        (opened.put trail (.file payload)) .close =
          (⟨sink, payload, .returned (.ok ())⟩, opened.put trail (.file payload)) :=
      if_pos rfl
    rw [hcreate, happend, hclose]
    rfl

end Outbox

end MetricReporting
