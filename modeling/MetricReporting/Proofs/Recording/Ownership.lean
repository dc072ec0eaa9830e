import MetricReporting.Proofs.Payload.TaggedRoundTrip
import MetricReporting.Proofs.Recording.Recording

/-!
# Who owns which call

Every write call belongs to the record that began it, and a record is accepted by the call that
claimed its position. The entries drained carry ids whose names are the records' tags, whichever
table they were encoded with. Every act keeps this.
-/
namespace MetricReporting.Recording

def RecordSound (tags : TagTable) (calls : List Ring.WriteCall) (owners : List Nat) (number : Nat)
    (record : RecordCall) : Prop :=
  match record.phase with
  | .looking | .dropped => True
  | .inserting => record.tag ≠ ""
  | .trying id _ => tags.lookup? record.tag = some id
  | .writing id _ call => tags.lookup? record.tag = some id ∧ owners[call]? = some number ∧
      ∃ write, calls[call]? = some write ∧ write.value = record.value ∧ write.tag = id
  | .accepted call => owners[call]? = some number ∧ ∃ write, calls[call]? = some write ∧
      write.value = record.value ∧ tags.lookup? record.tag = some write.tag ∧
      write.phase = .returned true

def Standing (call : Nat) (write : Ring.WriteCall) (phase : RecordCall.Phase) : Prop :=
  write.phase = .returned false ∨ phase = .accepted call ∧ write.phase = .returned true ∨
    (∃ id left, phase = .writing id left call) ∧ ∀ result, write.phase ≠ .returned result

def CallOwned (records : List RecordCall) (owners : List Nat) (call : Nat)
    (write : Ring.WriteCall) : Prop :=
  ∃ number record, owners[call]? = some number ∧ records[number]? = some record ∧
    Standing call write record.phase

/-- A batch was encoded with a table that found its ids and has only grown since. -/
def EncodedSound (tags : TagTable) (item : List Entry × Bytes) : Prop :=
  ∃ table, table.Sound ∧ tags.Extends table ∧ tags.Keeps table ∧
    Payload.encode? .tagged table item.1 = some item.2 ∧
    ∀ entry ∈ item.1, ∃ tag, table.lookup? tag = some entry.tag

structure Sound (r : Recording) : Prop where
  drainage : r.drainage.Sound
  writer : r.drainage.reporter.writer = .ofFormat .tagged
  tags : r.drainage.tags.Sound
  owners_length : r.owners.length = r.calls.length
  records : ∀ number record, r.records[number]? = some record →
    RecordSound r.drainage.tags r.calls r.owners number record
  owned : ∀ call write, r.calls[call]? = some write → CallOwned r.records r.owners call write
  encoded : ∀ item ∈ r.drainage.journal.encoded, EncodedSound r.drainage.tags item

variable {r : Recording} {tags tags' : TagTable} {calls calls' : List Ring.WriteCall}
  {owners owners' : List Nat} {records : List RecordCall} {number other call : Nat}
  {record : RecordCall} {write : Ring.WriteCall} {phase : RecordCall.Phase}

/-- A record keeps its standing where its tag keeps its id and its call stays its own. -/
theorem RecordSound.frame (h : RecordSound tags calls owners number record)
    (htags : tags'.Keeps tags)
    (howners : ∀ call : Nat, owners[call]? = some number → owners'[call]? = some number)
    (hcalls : ∀ (call : Nat) write, owners[call]? = some number → calls[call]? = some write →
      calls'[call]? = some write) : RecordSound tags' calls' owners' number record := by
  unfold RecordSound at h ⊢
  cases hphase : record.phase with
  | trying id left => simp only [hphase] at h ⊢; exact htags _ _ h
  | writing id left call =>
    simp only [hphase] at h ⊢
    obtain ⟨hid, howner, write, hwrite, hvalue, htag⟩ := h
    exact ⟨htags _ _ hid, howners call howner, write, hcalls call write howner hwrite, hvalue, htag⟩
  | accepted call =>
    simp only [hphase] at h ⊢
    obtain ⟨howner, write, hwrite, hvalue, hid, hreturned⟩ := h
    exact ⟨howners call howner, write, hcalls call write howner hwrite, hvalue, htags _ _ hid,
      hreturned⟩
  | inserting => simp only [hphase] at h ⊢; exact h
  | _ => trivial

theorem EncodedSound.mono {item : List Entry × Bytes} (h : EncodedSound tags item)
    (hextends : tags'.Extends tags) (hkeeps : tags'.Keeps tags) : EncodedSound tags' item := by
  obtain ⟨table, hsound, hextends', hkeeps', hencode, hfound⟩ := h
  exact ⟨table, hsound, hextends'.trans hextends, fun tag id hid => hkeeps _ _ (hkeeps' _ _ hid),
    hencode, hfound⟩

theorem CallOwned.enter (h : CallOwned records owners call write)
    (hrecord : records[number]? = some record)
    (hstand : owners[call]? = some number → Standing call write record.phase →
      Standing call write phase) :
    CallOwned (records.set number { record with phase := phase }) owners call write := by
  obtain ⟨owner, owned, howner, howned, hstanding⟩ := h
  by_cases hsame : owner = number
  · subst hsame
    obtain rfl : record = owned := Option.some.inj (hrecord.symm.trans howned)
    have hlt := (List.getElem?_eq_some_iff.1 hrecord).1
    exact ⟨owner, { record with phase := phase }, howner, List.getElem?_set_self hlt,
      hstand howner hstanding⟩
  · refine ⟨owner, owned, howner, ?_, hstanding⟩
    rw [List.getElem?_set_ne (Ne.symm hsame)]
    exact howned

theorem CallOwned.grow (h : CallOwned records owners call write) (more : List Nat) :
    CallOwned records (owners ++ more) call write := by
  obtain ⟨owner, owned, howner, howned, hstanding⟩ := h
  have hlt := (List.getElem?_eq_some_iff.1 howner).1
  exact ⟨owner, owned, (List.getElem?_append_left hlt).trans howner, howned, hstanding⟩

theorem Standing.turned_away (h : Standing call write phase) (haccepted : phase ≠ .accepted call)
    (hwriting : ∀ id left, phase ≠ .writing id left call) : write.phase = .returned false := by
  rcases h with hfalse | ⟨hphase, -⟩ | ⟨⟨id, left, hphase⟩, -⟩
  · exact hfalse
  · exact absurd hphase haccepted
  · exact absurd hphase (hwriting id left)

theorem Sound.enter (hs : r.Sound) (hrecord : r.records[number]? = some record)
    {act : Drainage.Act}
    (hwriter : (r.drainage.act act).reporter.writer = r.drainage.reporter.writer)
    (htags : (r.drainage.act act).tags.Sound)
    (hextends : (r.drainage.act act).tags.Extends r.drainage.tags)
    (hkeeps : (r.drainage.act act).tags.Keeps r.drainage.tags)
    (hencoded : (r.drainage.act act).journal.encoded = r.drainage.journal.encoded)
    (hlength : owners'.length = (r.drainage.act act).traffic.calls.length)
    (hothers : ∀ other, other ≠ number → ∀ call : Nat, r.owners[call]? = some other →
      owners'[call]? = some other ∧
        (r.drainage.act act).traffic.calls[call]? = r.calls[call]?)
    (hself : RecordSound (r.drainage.act act).tags (r.drainage.act act).traffic.calls owners' number
      { record with phase := phase })
    (howned : ∀ (call : Nat) write, (r.drainage.act act).traffic.calls[call]? = some write →
      CallOwned (r.enter number record phase) owners' call write) :
    Sound { drainage := r.drainage.act act, records := r.enter number record phase,
            owners := owners' } := by
  refine ⟨hs.drainage.act act, hwriter.trans hs.writer, htags, hlength, ?_, howned, ?_⟩
  · intro other moved hmoved
    by_cases hsame : other = number
    · subst hsame
      have hlt := (List.getElem?_eq_some_iff.1 hrecord).1
      simp only [enter, List.getElem?_set_self hlt, Option.some.injEq] at hmoved
      exact hmoved ▸ hself
    · have hold : r.records[other]? = some moved :=
        (List.getElem?_set_ne (Ne.symm hsame)).symm.trans hmoved
      refine (hs.records other moved hold).frame hkeeps (fun call howner => ?_)
        fun call write howner hwrite => ?_
      · exact (hothers other hsame call howner).1
      · exact (hothers other hsame call howner).2.trans hwrite
  · intro item hitem
    exact (hs.encoded item (hencoded ▸ hitem)).mono hextends hkeeps

theorem Sound.enter_quiet (hs : r.Sound) (hrecord : r.records[number]? = some record)
    (act : Drainage.Act)
    (hwriter : (r.drainage.act act).reporter.writer = r.drainage.reporter.writer)
    (htags : (r.drainage.act act).tags.Sound)
    (hextends : (r.drainage.act act).tags.Extends r.drainage.tags)
    (hkeeps : (r.drainage.act act).tags.Keeps r.drainage.tags)
    (hencoded : (r.drainage.act act).journal.encoded = r.drainage.journal.encoded)
    (hcalls : (r.drainage.act act).traffic.calls = r.calls)
    (haccepted : ∀ call, record.phase ≠ .accepted call)
    (hwriting : ∀ id left call, record.phase ≠ .writing id left call)
    (hself : RecordSound (r.drainage.act act).tags r.calls r.owners number
      { record with phase := phase }) :
    Sound { r with drainage := r.drainage.act act, records := r.enter number record phase } := by
  refine hs.enter hrecord hwriter htags hextends hkeeps hencoded (hcalls ▸ hs.owners_length)
    (fun other _ call howner => ⟨howner, by rw [hcalls]⟩) (hcalls.symm ▸ hself) ?_
  intro call write hwrite
  rw [hcalls] at hwrite
  refine (hs.owned call write hwrite).enter hrecord fun _ hstand => ?_
  exact Or.inl (hstand.turned_away (haccepted call) fun id left => hwriting id left call)

theorem Sound.begin_write (hs : r.Sound) (hrecord : r.records[number]? = some record)
    {id : Int32} {left : Nat} (hphase : record.phase = .trying id (left + 1)) :
    Sound { r with
      drainage := r.drainage.act (.write record.value id)
      records := r.enter number record (.writing id left r.calls.length)
      owners := r.owners ++ [number] } := by
  have hid := hs.records number record hrecord
  simp only [RecordSound, hphase] at hid
  have hkeep : ∀ {call : Nat} {owner : Nat}, r.owners[call]? = some owner →
      (r.owners ++ [number])[call]? = some owner ∧
        (r.calls ++ [{ value := record.value, tag := id }])[call]? = r.calls[call]? := by
    intro call owner howner
    have hlt := (List.getElem?_eq_some_iff.1 howner).1
    have hlt' := hs.owners_length ▸ hlt
    exact ⟨(List.getElem?_append_left hlt).trans howner, List.getElem?_append_left hlt'⟩
  have hnew : (r.owners ++ [number])[r.calls.length]? = some number := by
    rw [← hs.owners_length]
    exact List.getElem?_concat_length
  refine hs.enter hrecord rfl hs.tags (TagTable.extends_refl _) (TagTable.keeps_refl _) rfl ?_
    (fun other _ call howner => hkeep howner) ?_ ?_
  · show (r.owners ++ [number]).length = (r.calls ++ [_]).length
    rw [List.length_append, List.length_append, hs.owners_length]
    rfl
  · exact ⟨hid, hnew, _, List.getElem?_concat_length, rfl, rfl⟩
  · intro call write hwrite
    by_cases hold : call < r.calls.length
    · have hwrite' : r.calls[call]? = some write :=
        (List.getElem?_append_left hold).symm.trans hwrite
      refine CallOwned.enter ?_ hrecord fun _ hstand => Or.inl ?_
      · exact (hs.owned call write hwrite').grow _
      · exact hstand.turned_away (by rw [hphase]; nofun) (by rw [hphase]; nofun)
    · have hlt := (List.getElem?_eq_some_iff.1 hwrite).1
      have hlast : call = r.calls.length := by
        have : call < (r.calls ++ [{ value := record.value, tag := id : Ring.WriteCall }]).length :=
          hlt
        rw [List.length_append, List.length_singleton] at this
        omega
      subst hlast
      obtain rfl : { value := record.value, tag := id : Ring.WriteCall } = write :=
        Option.some.inj (List.getElem?_concat_length.symm.trans hwrite)
      have hlt' := (List.getElem?_eq_some_iff.1 hrecord).1
      exact ⟨number, _, hnew, List.getElem?_set_self hlt', Or.inr (Or.inr ⟨⟨id, left, rfl⟩, nofun⟩)⟩

theorem after_sound {id : Int32} (left : Nat) (hid : tags.lookup? record.tag = some id)
    (howner : owners[call]? = some number) (hwrite : calls[call]? = some write)
    (hvalue : write.value = record.value) (htag : write.tag = id) :
    RecordSound tags calls owners number
        { record with phase := .after id left call (some write.phase) } ∧
      Standing call write (.after id left call (some write.phase)) := by
  cases hphase : write.phase with
  | returned result =>
    cases result with
    | true =>
      exact ⟨⟨howner, write, hwrite, hvalue, htag.symm ▸ hid, hphase⟩,
        Or.inr (Or.inl ⟨rfl, hphase⟩)⟩
    | false => exact ⟨hid, Or.inl hphase⟩
  | _ =>
    refine ⟨⟨hid, howner, write, hwrite, hvalue, htag⟩, Or.inr (Or.inr ⟨⟨id, left, rfl⟩, ?_⟩)⟩
    rw [hphase]
    nofun

theorem Sound.access_write (hs : r.Sound) (hrecord : r.records[number]? = some record)
    {id : Int32} {left : Nat} (hphase : record.phase = .writing id left call) (spurious : Bool) :
    let drainage := r.drainage.act (.access call spurious)
    Sound { r with
      drainage := drainage
      records := r.enter number record
        (.after id left call (drainage.traffic.calls[call]?.map Ring.WriteCall.phase)) } := by
  intro drainage
  have hself := hs.records number record hrecord
  simp only [RecordSound, hphase] at hself
  obtain ⟨hid, howner, write, hwrite, hvalue, htag⟩ := hself
  obtain ⟨write', hcalls, hvalue', htag'⟩ := Ring.Traffic.access_calls hwrite spurious
  have hlt := (List.getElem?_eq_some_iff.1 hwrite).1
  have hwrite' : drainage.traffic.calls[call]? = some write' := by
    show (r.drainage.traffic.access call spurious).calls[call]? = some write'
    rw [hcalls]
    exact List.getElem?_set_self hlt
  have hothers : ∀ {other : Nat}, other ≠ call →
      drainage.traffic.calls[other]? = r.calls[other]? := by
    intro other hne
    show (r.drainage.traffic.access call spurious).calls[other]? = r.calls[other]?
    rw [hcalls]
    exact List.getElem?_set_ne (Ne.symm hne)
  obtain ⟨hrecordSound, hstanding⟩ :=
    after_sound left hid howner hwrite' (hvalue'.trans hvalue) (htag'.trans htag)
  rw [hwrite', Option.map_some]
  refine hs.enter hrecord rfl hs.tags (TagTable.extends_refl _) (TagTable.keeps_refl _) rfl ?_ ?_
    hrecordSound ?_
  · show r.owners.length = (r.drainage.traffic.access call spurious).calls.length
    rw [hcalls, List.length_set]
    exact hs.owners_length
  · intro other hne call' howner'
    refine ⟨howner', hothers ?_⟩
    rintro rfl
    exact hne (Option.some.inj (howner'.symm.trans howner))
  · intro call' other hother
    by_cases hsame : call' = call
    · subst hsame
      obtain rfl : write' = other := Option.some.inj (hwrite'.symm.trans hother)
      have hlt' := (List.getElem?_eq_some_iff.1 hrecord).1
      exact ⟨number, _, howner, List.getElem?_set_self hlt', hstanding⟩
    · have hold := (hothers hsame).symm.trans hother
      refine (hs.owned call' other hold).enter hrecord fun _ hstand => Or.inl ?_
      refine hstand.turned_away (by rw [hphase]; nofun) fun id' left' hwriting => hsame ?_
      rw [hphase] at hwriting
      cases hwriting
      rfl

theorem Sound.step (hs : r.Sound) (number : Nat) (spurious : Bool) :
    (r.step number spurious).Sound := by
  unfold Recording.step
  cases hrecord : r.records[number]? with
  | none => exact hs
  | some record =>
    have hself := hs.records number record hrecord
    cases hphase : record.phase with
    | looking =>
      simp only [hphase]
      cases hlookup : r.drainage.tags.lookup? record.tag with
      | some id =>
        exact hs.enter_quiet hrecord (.retag r.drainage.tags) rfl hs.tags (TagTable.extends_refl _)
          (TagTable.keeps_refl _) rfl rfl (by rw [hphase]; nofun) (by rw [hphase]; nofun) hlookup
      | none =>
        exact hs.enter_quiet hrecord (.retag r.drainage.tags) rfl hs.tags (TagTable.extends_refl _)
          (TagTable.keeps_refl _) rfl rfl (by rw [hphase]; nofun) (by rw [hphase]; nofun)
          (TagTable.lookup?_ne_empty hlookup)
    | inserting =>
      simp only [RecordSound, hphase] at hself
      simp only [hphase]
      have hlookup := TagTable.lookup?_insert r.drainage.tags record.tag
        (Bool.eq_false_iff.2 fun hempty => hself (String.isEmpty_iff.1 hempty))
      exact hs.enter_quiet hrecord (.retag _) rfl (hs.tags.insert hself)
        (TagTable.insert_extends _ _) (TagTable.insert_keeps _ _) rfl rfl (by rw [hphase]; nofun)
        (by rw [hphase]; nofun) hlookup
    | trying id left =>
      cases left with
      | zero =>
        simp only [hphase]
        exact hs.enter_quiet hrecord .drop rfl hs.tags (TagTable.extends_refl _)
          (TagTable.keeps_refl _) rfl rfl (by rw [hphase]; nofun) (by rw [hphase]; nofun) trivial
      | succ left =>
        simp only [hphase]
        exact hs.begin_write hrecord hphase
    | writing id left call =>
      simp only [hphase]
      exact hs.access_write hrecord hphase spurious
    | accepted call => simpa only [hphase] using hs
    | dropped => simpa only [hphase] using hs

/-- What the loop has drained was written by calls that their records were accepted by. -/
theorem Sound.accepted_of_handed (hs : r.Sound) {i : Nat} {entry : Entry}
    (h : r.drainage.traffic.handed.flatten[i]? = some entry) :
    ∃ tag, r.drainage.tags.lookup? tag = some entry.tag ∧
      r.accepted? (r.drainage.traffic.origin + i) = some (tag, Payload.timed entry) := by
  have hring := hs.drainage.traffic
  have hlength := hring.handed_length
  have hlt := (List.getElem?_eq_some_iff.1 h).1
  obtain ⟨call, write, hclaim, hwrite, hphase⟩ :=
    hring.settled (p := r.drainage.traffic.origin + i) (Nat.le_add_right _ _) (by omega)
  have hrecorded := hring.recorded?_of_handed h
  rw [Nat.add_sub_cancel_left] at hclaim
  rw [Ring.Traffic.recorded?, Nat.add_sub_cancel_left, hclaim, Option.bind_some,
    Ring.Traffic.written?, hwrite, Option.bind_some, Ring.WriteCall.written?,
    Option.map_eq_some_iff] at hrecorded
  obtain ⟨ticks, hticks, rfl⟩ := hrecorded
  obtain ⟨number, record, howner, hrecord, hstanding⟩ := hs.owned call write hwrite
  have haccepted : record.phase = .accepted call := by
    rcases hstanding with hfalse | ⟨hacc, -⟩ | ⟨-, hnone⟩
    · rw [hphase] at hfalse
      cases hfalse
    · exact hacc
    · exact absurd hphase (hnone true)
  have hself := hs.records number record hrecord
  simp only [RecordSound, haccepted] at hself
  obtain ⟨-, write', hwrite', hvalue, hid, -⟩ := hself
  obtain rfl : write' = write := Option.some.inj (hwrite'.symm.trans hwrite)
  refine ⟨record.tag, hid, ?_⟩
  have hcalls : r.calls[call]? = some write' := hwrite
  simp [accepted?, hclaim, howner, hrecord, hcalls, hticks, haccepted,
    Payload.timed, hvalue]

theorem Sound.pending_found (hs : r.Sound) {entry : Entry}
    (hentry : entry ∈ r.drainage.loop.pending) :
    ∃ tag, r.drainage.tags.lookup? tag = some entry.tag := by
  have hhanded : entry ∈ r.drainage.traffic.handed.flatten := by
    rw [← hs.drainage.loop.drained]
    exact List.mem_append_right _ hentry
  obtain ⟨i, hi⟩ := List.mem_iff_getElem?.1 hhanded
  obtain ⟨tag, htag, -⟩ := hs.accepted_of_handed hi
  exact ⟨tag, htag⟩

theorem Sound.outside (hs : r.Sound) {act : Drainage.Act} (hother : act.isOther = true) :
    Sound { r with drainage := r.drainage.act act } := by
  have hsame : Drainage.SameWriters r.drainage (r.drainage.act act) :=
    Drainage.other_sameWriters hother
  have hcalls : calls { r with drainage := r.drainage.act act } = r.calls := hsame.calls
  refine ⟨hs.drainage.act act, hsame.writer.trans hs.writer, hsame.tags.symm ▸ hs.tags, ?_, ?_, ?_,
    ?_⟩
  · rw [hcalls]
    exact hs.owners_length
  · intro number record hrecord
    rw [hcalls, hsame.tags]
    exact hs.records number record hrecord
  · rw [hcalls]
    exact hs.owned
  · intro item hitem
    rw [hsame.tags]
    rcases Drainage.act_mem_encoded hitem with hold | ⟨hpending, hpayload⟩
    · exact hs.encoded item hold
    · rw [hs.writer] at hpayload
      refine ⟨r.drainage.tags, hs.tags, TagTable.extends_refl _, TagTable.keeps_refl _,
        hpayload, fun entry hentry => ?_⟩
      rw [hpending] at hentry
      exact hs.pending_found hentry

theorem Sound.begin (hs : r.Sound) (value : Int64) (tag : String) :
    Sound { r with records := r.records ++ [{ value := value, tag := tag }] } := by
  refine ⟨hs.drainage, hs.writer, hs.tags, hs.owners_length, ?_, ?_, hs.encoded⟩
  · intro number record hrecord
    rw [List.getElem?_append] at hrecord
    split at hrecord
    · exact hs.records number record hrecord
    · obtain rfl := List.mem_singleton.1 (List.mem_of_getElem? hrecord)
      trivial
  · intro call write hwrite
    obtain ⟨number, record, howner, hrecord, hstanding⟩ := hs.owned call write hwrite
    have hlt := (List.getElem?_eq_some_iff.1 hrecord).1
    exact ⟨number, record, howner, (List.getElem?_append_left hlt).trans hrecord, hstanding⟩

theorem Sound.act (hs : r.Sound) (act : Act) : (r.act act).Sound := by
  cases act with
  | record value tag => exact hs.begin value tag
  | step number spurious => exact hs.step number spurious
  | other act =>
    simp only [Recording.act]
    split
    · rename_i hother
      exact hs.outside hother
    · exact hs

theorem Sound.run (hs : r.Sound) (acts : List Act) : (r.run acts).Sound := by
  induction acts generalizing r with
  | nil => exact hs
  | cons act acts ih => exact ih (hs.act act)

end MetricReporting.Recording
