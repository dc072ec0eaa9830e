import MetricReporting.Proofs.Recording.Ownership

/-!
# From records to payloads

The entries of a batch are those of a block of positions, each written for an accepted record under
its tag. Main statement: each payload decodes to the accepted records of its block, the blocks
follow each other without a gap, and the payloads are submitted in that order.
-/
namespace MetricReporting.Recording

variable {r : Recording} {number call : Nat} {record : RecordCall}

theorem ready_sound (metricType : String) (settings : DrainSettings) {ring : Ring}
    (hfresh : ring.Fresh) (earlier : List String) :
    (ready metricType settings ring earlier).Sound := by
  exact ⟨Drainage.ready_sound metricType settings _ hfresh _, rfl,
    TagTable.sound_empty.internAll earlier, rfl, nofun, nofun, nofun⟩

theorem act_origin (r : Recording) (act : Act) :
    (r.act act).drainage.traffic.origin = r.drainage.traffic.origin := by
  cases act with
  | record value tag => rfl
  | step number spurious =>
    simp only [Recording.act, Recording.step]
    split
    · rfl
    · split
      · split <;> rfl
      · rfl
      · rfl
      · rfl
      · exact Drainage.act_origin _ _
      · rfl
      · rfl
  | other act =>
    simp only [Recording.act]
    split
    · exact Drainage.act_origin _ _
    · rfl

theorem run_origin (r : Recording) (acts : List Act) :
    (r.run acts).drainage.traffic.origin = r.drainage.traffic.origin := by
  induction acts generalizing r with
  | nil => rfl
  | cons act acts ih => exact (ih (r.act act)).trans (act_origin r act)

theorem Sound.batch_eq (hs : r.Sound) (hsmall : r.drainage.tags.Small) {batch : List Entry}
    (hbatch : r.drainage.journal.batches[number]? = some batch) {table : TagTable}
    (htable : table.Sound) (hextends : r.drainage.tags.Extends table)
    (hkeeps : r.drainage.tags.Keeps table)
    (hfound : ∀ entry ∈ batch, ∃ tag, table.lookup? tag = some entry.tag) :
    (batch.map fun entry => some (Payload.nameOf table entry.tag, Payload.timed entry)) =
      (List.range' (r.drainage.traffic.origin + r.drainage.journal.before number) batch.length).map
        r.accepted? := by
  apply List.ext_getElem
  · simp
  · intro i hi hi'
    have hlt : i < batch.length := by simpa using hi
    have hentry : batch[i]? = some batch[i] := List.getElem?_eq_getElem hlt
    have hhanded : r.drainage.traffic.handed.flatten[r.drainage.journal.before number + i]? =
        some batch[i] := by
      have hflat := Drainage.getElem?_block hbatch hentry
      rw [← hs.drainage.loop.drained, List.getElem?_append_left]
      · exact hflat
      · exact (List.getElem?_eq_some_iff.1 hflat).1
    obtain ⟨tag, htag, haccepted⟩ := hs.accepted_of_handed hhanded
    obtain ⟨found, hid⟩ := hfound batch[i] (List.getElem_mem hlt)
    have hname := htable.name?_of_lookup? (hextends.small hsmall) hid
    have hsame : some found = some tag :=
      (hs.tags.name?_of_lookup? hsmall (hkeeps _ _ hid)).symm.trans
      (hs.tags.name?_of_lookup? hsmall htag)
    simp only [List.getElem_map, List.getElem_range', Nat.one_mul]
    rw [Nat.add_assoc, haccepted, Payload.nameOf, hname, Option.getD_some, Option.some.inj hsame]

theorem Sound.decodeTagged (hs : r.Sound) (hsmall : r.drainage.tags.Small)
    (hnames : ∀ name ∈ r.drainage.tags.names, (Bytes.ofText name).length < 2 ^ 31)
    {batch : List Entry} {payload : Bytes}
    (hitem : r.drainage.journal.encoded[number]? = some (batch, payload))
    (hcount : batch.length < 2 ^ 31) (hnear : Payload.Near batch) {pool : Payload.Pool}
    (hpool : pool.Reachable) :
    ∃ messages pool', Payload.decodeTagged payload pool = (.ok messages, pool') ∧
      ((Payload.contents messages).map some).Perm
        ((List.range' (r.drainage.traffic.origin + r.drainage.journal.before number)
          batch.length).map r.accepted?) := by
  obtain ⟨table, htable, hextends, hkeeps, hencode, hfound⟩ :=
    hs.encoded _ (List.mem_of_getElem? hitem)
  have horder := Entry.sortByTicks_ordering batch
  have hmem : ∀ entry, entry ∈ Entry.sortByTicks batch → entry ∈ batch :=
    fun entry hentry => horder.perm.mem_iff.1 hentry
  have hshort : ∀ name ∈ table.names, (Bytes.ofText name).length < 2 ^ 31 := by
    intro name hname
    exact hnames name (Array.mem_toList_iff.1 (hextends.subset (Array.mem_toList_iff.2 hname)))
  have hsorted : (Entry.sortByTicks batch).length < 2 ^ 31 := by
    rw [horder.perm.length_eq]
    exact hcount
  obtain ⟨result, pool', hdecode, hfilled⟩ := Payload.decodeTagged_encodeSorted hpool.clean
    horder.ascending (fun a ha b hb => hnear a (hmem a ha) b (hmem b hb)) hsorted
    (Payload.nameOf_length hshort)
  rw [← (Payload.encode?_eq_some_iff.1 hencode).2] at hdecode
  refine ⟨_, pool', hdecode, ?_⟩
  rw [← hs.batch_eq hsmall (Journal.getElem?_batches hitem) htable hextends hkeeps hfound]
  have hcontents := Payload.contents_perm hfilled
  have hbatch := horder.perm.map fun entry => (Payload.nameOf table entry.tag, Payload.timed entry)
  have hsome := (hcontents.trans hbatch).map some
  rw [List.map_map] at hsome
  exact hsome

theorem Sound.accepted_position (hs : r.Sound) (hrecord : r.records[number]? = some record)
    (hphase : record.phase = .accepted call) :
    ∃! p, r.drainage.traffic.origin ≤ p ∧ r.owner? p = some number := by
  have hring := hs.drainage.traffic
  have hself := hs.records number record hrecord
  simp only [RecordSound, hphase] at hself
  obtain ⟨howner, write, hwrite, -, -, hreturned⟩ := hself
  have hclaimed := hring.calls call write hwrite
  simp only [Ring.Traffic.CallSound, hreturned] at hclaimed
  obtain ⟨i, hi⟩ := List.mem_iff_getElem?.1 hclaimed.1
  refine ⟨r.drainage.traffic.origin + i, ⟨Nat.le_add_right _ _, ?_⟩, ?_⟩
  · rw [owner?, Nat.add_sub_cancel_left, hi, Option.bind_some, howner]
  rintro p ⟨hp, hother⟩
  rw [owner?, Option.bind_eq_some_iff] at hother
  obtain ⟨call', hclaim, howner'⟩ := hother
  -- another call of the same record was turned away, so it has claimed nothing
  have hsame : call' = call := by
    have hlt := (List.getElem?_eq_some_iff.1 howner').1
    rw [hs.owners_length] at hlt
    have hwrite' : r.calls[call']? = some r.calls[call'] := List.getElem?_eq_getElem hlt
    obtain ⟨number', record', hnumber, hrecord', hstanding⟩ := hs.owned call' _ hwrite'
    obtain rfl : number = number' := Option.some.inj (howner'.symm.trans hnumber)
    obtain rfl : record = record' := Option.some.inj (hrecord.symm.trans hrecord')
    by_contra hne
    have haway := hstanding.turned_away (by rw [hphase]; rintro ⟨⟩; exact hne rfl)
      (by simp [hphase])
    have hnone := hring.calls call' _ hwrite'
    simp only [Ring.Traffic.CallSound, haway] at hnone
    exact hnone (List.mem_of_getElem? hclaim)
  subst hsame
  have hlt := (List.getElem?_eq_some_iff.1 hi).1
  have hplace := (List.getElem?_inj hlt hring.claims_nodup).1 (hi.trans hclaim.symm)
  omega

/-- The entries encoded and the entries pending are, in one row, those of the positions drained. -/
theorem Sound.drained_eq (hs : r.Sound) :
    (r.drainage.journal.batches.flatten ++ r.drainage.loop.pending).map some =
      (List.range' r.drainage.traffic.origin
        (r.drainage.traffic.reached - r.drainage.traffic.origin)).map
          r.drainage.traffic.recorded? := by
  have hlength := hs.drainage.traffic.handed_length
  rw [hs.drainage.loop.drained]
  apply List.ext_getElem
  · rw [List.length_map, List.length_map, List.length_range']
    omega
  · intro i hi hi'
    have hlt : i < r.drainage.traffic.handed.flatten.length := by rwa [List.length_map] at hi
    have hrecorded := hs.drainage.traffic.recorded?_of_handed (List.getElem?_eq_getElem hlt)
    rw [List.getElem_map, List.getElem_map, List.getElem_range', Nat.one_mul, hrecorded]

theorem underWay_length (phase : DrainLoop.Phase) : phase.underWay.length ≤ 1 := by
  cases phase with
  | submitting payload entries next => exact Nat.le_refl _
  | _ => exact Nat.zero_le _

/-- However records, the loop and the sends interleave: a record that is accepted owns one position.
The batches, one after the other, and then what is pending are the entries of the positions drained
so far. The payloads of the batches are submitted in their order, each once, and at most one of them
still waits for its permit. The sender is called with each of those, unless a batch comes whose
ticks lie so far apart that the writer panics. Each payload decodes to the accepted records of the
block of positions that its batch takes up in that row, whatever the pool. -/
theorem payloads_hold_records (metricType : String) (settings : DrainSettings)
    (requested position : Nat) (clock : Clock) (earlier : List String) (acts : List Act) :
    let r := (ready metricType settings (Ring.startingAt requested position clock) earlier).run acts
    let journal := r.drainage.journal
    let traffic := r.drainage.traffic
    (∀ number record call, r.records[number]? = some record → record.phase = .accepted call →
      ∃! p, position ≤ p ∧ r.owner? p = some number) ∧
    ((journal.batches.flatten ++ r.drainage.loop.pending).map some =
        (List.range' position (traffic.reached - position)).map traffic.recorded? ∧
      (traffic.consumer.isReturned = true → traffic.reached = traffic.ring.consumed)) ∧
    (journal.encoded.map Prod.snd = journal.submitted ++ r.drainage.loop.phase.underWay ∧
      r.drainage.loop.phase.underWay.length ≤ 1 ∧ journal.callNumbers.Nodup ∧
      (∀ call ∈ journal.called, journal.submitted[call.1]? = some call.2) ∧
      (r.drainage.loop.phase = .panicked → ¬ Payload.Measurable r.drainage.loop.pending) ∧
      (r.drainage.loop.phase ≠ .panicked →
        ∀ number payload, journal.submitted[number]? = some payload →
          (number, payload) ∈ journal.called ∨ ∃ task ∈ r.drainage.loop.tasks,
            task.number = number ∧ task.payload = payload ∧ task.phase.hasCalled = false)) ∧
    (r.drainage.tags.size < 2 ^ 31 →
      (∀ name ∈ r.drainage.tags.names, (Bytes.ofText name).length < 2 ^ 31) →
      ∀ number batch payload, journal.encoded[number]? = some (batch, payload) →
        batch.length < 2 ^ 31 → Payload.Near batch → ∀ pool : Payload.Pool, pool.Reachable →
          ∃ messages pool', Payload.decodeTagged payload pool = (.ok messages, pool') ∧
            ((Payload.contents messages).map some).Perm
              ((List.range' (position + journal.before number) batch.length).map r.accepted?)) := by
  intro r journal traffic
  have hs : r.Sound :=
    (ready_sound metricType settings (Ring.startingAt_fresh requested position clock) earlier).run
      acts
  have horigin : r.drainage.traffic.origin = position := run_origin _ acts
  obtain ⟨tasks, hsends, -⟩ := hs.drainage.loop.sends
  refine ⟨fun number record call hrecord hphase => ?_,
    ⟨?_, Ring.Traffic.reached_of_isReturned⟩,
    ⟨hs.drainage.loop.encoded, underWay_length _, hsends.called_nodup, hsends.called,
      fun hpanicked => ?_,
      fun hruns number payload => (hs.drainage.loop.sends_tasks hruns).called_or_waiting⟩,
    fun hsize hnames number batch payload hitem hcount hnear pool hpool => ?_⟩
  · rw [← horigin]
    exact hs.accepted_position hrecord hphase
  · rw [← horigin]
    exact hs.drained_eq
  · obtain ⟨tags, hnone⟩ := hs.drainage.panicked hpanicked
    rw [hs.writer] at hnone
    exact Payload.encode?_eq_none_iff.1 hnone
  · have hsmall : r.drainage.tags.Small := by
      have := hs.tags.size_pos
      simp only [TagTable.size] at hsize
      unfold TagTable.Small
      omega
    rw [← horigin]
    exact hs.decodeTagged hsmall hnames hitem hcount hnear hpool

def crossing : List Act :=
  let record (number count : Nat) := List.replicate count (Act.step number false)
  let loop (now count : Nat) := List.replicate count (Act.other (.loop now))
  [.record 10 "b", .record 20 "a", .record 30 "b"] ++ record 0 6 ++ record 1 9 ++
    [.other (.start 0 true)] ++ record 0 3 ++ loop 0 40 ++
    [.other (.send 0 none), .other (.send 0 none)] ++ record 2 8 ++ loop 5 40

def crossed : Recording :=
  (ready "Latency" ⟨2, 2, 1, 1⟩ (Ring.startingAt 2 7 {}) ["old"]).run crossing

theorem payloads_hold_records_crossing :
    (∃ p, 7 ≤ p ∧ crossed.owner? p = some 2) ∧
    crossed.drainage.journal.batches = [[⟨2, 10, 2⟩, ⟨1, 20, 3⟩], [⟨3, 30, 2⟩]] ∧
    ∃ payload messages pool', crossed.drainage.journal.submitted = [payload] ∧
      Payload.decodeTagged payload {} = (.ok messages, pool') ∧
      ((Payload.contents messages).map some).Perm [some ("b", ⟨2, 10⟩), some ("a", ⟨1, 20⟩)] := by
  have hrecord : crossed.records[2]? = some ⟨30, "b", .accepted 2⟩ := by decide +kernel
  have hbatches : crossed.drainage.journal.batches =
      [[⟨2, 10, 2⟩, ⟨1, 20, 3⟩], [⟨3, 30, 2⟩]] := by decide +kernel
  have hlength : crossed.drainage.journal.submitted.length = 1 := by decide +kernel
  have haccepted : (List.range' 7 2).map crossed.accepted? =
      [some ("b", ⟨2, 10⟩), some ("a", ⟨1, 20⟩)] := by decide +kernel
  have hsize : crossed.drainage.tags.size < 2 ^ 31 := by decide +kernel
  have hnames : ∀ name ∈ crossed.drainage.tags.names, (Bytes.ofText name).length < 2 ^ 31 := by
    decide +kernel
  have hnear : Payload.Near [⟨2, 10, 2⟩, ⟨1, 20, 3⟩] := by
    unfold Payload.Near
    decide
  obtain ⟨hposition, -, ⟨hencoded, -⟩, hdecode⟩ :=
    payloads_hold_records "Latency" ⟨2, 2, 1, 1⟩ 2 7 {} ["old"] crossing
  rw [← crossed] at hposition hencoded hdecode
  obtain ⟨p, hp, -⟩ := hposition 2 _ 2 hrecord rfl
  obtain ⟨payload, hpayload⟩ := List.length_eq_one_iff.1 hlength
  rw [hpayload] at hencoded
  have hitem : crossed.drainage.journal.encoded[0]? =
      some ([⟨2, 10, 2⟩, ⟨1, 20, 3⟩], payload) := by
    rw [Journal.batches] at hbatches
    cases hjournal : crossed.drainage.journal.encoded with
    | nil => rw [hjournal] at hbatches; cases hbatches
    | cons item items =>
      rw [hjournal, List.map_cons, List.cons.injEq] at hbatches
      rw [hjournal, List.map_cons, List.singleton_append, List.cons.injEq] at hencoded
      exact congrArg some (Prod.ext hbatches.1 hencoded.1)
  obtain ⟨messages, pool', hmessages, hperm⟩ :=
    hdecode hsize hnames 0 _ payload hitem (by decide) hnear {} .new
  have hstart : 7 + crossed.drainage.journal.before 0 = 7 := rfl
  rw [hstart, List.length_cons, List.length_singleton, haccepted] at hperm
  exact ⟨⟨p, hp⟩, hbatches, payload, messages, pool', hpayload, hmessages, hperm⟩

end MetricReporting.Recording
