import MetricReporting.Proofs.Recording.Recording
import MetricReporting.Proofs.Ring.Uninterrupted

/-!
# A record that nobody interrupts

The steps of a record in a row are `MetricBuffer.record`: they leave the same ring, the same tag
table and the same telemetry, and end in the same way.
-/
namespace MetricReporting.Recording

variable {r r' : Recording} {number call n : Nat} {record : RecordCall} {phase : RecordCall.Phase}
  {id : Int32} {left : Nat} {write : Ring.WriteCall} {result : Bool}

theorem run_append (r : Recording) (acts more : List Act) :
    r.run (acts ++ more) = (r.run acts).run more :=
  List.foldl_append

structure Gets (r : Recording) (number : Nat) (record : RecordCall) (phase : RecordCall.Phase)
    (buffer : MetricBuffer) (telemetry : Telemetry) (r' : Recording) : Prop where
  records : r'.records = r.records.set number { record with phase := phase }
  stream : r'.drainage.stream = { r.drainage.stream with buffer := buffer, telemetry := telemetry }
  consumer : r'.drainage.traffic.consumer = r.drainage.traffic.consumer

/-- Some number of the record's steps in a row get it there. -/
def Leads (r : Recording) (number : Nat) (record : RecordCall) (phase : RecordCall.Phase)
    (buffer : MetricBuffer) (telemetry : Telemetry) : Prop :=
  ∃ n, Gets r number record phase buffer telemetry (r.run (List.replicate n (.step number false)))

variable {buffer buffer' : MetricBuffer} {telemetry telemetry' : Telemetry}
  {phase' : RecordCall.Phase}

theorem Gets.getElem? (h : Gets r number record phase buffer telemetry r')
    (hrecord : r.records[number]? = some record) :
    r'.records[number]? = some { record with phase := phase } := by
  have hlt := (List.getElem?_eq_some_iff.1 hrecord).1
  rw [h.records]
  exact List.getElem?_set_self hlt

theorem Gets.buffer_eq (h : Gets r number record phase buffer telemetry r') :
    r'.drainage.stream.buffer = buffer :=
  congrArg MetricStream.buffer h.stream

theorem Gets.ring_eq (h : Gets r number record phase buffer telemetry r') :
    r'.drainage.traffic.ring = buffer.ring :=
  congrArg MetricBuffer.ring h.buffer_eq

theorem Gets.metricType_eq (h : Gets r number record phase buffer telemetry r') :
    r'.drainage.metricType = buffer.metricType :=
  congrArg MetricBuffer.metricType h.buffer_eq

theorem Gets.telemetry_eq (h : Gets r number record phase buffer telemetry r') :
    r'.drainage.telemetry = telemetry :=
  congrArg MetricStream.telemetry h.stream

theorem Gets.trans {r'' : Recording} (h : Gets r number record phase buffer telemetry r')
    (h' : Gets r' number { record with phase := phase } phase' buffer' telemetry' r'') :
    Gets r number record phase' buffer' telemetry' r'' := by
  refine ⟨?_, ?_, h'.consumer.trans h.consumer⟩
  · rw [h'.records, h.records, List.set_set]
  · rw [h'.stream, h.stream]

theorem Gets.leads
    (h : Gets r number record phase buffer telemetry
      (r.run (List.replicate n (.step number false))))
    (h' : Leads (r.run (List.replicate n (.step number false))) number
      { record with phase := phase } phase' buffer' telemetry') :
    Leads r number record phase' buffer' telemetry' := by
  obtain ⟨m, hm⟩ := h'
  refine ⟨n + m, ?_⟩
  rw [List.replicate_add, run_append]
  exact h.trans hm

def settled (id : Int32) (left call : Nat) (result : Bool) : RecordCall.Phase :=
  if result then .accepted call else .trying id left

theorem leads_writing (hrecord : r.records[number]? = some record)
    (hphase : record.phase = .writing id left call) (hwrite : r.calls[call]? = some write)
    (hopen : ∀ result, write.phase ≠ .returned result) {ring : Ring}
    (hsteps : Ring.Write.steps write.value write.tag n (r.drainage.traffic.ring, write.phase) =
      (ring, .returned result)) :
    Leads r number record (settled id left call result)
      { r.drainage.stream.buffer with ring := ring } r.drainage.telemetry := by
  induction n generalizing r record write with
  | zero => exact absurd (congrArg Prod.snd hsteps) (hopen result)
  | succ n ih =>
    let after := write.step false r.drainage.traffic.ring
    have hlt := (List.getElem?_eq_some_iff.1 hwrite).1
    have haccess : r.drainage.traffic.access call false = { r.drainage.traffic with
        ring := after.1
        calls := r.calls.set call after.2
        claims := if after.2.phase.isClaimed then r.drainage.traffic.claims ++ [call]
          else r.drainage.traffic.claims } := by
      have hwrite' : r.drainage.traffic.calls[call]? = some write := hwrite
      simp only [Ring.Traffic.access, hwrite']
      rfl
    have hcall : (r.drainage.traffic.access call false).calls[call]? = some after.2 := by
      rw [haccess]
      exact List.getElem?_set_self hlt
    have hstep : r.step number false = { r with
        drainage := r.drainage.act (.access call false)
        records := r.enter number record (.after id left call (some after.2.phase)) } := by
      simp only [Recording.step, hrecord, hphase, Drainage.act, Ring.Traffic.act, hcall,
        Option.map_some]
    have hgets : Gets r number record (.after id left call (some after.2.phase))
        { r.drainage.stream.buffer with ring := after.1 } r.drainage.telemetry
        (r.step number false) := by
      rw [hstep]
      refine ⟨rfl, ?_, Ring.Traffic.access_consumer _ _⟩
      simp only [Drainage.act, Drainage.stream, Ring.Traffic.act, haccess]
    have hsteps' : Ring.Write.steps write.value write.tag n (after.1, after.2.phase) =
        (ring, .returned result) := hsteps
    cases hafter : after.2.phase with
    | returned result' =>
      rw [hafter, Ring.Write.steps_returned] at hsteps'
      obtain ⟨hring, hresult⟩ := Prod.mk.inj hsteps'
      obtain rfl : result' = result := by cases hresult; rfl
      have hsettled : RecordCall.Phase.after id left call (some (.returned result')) =
          settled id left call result' := by
        cases result' <;> rfl
      rw [hafter, hsettled, hring] at hgets
      exact ⟨1, hgets⟩
    | _ =>
      have hopen' : ∀ result, after.2.phase ≠ .returned result := by
        simp [hafter]
      have hwriting : RecordCall.Phase.after id left call (some after.2.phase) =
          .writing id left call := by
        rw [hafter]
        rfl
      rw [hwriting] at hgets
      have hcalls : (r.step number false).calls[call]? = some after.2 := by
        rw [hstep]
        exact hcall
      have hlead := ih (hgets.getElem? hrecord) rfl hcalls hopen'
        (by rw [hgets.ring_eq]; exact hsteps')
      rw [hgets.buffer_eq, hgets.telemetry_eq] at hlead
      exact @Gets.leads _ _ 1 _ _ _ _ _ _ _ hgets hlead

def Ends (phase : RecordCall.Phase) (accepted : Bool) : Prop :=
  if accepted then ∃ call, phase = .accepted call else phase = .dropped

def reported (telemetry : Telemetry) (metricType : String) (accepted : Bool) : Telemetry :=
  if accepted then telemetry else telemetry.dropped metricType

theorem leads_trying {value : Int64} (hrecord : r.records[number]? = some record)
    (hvalue : record.value = value) (hphase : record.phase = .trying id left) :
    let result := Ring.writeWithin value id left r.drainage.traffic.ring
    ∃ phase, Ends phase result.1 ∧ Leads r number record phase
      { r.drainage.stream.buffer with ring := result.2 }
      (reported r.drainage.telemetry r.drainage.metricType result.1) := by
  induction left generalizing r record with
  | zero =>
    refine ⟨.dropped, rfl, 1, ?_⟩
    have hstep : r.run [.step number false] = { r with
        drainage := r.drainage.act .drop
        records := r.enter number record .dropped } := by
      simp only [Recording.run, List.foldl_cons, List.foldl_nil, Recording.act, Recording.step,
        hrecord, hphase]
    rw [List.replicate_one, hstep]
    exact ⟨rfl, rfl, rfl⟩
  | succ left ih =>
    have hstep : r.run [.step number false] = { r with
        drainage := r.drainage.act (.write value id)
        records := r.enter number record (.writing id left r.calls.length)
        owners := r.owners ++ [number] } := by
      simp only [Recording.run, List.foldl_cons, List.foldl_nil, Recording.act, Recording.step,
        hrecord, hphase, hvalue]
    have hgets : Gets r number record (.writing id left r.calls.length) r.drainage.stream.buffer
        r.drainage.telemetry (r.run [.step number false]) := by
      rw [hstep]
      exact ⟨rfl, rfl, rfl⟩
    have hcall : (r.run [.step number false]).calls[r.calls.length]? =
        some { value := value, tag := id } := by
      rw [hstep]
      exact List.getElem?_concat_length
    cases htry : r.drainage.traffic.ring.tryWrite value id with
    | mk accepted ring =>
      have hsteps : Ring.Write.steps value id 6
          ((r.run [.step number false]).drainage.traffic.ring, .starting) =
            (ring, .returned accepted) := by
        rw [hgets.ring_eq, Ring.Write.steps_eq_tryWrite]
        exact congrArg (fun tried => (tried.2, Ring.Write.returned tried.1)) htry
      obtain ⟨n, hn⟩ := leads_writing (hgets.getElem? hrecord) rfl hcall nofun hsteps
      have htried : Gets r number record (settled id left r.calls.length accepted)
          { r.drainage.stream.buffer with ring := ring } r.drainage.telemetry
          (r.run (List.replicate (1 + n) (.step number false))) := by
        rw [hgets.buffer_eq, hgets.telemetry_eq] at hn
        rw [List.replicate_add, run_append]
        exact hgets.trans hn
      cases accepted with
      | true =>
        refine ⟨.accepted r.calls.length, ?_⟩
        simp only [Ring.writeWithin, htry]
        exact ⟨⟨_, rfl⟩, 1 + n, htried⟩
      | false =>
        obtain ⟨phase, hends, hlead⟩ := ih (htried.getElem? hrecord) hvalue rfl
        rw [htried.ring_eq] at hends
        rw [htried.ring_eq, htried.buffer_eq, htried.telemetry_eq, htried.metricType_eq] at hlead
        refine ⟨phase, ?_⟩
        simp only [Ring.writeWithin, htry]
        exact ⟨hends, htried.leads hlead⟩

theorem leads_looking (hrecord : r.records[number]? = some record)
    (hphase : record.phase = .looking) :
    Leads r number record (.trying (r.drainage.tags.intern record.tag).1 Ring.writeAttempts)
      { r.drainage.stream.buffer with tags := (r.drainage.tags.intern record.tag).2 }
      r.drainage.telemetry := by
  unfold TagTable.intern
  cases hlookup : r.drainage.tags.lookup? record.tag with
  | some id =>
    have hstep : r.run [.step number false] =
        { r with records := r.enter number record (.trying id Ring.writeAttempts) } := by
      simp only [Recording.run, List.foldl_cons, List.foldl_nil, Recording.act, Recording.step,
        hrecord, hphase, hlookup]
    refine ⟨1, ?_⟩
    rw [List.replicate_one, hstep]
    exact ⟨rfl, rfl, rfl⟩
  | none =>
    let looked : Recording := { r with records := r.enter number record .inserting }
    have hstep : r.run [.step number false] = looked := by
      simp only [Recording.run, List.foldl_cons, List.foldl_nil, Recording.act, Recording.step,
        hrecord, hphase, hlookup]
      rfl
    have hgets : Gets r number record .inserting r.drainage.stream.buffer r.drainage.telemetry
        (r.run [.step number false]) := by
      rw [hstep]
      exact ⟨rfl, rfl, rfl⟩
    have hinserting := hgets.getElem? hrecord
    rw [hstep] at hinserting
    have hinsert : looked.run [.step number false] = { looked with
        drainage := r.drainage.act (.retag (r.drainage.tags.insert record.tag).2)
        records := looked.enter number { record with phase := .inserting }
          (.trying (r.drainage.tags.insert record.tag).1 Ring.writeAttempts) } := by
      simp only [Recording.run, List.foldl_cons, List.foldl_nil, Recording.act, Recording.step,
        hinserting]
      rfl
    refine @Gets.leads _ _ 1 _ _ _ _ _ _ _ hgets ⟨1, ?_⟩
    rw [List.replicate_one, hstep, hinsert]
    exact ⟨rfl, rfl, rfl⟩

theorem recordId_eq (buffer : MetricBuffer) (telemetry : Telemetry) {value : Int64} {id : Int32}
    {accepted : Bool} {ring : Ring} (h : buffer.ring.writeWithRetry value id = (accepted, ring)) :
    buffer.recordId telemetry value id =
      (accepted, { buffer with ring := ring },
        reported telemetry buffer.metricType accepted) := by
  rw [MetricBuffer.recordId, h]
  rfl

/-- A record that nobody interrupts is `MetricBuffer.record`. -/
theorem exists_run_record (r : Recording) (value : Int64) (tag : String) :
    let result := r.drainage.stream.buffer.record r.drainage.telemetry value tag
    ∃ n phase, Ends phase result.1 ∧
      let r' := r.run (.record value tag :: List.replicate n (.step r.records.length false))
      r'.records = r.records ++ [⟨value, tag, phase⟩] ∧
        r'.drainage.stream =
          { r.drainage.stream with buffer := result.2.1, telemetry := result.2.2 } ∧
        r'.drainage.traffic.consumer = r.drainage.traffic.consumer := by
  cases hwritten : r.drainage.traffic.ring.writeWithRetry value (r.drainage.tags.intern tag).1 with
  | mk accepted ring =>
  have hresult : r.drainage.stream.buffer.record r.drainage.telemetry value tag = _ :=
    recordId_eq { r.drainage.stream.buffer with tags := (r.drainage.tags.intern tag).2 }
      r.drainage.telemetry hwritten
  let begun := r.act (.record value tag)
  have hrecord : begun.records[r.records.length]? = some ⟨value, tag, .looking⟩ :=
    List.getElem?_concat_length
  obtain ⟨n, hn⟩ : Leads begun r.records.length ⟨value, tag, .looking⟩
      (.trying (r.drainage.tags.intern tag).1 Ring.writeAttempts)
      { r.drainage.stream.buffer with tags := (r.drainage.tags.intern tag).2 }
      r.drainage.telemetry := leads_looking hrecord rfl
  obtain ⟨phase, hends, hlead⟩ := leads_trying (hn.getElem? hrecord) (show _ = value from rfl) rfl
  obtain ⟨m, hm⟩ := hn.leads hlead
  generalize begun.run (List.replicate n (.step r.records.length false)) = looked at hn hends hm
  rw [hn.ring_eq] at hends hm
  rw [hn.buffer_eq, hn.telemetry_eq, hn.metricType_eq] at hm
  have hwithin : Ring.writeWithin value (r.drainage.tags.intern tag).1 Ring.writeAttempts
      r.drainage.stream.buffer.ring = (accepted, ring) := hwritten
  rw [hwithin] at hends hm
  rw [hresult]
  refine ⟨m, phase, hends, ?_, hm.stream, hm.consumer⟩
  have hset : begun.records.set r.records.length ⟨value, tag, phase⟩ =
      r.records ++ [⟨value, tag, phase⟩] := by
    show (r.records ++ [_]).set _ _ = _
    rw [List.set_append_right _ _ (Nat.le_refl _), Nat.sub_self, List.set_cons_zero]
  exact hm.records.trans hset

end MetricReporting.Recording
