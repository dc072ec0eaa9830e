import MetricReporting.Proofs.Reporter.Settlement

/-!
# The books of a reporter

The answers of the sender are those settled and those that some task still has to count, the
counters are the totals over the settled ones, and every task carries the payload and the size of
the batch with its number. Steps of the loop and of the tasks keep the books in this order.
-/
namespace MetricReporting

section Places

variable {α β : Type} {rows : List α} {i : Nat} {a b : α}

theorem filterMap_set_perm (f : α → Option β) (h : rows[i]? = some a) :
    ((f a).toList ++ (rows.set i b).filterMap f).Perm ((f b).toList ++ rows.filterMap f) := by
  have hcons : ∀ row rest, List.filterMap f (row :: rest) =
      (f row).toList ++ List.filterMap f rest := by
    intro row rest
    cases hrow : f row <;> simp [hrow]
  induction rows generalizing i with
  | nil => simp at h
  | cons row rows ih =>
    cases i with
    | zero =>
      obtain rfl : row = a := by simpa using h
      rw [List.set_cons_zero, hcons, hcons]
      exact List.perm_append_comm_assoc _ _ _
    | succ i =>
      have hrest := ih (i := i) (by simpa using h)
      rw [List.set_cons_succ, hcons, hcons]
      exact (List.perm_append_comm_assoc _ _ _).trans
        ((hrest.append_left _).trans (List.perm_append_comm_assoc _ _ _))

theorem countP_set_add (p : α → Bool) (h : rows[i]? = some a) :
    (rows.set i b).countP p + (if p a then 1 else 0) = rows.countP p + if p b then 1 else 0 := by
  induction rows generalizing i with
  | nil => simp at h
  | cons row rows ih =>
    cases i with
    | zero =>
      obtain rfl : row = a := by simpa using h
      rw [List.set_cons_zero, List.countP_cons, List.countP_cons]
      omega
    | succ i =>
      have hrest := ih (i := i) (by simpa using h)
      rw [List.set_cons_succ, List.countP_cons, List.countP_cons]
      omega

end Places

def Journal.Backs (journal : Journal) (task : SendTask) : Prop :=
  ∃ batch, journal.encoded[task.number]? = some (batch, task.payload) ∧ batch.length = task.entries

def Journal.Awaits (journal : Journal) : DrainLoop.Phase → Prop
  | .submitting payload entries _ =>
      ∃ batch, journal.encoded.getLast? = some (batch, payload) ∧ batch.length = entries
  | _ => True

theorem Journal.awaits_of_underWay (journal : Journal) {phase : DrainLoop.Phase}
    (h : phase.underWay = []) : journal.Awaits phase := by
  cases phase with
  | submitting payload entries next => cases h
  | _ => trivial

namespace Journal

/-- The numbers of the payloads whose send came out this way. -/
def answeredAs (journal : Journal) (outcome : SendOutcome) : List Nat :=
  (journal.answered.filter fun answer => answer.2 = outcome).map Prod.fst

def entriesOf (journal : Journal) (number : Nat) : Nat :=
  (journal.batches[number]?.getD []).length

def entriesIn (journal : Journal) (numbers : List Nat) : Nat :=
  (numbers.map journal.entriesOf).sum

def sizesOf (journal : Journal) (numbers : List Nat) : List Nat :=
  numbers.map fun number => (journal.submitted[number]?.getD []).length

end Journal

structure Books (journal : Journal) (loop : DrainLoop) (metrics : ReporterMetrics)
    (settled : List (SendTask × SendOutcome)) : Prop where
  answers : ((settled.map fun item => (item.1.number, item.2)) ++
    loop.tasks.filterMap SendTask.due?).Perm journal.answered
  returned : ∀ answer ∈ journal.answered, answer.2 ≠ .panicked
  totals : metrics.Totals settled
  inFlight : metrics.inFlight = .ofNat (SendTask.inFlight loop.tasks)
  backed : ∀ task ∈ loop.tasks, journal.Backs task
  settled_backed : ∀ item ∈ settled, journal.Backs item.1
  awaits : journal.Awaits loop.phase

variable {journal journal' : Journal} {loop loop' : DrainLoop} {metrics metrics' : ReporterMetrics}
  {settled : List (SendTask × SendOutcome)} {task task' : SendTask} {traffic : Ring.Traffic}

theorem Journal.Backs.mono (h : journal.Backs task) (hle : journal.encoded <+: journal'.encoded) :
    journal'.Backs task := by
  obtain ⟨batch, hbatch, hlength⟩ := h
  exact ⟨batch, Ring.Traffic.getElem?_of_prefix hle hbatch, hlength⟩

namespace Books

/-! ## Steps of the loop -/

theorem reaped (h : Books journal loop metrics settled) :
    Books journal { loop.reaped with phase := loop.phase } metrics settled := by
  have hdue : ∀ task : SendTask, task.isEnded = true → task.due? = none := by
    intro task hended
    have hphase : task.phase = .ended := eq_of_beq hended
    rw [SendTask.due?, hphase]
    rfl
  have hflight : ∀ task : SendTask, task.isEnded = true → task.phase.isInFlight = false := by
    intro task hended
    have hphase : task.phase = .ended := eq_of_beq hended
    rw [hphase]
    rfl
  refine ⟨?_, h.returned, h.totals, ?_, fun task hmem => h.backed task (List.mem_filter.1 hmem).1,
    h.settled_backed, h.awaits⟩
  · have hsame : (loop.tasks.filter fun task => !task.isEnded).filterMap SendTask.due? =
        loop.tasks.filterMap SendTask.due? := by
      rw [List.filterMap_filter]
      refine List.filterMap_congr fun task _ => ?_
      cases hended : task.isEnded with
      | false => rfl
      | true => exact (hdue task hended).symm
    show (_ ++ List.filterMap _ (List.filter _ _)).Perm _
    rw [hsame]
    exact h.answers
  · rw [h.inFlight]
    show _ = UInt64.ofNat ((loop.tasks.filter _).countP _)
    rw [List.countP_filter, SendTask.inFlight]
    congr 1
    refine List.countP_congr fun task _ => ?_
    cases hended : task.isEnded with
    | false => simp
    | true => simp [hflight task hended]

theorem enter (h : Books journal loop metrics settled) {phase : DrainLoop.Phase}
    (hawaits : journal.Awaits phase) (pending : List Entry) :
    Books journal { loop with phase := phase, pending := pending } metrics settled :=
  ⟨h.answers, h.returned, h.totals, h.inFlight, h.backed, h.settled_backed, hawaits⟩

theorem mark (h : Books journal loop metrics settled) (stopMark : Option Nat) :
    Books { journal with stopMark := stopMark } loop metrics settled :=
  ⟨h.answers, h.returned, h.totals, h.inFlight, h.backed, h.settled_backed, h.awaits⟩

theorem turn (h : Books journal loop metrics settled) (hsound : loop.Sound traffic journal)
    (hturn : DrainLoop.Turn journal loop journal' loop') (hruns : loop'.phase ≠ .panicked)
    (hawaits : journal'.Awaits loop'.phase) : Books journal' loop' metrics settled := by
  cases hturn with
  | quiet phase pending hunderWay hpanicked => exact h.enter hawaits pending
  | reap phase hunderWay hruns' hrunning =>
    obtain ⟨hanswers, hreturned, htotals, hflight, hbacked, hsettled, -⟩ := h.reaped
    exact ⟨hanswers, hreturned, htotals, hflight, hbacked, hsettled, hawaits⟩
  | encode payload next hcase =>
    obtain ⟨hanswers, hreturned, htotals, hflight, hbacked, hsettled, -⟩ := h.reaped
    have hgrows := List.prefix_append journal.encoded [(loop.pending, payload)]
    exact ⟨hanswers, hreturned, htotals, hflight, fun task hmem => (hbacked task hmem).mono hgrows,
      fun item hmem => (hsettled item hmem).mono hgrows, hawaits⟩
  | panic next hcase => exact absurd rfl hruns
  | refuse payload entries next hcase hclosed => exact h.enter hawaits loop.pending
  | submit payload entries next hcase hpermit =>
    have hwaits := h.awaits
    have hencoded := hsound.encoded
    rw [hcase] at hwaits hencoded
    obtain ⟨batch, hbatch, hlength⟩ := hwaits
    -- the payload that waits is the one after those submitted
    have hplace : journal.encoded[loop.submitted]? = some (batch, payload) := by
      have hcount := congrArg List.length hencoded
      rw [List.length_map, List.length_append] at hcount
      rw [hsound.count, ← hbatch, List.getLast?_eq_getElem?, hcount]
      rfl
    refine ⟨?_, h.returned, h.totals, ?_, fun task hmem => ?_, h.settled_backed, hawaits⟩
    · have hspawned : [SendTask.mk loop.submitted payload entries .spawned].filterMap
          SendTask.due? = [] := rfl
      show (_ ++ List.filterMap _ (_ ++ _)).Perm _
      rw [List.filterMap_append, hspawned, List.append_nil]
      exact h.answers
    · rw [h.inFlight]
      show _ = UInt64.ofNat (List.countP _ (_ ++ _))
      rw [List.countP_append]
      rfl
    · rcases List.mem_append.1 hmem with hold | hnew
      · exact h.backed task hold
      · rw [List.mem_singleton.1 hnew]
        exact ⟨batch, hplace, hlength⟩

/-! ## Steps of the tasks -/

/-- A task enters a phase, whereby some answers may come in and its own may be settled. -/
theorem move (h : Books journal loop metrics settled) {place : Nat}
    (hplace : loop.tasks[place]? = some task) (phase : SendTask.Phase)
    (answers : List (Nat × SendOutcome)) (now : List (SendTask × SendOutcome))
    (hencoded : journal'.encoded = journal.encoded)
    (hanswered : journal'.answered = journal.answered ++ answers)
    (hreturned : ∀ answer ∈ answers, answer.2 ≠ .panicked) (hself : ∀ item ∈ now, item.1 = task)
    (hdue : ((now.map fun item => (item.1.number, item.2)) ++
      (loop.tasks.set place { task with phase := phase }).filterMap SendTask.due?).Perm
        (loop.tasks.filterMap SendTask.due? ++ answers))
    (htotals : metrics'.Totals (settled ++ now))
    (hflight : metrics'.inFlight =
      .ofNat (SendTask.inFlight (loop.tasks.set place { task with phase := phase })))
    (permits : Nat) :
    Books journal'
      { loop with tasks := loop.tasks.set place { task with phase := phase }, permits := permits }
      metrics' (settled ++ now) := by
  have hmem : task ∈ loop.tasks := List.mem_of_getElem? hplace
  have hbacks : ∀ {other}, journal.Backs other → journal'.Backs other := fun hother =>
    hother.mono (hencoded ▸ List.prefix_refl _)
  refine ⟨?_, ?_, htotals, hflight, fun other hother => ?_, fun item hitem => ?_, ?_⟩
  · show (List.map _ (settled ++ now) ++ List.filterMap _ _).Perm _
    rw [hanswered, List.map_append, List.append_assoc]
    refine (hdue.append_left _).trans ?_
    rw [← List.append_assoc]
    exact h.answers.append_right _
  · intro answer hanswer
    rw [hanswered] at hanswer
    rcases List.mem_append.1 hanswer with hold | hnew
    · exact h.returned answer hold
    · exact hreturned answer hnew
  · rcases List.mem_or_eq_of_mem_set hother with hold | rfl
    · exact hbacks (h.backed other hold)
    · exact hbacks (h.backed task hmem)
  · rcases List.mem_append.1 hitem with hold | hnew
    · exact hbacks (h.settled_backed item hold)
    · rw [hself item hnew]
      exact hbacks (h.backed task hmem)
  · have hwaits := h.awaits
    show journal'.Awaits loop.phase
    unfold Journal.Awaits at hwaits ⊢
    rw [hencoded]
    exact hwaits

theorem move_silent (h : Books journal loop metrics settled) {place : Nat}
    (hplace : loop.tasks[place]? = some task) (phase : SendTask.Phase)
    (hencoded : journal'.encoded = journal.encoded)
    (hanswered : journal'.answered = journal.answered)
    (hdue : phase.due? = task.phase.due?) (htotals : metrics'.Totals settled)
    (hflight : metrics'.inFlight =
      .ofNat (SendTask.inFlight (loop.tasks.set place { task with phase := phase })))
    (permits : Nat) :
    Books journal'
      { loop with tasks := loop.tasks.set place { task with phase := phase }, permits := permits }
      metrics' settled := by
  have hsame : SendTask.due? { task with phase := phase } = task.due? := by
    rw [SendTask.due?, SendTask.due?, hdue]
  have hperm := filterMap_set_perm SendTask.due? (b := { task with phase := phase }) hplace
  rw [hsame, List.perm_append_left_iff] at hperm
  rw [← List.append_nil settled] at htotals ⊢
  refine h.move hplace phase [] [] hencoded ?_ nofun nofun ?_ htotals hflight permits
  · rw [hanswered, List.append_nil]
  · rw [List.append_nil]
    exact hperm

theorem stay (h : Books journal loop metrics settled) {place : Nat}
    (hplace : loop.tasks[place]? = some task) (permits : Nat) :
    Books journal { loop with tasks := loop.tasks.set place task, permits := permits } metrics
      settled := by
  have hsame : loop.tasks.set place task = loop.tasks := by
    obtain ⟨hlt, rfl⟩ := List.getElem?_eq_some_iff.1 hplace
    exact List.set_getElem_self hlt
  rw [hsame]
  exact ⟨h.answers, h.returned, h.totals, h.inFlight, h.backed, h.settled_backed, h.awaits⟩

theorem inFlight_set (h : Books journal loop metrics settled) {place : Nat}
    (hplace : loop.tasks[place]? = some task) (phase : SendTask.Phase) :
    UInt64.ofNat (SendTask.inFlight (loop.tasks.set place { task with phase := phase })) +
        UInt64.ofNat (if task.phase.isInFlight then 1 else 0) =
      metrics.inFlight + UInt64.ofNat (if phase.isInFlight then 1 else 0) := by
  have hcount : SendTask.inFlight (loop.tasks.set place { task with phase := phase }) +
      (if task.phase.isInFlight then 1 else 0) =
        SendTask.inFlight loop.tasks + if phase.isInFlight then 1 else 0 :=
    countP_set_add _ hplace
  rw [h.inFlight, ← UInt64.ofNat_add, hcount, UInt64.ofNat_add]

theorem inFlight_kept (h : Books journal loop metrics settled) {place : Nat}
    (hplace : loop.tasks[place]? = some task) {phase : SendTask.Phase}
    (hsame : phase.isInFlight = task.phase.isInFlight) :
    metrics.inFlight =
      .ofNat (SendTask.inFlight (loop.tasks.set place { task with phase := phase })) := by
  have hword := h.inFlight_set hplace phase
  rw [hsame] at hword
  exact (UInt64.add_left_inj _).1 hword.symm

theorem send_spawned (h : Books journal loop metrics settled) {place : Nat}
    (hplace : loop.tasks[place]? = some task) (hphase : task.phase = .spawned) (permits : Nat) :
    Books journal
      { loop with
        tasks := loop.tasks.set place { task with phase := .counted }, permits := permits }
      metrics.sendStarted settled := by
  have hword := h.inFlight_set hplace .counted
  rw [hphase] at hword
  refine h.move_silent hplace .counted rfl rfl (by rw [hphase]; rfl) ?_ ?_ permits
  · obtain ⟨hpayloads, hentries, hbytes, hfailures, hcancelled⟩ := h.totals
    exact ⟨hpayloads, hentries, hbytes, hfailures, hcancelled⟩
  · exact hword.symm.trans (UInt64.add_zero _)

theorem send_counted (h : Books journal loop metrics settled) {place : Nat}
    (hplace : loop.tasks[place]? = some task) (hphase : task.phase = .counted)
    (called : List (Nat × Bytes)) (permits : Nat) :
    Books { journal with called := called }
      { loop with
        tasks := loop.tasks.set place { task with phase := .calling }, permits := permits }
      metrics settled := by
  refine h.move_silent hplace .calling ?_ ?_ (by rw [hphase]; rfl) h.totals ?_ permits
  · rfl
  · rfl
  · exact h.inFlight_kept hplace (by rw [hphase]; rfl)

theorem send_calling (h : Books journal loop metrics settled) {place : Nat}
    (hplace : loop.tasks[place]? = some task) (hphase : task.phase = .calling)
    {outcome : SendOutcome} (hreturns : outcome ≠ .panicked) (permits : Nat) :
    Books { journal with answered := journal.answered ++ [(task.number, outcome)] }
      { loop with
        tasks := loop.tasks.set place { task with phase := .returned outcome }
        permits := permits }
      metrics settled := by
  have hdue :=
    filterMap_set_perm SendTask.due? (b := { task with phase := .returned outcome }) hplace
  simp only [SendTask.due?, hphase, SendTask.Phase.due?, Option.map_none, Option.map_some,
    Option.toList_none, Option.toList_some, List.nil_append] at hdue
  have htotals := h.totals
  rw [← List.append_nil settled] at htotals ⊢
  refine h.move hplace (.returned outcome) [(task.number, outcome)] [] ?_ ?_ ?_ nofun ?_ htotals ?_
    permits
  · rfl
  · rfl
  · intro answer hmem
    rw [List.mem_singleton.1 hmem]
    exact hreturns
  · exact hdue.trans List.perm_append_comm
  · exact h.inFlight_kept hplace (by rw [hphase]; rfl)

theorem send_returned (h : Books journal loop metrics settled) {place : Nat}
    (hplace : loop.tasks[place]? = some task) {outcome : SendOutcome}
    (hphase : task.phase = .returned outcome) (permits : Nat) :
    Books journal
      { loop with
        tasks := loop.tasks.set place { task with phase := .uncounted outcome }
        permits := permits }
      metrics.sendFinished settled := by
  have hword := h.inFlight_set hplace (.uncounted outcome)
  rw [hphase] at hword
  refine h.move_silent hplace (.uncounted outcome) rfl rfl (by rw [hphase]; rfl) ?_ ?_ permits
  · obtain ⟨hpayloads, hentries, hbytes, hfailures, hcancelled⟩ := h.totals
    exact ⟨hpayloads, hentries, hbytes, hfailures, hcancelled⟩
  · exact (UInt64.eq_sub_iff_add_eq.2 (hword.trans (UInt64.add_zero _))).symm

/-- A task counts its answer, which is none that is left out: it was noted when the call
returned. -/
theorem send_uncounted (h : Books journal loop metrics settled) {place : Nat}
    (hplace : loop.tasks[place]? = some task) {outcome : SendOutcome}
    (hphase : task.phase = .uncounted outcome) (metricType : String) (telemetry : Telemetry)
    (permits : Nat) :
    outcome ≠ .panicked ∧ Books journal
      { loop with tasks := loop.tasks.set place { task with phase := .ended }, permits := permits }
      (SendTask.Moment.settle metricType ⟨task, metrics, telemetry⟩ outcome).metrics
      (settled ++ [(task, outcome)]) := by
  have hreturns : outcome ≠ .panicked := by
    have hmem : (task.number, outcome) ∈ loop.tasks.filterMap SendTask.due? := by
      refine List.mem_filterMap.2 ⟨task, List.mem_of_getElem? hplace, ?_⟩
      rw [SendTask.due?, hphase]
      rfl
    exact h.returned _ (h.answers.subset (List.mem_append_right _ hmem))
  have hdue := filterMap_set_perm SendTask.due? (b := { task with phase := .ended }) hplace
  simp only [SendTask.due?, hphase, SendTask.Phase.due?, Option.map_none, Option.map_some,
    Option.toList_none, Option.toList_some, List.nil_append] at hdue
  have hkept : (SendTask.Moment.settle metricType ⟨task, metrics, telemetry⟩
      outcome).metrics.inFlight = metrics.inFlight := by
    cases outcome <;> rfl
  refine
    ⟨hreturns, h.move hplace .ended [] [(task, outcome)] rfl (List.append_nil _).symm nofun ?_ ?_
    (h.totals.settle hreturns metricType telemetry) ?_ permits⟩
  · intro item hmem
    rw [List.mem_singleton.1 hmem]
  · rw [List.append_nil]
    exact hdue
  · rw [hkept]
    exact h.inFlight_kept hplace (by rw [hphase]; rfl)

theorem unsettled (h : Books journal loop metrics settled) (metricType : String)
    (telemetry : Telemetry) :
    ∃ now, Books journal loop metrics (settled ++ now) ∧
      (telemetry.Totals metricType settled → telemetry.Totals metricType (settled ++ now)) := by
  refine ⟨[], ?_, fun htelemetry => ?_⟩
  · rw [List.append_nil]
    exact h
  · rw [List.append_nil]
    exact htelemetry

theorem send (h : Books journal loop metrics settled) {place : Nat}
    (hplace : loop.tasks[place]? = some task) {answer : Option SendOutcome}
    (hanswer : answer ≠ some .panicked) (metricType : String) (telemetry : Telemetry)
    (permits : Nat) :
    let moment := SendTask.Moment.step metricType answer ⟨task, metrics, telemetry⟩
    ∃ now, Books (journal.heard task answer)
        { loop with tasks := loop.tasks.set place moment.task, permits := permits } moment.metrics
        (settled ++ now) ∧
      (telemetry.Totals metricType settled →
        moment.telemetry.Totals metricType (settled ++ now)) := by
  cases hphase : task.phase with
  | spawned =>
    simp only [SendTask.Moment.step, SendTask.Moment.enter, Journal.heard, hphase]
    exact (h.send_spawned hplace hphase permits).unsettled metricType telemetry
  | counted =>
    simp only [SendTask.Moment.step, SendTask.Moment.enter, Journal.heard, hphase]
    exact (h.send_counted hplace hphase _ permits).unsettled metricType telemetry
  | calling =>
    cases answer with
    | none =>
      simp only [SendTask.Moment.step, Journal.heard, hphase]
      exact (h.stay hplace permits).unsettled metricType telemetry
    | some outcome =>
      have hreturns : outcome ≠ .panicked := fun hpanicked => hanswer (congrArg some hpanicked)
      have hstep : SendTask.Moment.step metricType (some outcome) ⟨task, metrics, telemetry⟩ =
          ⟨{ task with phase := .returned outcome }, metrics, telemetry⟩ := by
        cases outcome with
        | panicked => exact absurd rfl hreturns
        | _ => simp only [SendTask.Moment.step, SendTask.Moment.enter, hphase]
      rw [hstep]
      simp only [Journal.heard, hphase]
      exact (h.send_calling hplace hphase hreturns permits).unsettled metricType telemetry
  | returned outcome =>
    simp only [SendTask.Moment.step, SendTask.Moment.enter, Journal.heard, hphase]
    exact (h.send_returned hplace hphase permits).unsettled metricType telemetry
  | uncounted outcome =>
    obtain ⟨hreturns, hbooks⟩ := h.send_uncounted hplace hphase metricType telemetry permits
    have htask : (SendTask.Moment.settle metricType ⟨task, metrics, telemetry⟩ outcome).task =
        task := by
      cases outcome <;> rfl
    simp only [SendTask.Moment.step, SendTask.Moment.enter, Journal.heard, hphase, htask]
    exact ⟨[(task, outcome)], hbooks, fun htelemetry => htelemetry.settle hreturns metrics⟩
  | ended =>
    simp only [SendTask.Moment.step, Journal.heard, hphase]
    exact (h.stay hplace permits).unsettled metricType telemetry

/-! ## Closed books -/

theorem settled_perm (h : Books journal loop metrics settled) (htasks : loop.tasks = [])
    (outcome : SendOutcome) :
    ((SendTask.settledAs outcome settled).map SendTask.number).Perm
      (journal.answeredAs outcome) := by
  have hanswers := h.answers
  rw [htasks, List.filterMap_nil, List.append_nil] at hanswers
  have hsettled : (SendTask.settledAs outcome settled).map SendTask.number =
      ((settled.map fun item => (item.1.number, item.2)).filter fun answer =>
        answer.2 = outcome).map Prod.fst := by
    rw [SendTask.settledAs, List.filter_map, List.map_map, List.map_map]
    rfl
  rw [hsettled]
  exact (hanswers.filter _).map _

theorem settledAs_length (h : Books journal loop metrics settled) (htasks : loop.tasks = [])
    (outcome : SendOutcome) :
    (SendTask.settledAs outcome settled).length = (journal.answeredAs outcome).length := by
  rw [← (h.settled_perm htasks outcome).length_eq, List.length_map]

theorem settledAs_backed (h : Books journal loop metrics settled) {outcome : SendOutcome}
    (hmem : task ∈ SendTask.settledAs outcome settled) : journal.Backs task := by
  obtain ⟨item, hitem, rfl⟩ := List.mem_map.1 hmem
  exact h.settled_backed item (List.mem_filter.1 hitem).1

theorem totalEntries_settledAs (h : Books journal loop metrics settled) (htasks : loop.tasks = [])
    (outcome : SendOutcome) : SendTask.totalEntries (SendTask.settledAs outcome settled) =
      journal.entriesIn (journal.answeredAs outcome) := by
  have hentries : ∀ task ∈ SendTask.settledAs outcome settled,
      task.entries = journal.entriesOf task.number := by
    intro task hmem
    obtain ⟨batch, hbatch, hlength⟩ := h.settledAs_backed hmem
    rw [Journal.entriesOf, Journal.getElem?_batches hbatch, Option.getD_some, hlength]
  rw [SendTask.totalEntries, List.map_congr_left hentries, Journal.entriesIn,
    ← ((h.settled_perm htasks outcome).map journal.entriesOf).sum_nat, List.map_map]
  rfl

theorem sizes_settledAs (h : Books journal loop metrics settled) (htasks : loop.tasks = [])
    (hencoded : journal.encoded.map Prod.snd = journal.submitted) (outcome : SendOutcome) :
    (SendTask.sizes (SendTask.settledAs outcome settled)).Perm
      (journal.sizesOf (journal.answeredAs outcome)) := by
  have hsizes : ∀ task ∈ SendTask.settledAs outcome settled,
      task.payload.length = (journal.submitted[task.number]?.getD []).length := by
    intro task hmem
    obtain ⟨batch, hbatch, -⟩ := h.settledAs_backed hmem
    rw [← hencoded, List.getElem?_map, hbatch, Option.map_some, Option.getD_some]
  rw [SendTask.sizes, List.map_congr_left hsizes, Journal.sizesOf]
  have hperm := (h.settled_perm htasks outcome).map fun number =>
    (journal.submitted[number]?.getD []).length
  rw [List.map_map] at hperm
  exact hperm

end Books

end MetricReporting
