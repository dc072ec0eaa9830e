import MetricReporting.Proofs.Reporter.Throttle

/-!
# Settled sends

A send is settled when its task has counted the sender's answer. The counters of a reporter are the
totals over its settled sends, as words that wrap, and so is the telemetry of its metric type as
long as nobody else reports sends of that type.
-/
namespace MetricReporting

namespace Telemetry

def sizes (telemetry : Telemetry) (metricType : String) : List Nat :=
  (Keyed.find? metricType telemetry.payloadBytes).getD []

inductive Report
  | sent (metricType : String) (bytes entries : Nat)
  | failed (metricType : String)
  | depth (metricType : String) (entries : Nat)
  | dropped (metricType : String)

def hear (telemetry : Telemetry) : Report → Telemetry
  | .sent metricType bytes entries => telemetry.sent metricType bytes entries
  | .failed metricType => telemetry.failed metricType
  | .depth metricType entries => telemetry.depth metricType entries
  | .dropped metricType => telemetry.dropped metricType

def Report.Spares (metricType : String) : Report → Prop
  | .sent other _ _ | .failed other => other ≠ metricType
  | .depth _ _ | .dropped _ => True

end Telemetry

namespace SendTask

def Phase.due? : Phase → Option SendOutcome
  | .returned outcome | .uncounted outcome => some outcome
  | _ => none

def Phase.isInFlight : Phase → Bool
  | .counted | .calling | .returned _ => true
  | _ => false

def inFlight (tasks : List SendTask) : Nat :=
  tasks.countP fun task => task.phase.isInFlight

def due? (task : SendTask) : Option (Nat × SendOutcome) :=
  task.phase.due?.map fun outcome => (task.number, outcome)

def settledAs (outcome : SendOutcome) (settled : List (SendTask × SendOutcome)) : List SendTask :=
  (settled.filter fun item => item.2 = outcome).map Prod.fst

def totalEntries (tasks : List SendTask) : Nat :=
  (tasks.map SendTask.entries).sum

def sizes (tasks : List SendTask) : List Nat :=
  tasks.map fun task => task.payload.length

end SendTask

open SendTask

variable {settled : List (SendTask × SendOutcome)} {task : SendTask} {outcome other : SendOutcome}
  {metricType : String} {metrics : ReporterMetrics} {telemetry : Telemetry}

@[simp] theorem SendTask.settledAs_concat (settled : List (SendTask × SendOutcome))
    (task : SendTask) (outcome other : SendOutcome) :
    settledAs other (settled ++ [(task, outcome)]) =
      if outcome = other then settledAs other settled ++ [task] else settledAs other settled := by
  by_cases hsame : outcome = other <;> simp [settledAs, hsame]

@[simp] theorem SendTask.totalEntries_concat (tasks : List SendTask) (task : SendTask) :
    totalEntries (tasks ++ [task]) = totalEntries tasks + task.entries := by
  simp [totalEntries]

@[simp] theorem SendTask.sizes_concat (tasks : List SendTask) (task : SendTask) :
    SendTask.sizes (tasks ++ [task]) = SendTask.sizes tasks ++ [task.payload.length] := by
  simp [SendTask.sizes]

structure ReporterMetrics.Totals (settled : List (SendTask × SendOutcome))
    (metrics : ReporterMetrics) : Prop where
  payloads : metrics.payloadsSent = .ofNat (settledAs .delivered settled).length
  entries : metrics.entriesSent = .ofNat (totalEntries (settledAs .delivered settled))
  bytes : metrics.bytesSent = .ofNat (sizes (settledAs .delivered settled)).sum
  failures : metrics.failures = .ofNat (settledAs .failed settled).length
  cancelled : metrics.cancelled = .ofNat (settledAs .cancelled settled).length

structure Telemetry.Totals (metricType : String) (settled : List (SendTask × SendOutcome))
    (telemetry : Telemetry) : Prop where
  payloads : telemetry.count .payloadsSent metricType = (settledAs .delivered settled).length
  entries :
    telemetry.count .entriesFlushed metricType = totalEntries (settledAs .delivered settled)
  failures : telemetry.count .payloadFailures metricType = (settledAs .failed settled).length
  sizes : telemetry.sizes metricType = SendTask.sizes (settledAs .delivered settled)

open ReporterMetrics in
theorem ReporterMetrics.Totals.settle (h : metrics.Totals settled) (hne : outcome ≠ .panicked)
    (metricType : String) (telemetry : Telemetry) :
    (SendTask.Moment.settle metricType ⟨task, metrics, telemetry⟩ outcome).metrics.Totals
      (settled ++ [(task, outcome)]) := by
  obtain ⟨hpayloads, hentries, hbytes, hfailures, hcancelled⟩ := h
  cases outcome with
  | delivered =>
    constructor <;> simp [SendTask.Moment.settle, payloadSent, UInt64.ofNat_add, *]
  | failed => constructor <;> simp [SendTask.Moment.settle, sendFailed, UInt64.ofNat_add, *]
  | cancelled => constructor <;> simp [SendTask.Moment.settle, sendCancelled, UInt64.ofNat_add, *]
  | panicked => exact absurd rfl hne

theorem SendTask.Moment.step_entriesFlushed (metricType : String) (answer : Option SendOutcome)
    (moment : SendTask.Moment) :
    (moment.step metricType answer).metrics.entriesFlushed = moment.metrics.entriesFlushed := by
  have hsettle : ∀ outcome,
      (SendTask.Moment.settle metricType moment outcome).metrics.entriesFlushed =
        moment.metrics.entriesFlushed := by
    intro outcome
    cases outcome <;> rfl
  unfold SendTask.Moment.step
  split <;> first | rfl | exact hsettle _

namespace Telemetry

theorem count_add (telemetry : Telemetry) (counter other : Counter) (metricType label : String)
    (n : Nat) :
    (telemetry.add counter metricType n).count other label =
      telemetry.count other label + if (other, label) = (counter, metricType) then n else 0 := by
  by_cases hsame : (other, label) = (counter, metricType)
  · obtain ⟨rfl, rfl⟩ := Prod.mk.inj hsame
    rw [count_add_self, if_pos rfl]
  · rw [telemetry.count_add_other hsame, if_neg hsame, Nat.add_zero]

theorem count_sent (telemetry : Telemetry) (metricType : String) (bytes entries : Nat)
    (counter : Counter) (label : String) :
    (telemetry.sent metricType bytes entries).count counter label =
      telemetry.count counter label +
        (if (counter, label) = (.payloadsSent, metricType) then 1 else 0) +
        if (counter, label) = (.entriesFlushed, metricType) then entries else 0 := by
  rw [← count_add, ← count_add]
  rfl

theorem sizes_sent (telemetry : Telemetry) (metricType : String) (bytes entries : Nat) :
    (telemetry.sent metricType bytes entries).sizes metricType =
      telemetry.sizes metricType ++ [bytes] :=
  congrArg (Option.getD · []) (Keyed.find?_adjust_self _ _ _)

theorem count_failed (telemetry : Telemetry) (metricType : String) (counter : Counter)
    (label : String) :
    (telemetry.failed metricType).count counter label = telemetry.count counter label +
      if (counter, label) = (.payloadFailures, metricType) then 1 else 0 :=
  telemetry.count_add _ _ _ _ _

theorem sizes_failed (telemetry : Telemetry) (metricType label : String) :
    (telemetry.failed metricType).sizes label = telemetry.sizes label := rfl

theorem Totals.frame {telemetry' : Telemetry} (h : telemetry.Totals metricType settled)
    (hcount : ∀ counter, counter ≠ .bufferDropped →
      telemetry'.count counter metricType = telemetry.count counter metricType)
    (hsizes : telemetry'.sizes metricType = telemetry.sizes metricType) :
    telemetry'.Totals metricType settled where
  payloads := (hcount .payloadsSent nofun).trans h.payloads
  entries := (hcount .entriesFlushed nofun).trans h.entries
  failures := (hcount .payloadFailures nofun).trans h.failures
  sizes := hsizes.trans h.sizes

theorem Totals.dropped (h : telemetry.Totals metricType settled) (label : String) :
    (telemetry.dropped label).Totals metricType settled := by
  refine h.frame (fun counter hne => ?_) rfl
  rw [Telemetry.dropped, count_add, if_neg (by simp [hne]), Nat.add_zero]

theorem Totals.depth (h : telemetry.Totals metricType settled) (label : String) (entries : Nat) :
    (telemetry.depth label entries).Totals metricType settled :=
  h.frame (fun _ _ => rfl) rfl

theorem Totals.hear (h : telemetry.Totals metricType settled) {report : Report}
    (hspares : report.Spares metricType) : (telemetry.hear report).Totals metricType settled := by
  cases report with
  | sent label bytes entries =>
    have hne : metricType ≠ label := Ne.symm hspares
    refine h.frame (fun counter _ => ?_) ?_
    · simp [Telemetry.hear, count_sent, hne]
    · exact congrArg (Option.getD · []) (Keyed.find?_adjust_other hne _ _)
  | failed label =>
    have hne : metricType ≠ label := Ne.symm hspares
    exact h.frame (fun counter _ => by simp [Telemetry.hear, count_failed, hne]) rfl
  | depth label entries => exact h.depth label entries
  | dropped label => exact h.dropped label

theorem Totals.settle (h : telemetry.Totals metricType settled) (hne : outcome ≠ .panicked)
    (metrics : ReporterMetrics) :
    (SendTask.Moment.settle metricType ⟨task, metrics, telemetry⟩ outcome).telemetry.Totals
      metricType (settled ++ [(task, outcome)]) := by
  obtain ⟨hpayloads, hentries, hfailures, hsizes⟩ := h
  cases outcome with
  | delivered => constructor <;> simp [SendTask.Moment.settle, count_sent, sizes_sent, *]
  | failed => constructor <;> simp [SendTask.Moment.settle, count_failed, sizes_failed, *]
  | cancelled => constructor <;> simp [SendTask.Moment.settle, *]
  | panicked => exact absurd rfl hne

end Telemetry

end MetricReporting
