import MetricReporting.Command.ValidationReport
import MetricReporting.Payload.Encode
import MetricReporting.Proofs.Config.RoundTrip
import MetricReporting.Proofs.Payload.Dictionary
import MetricReporting.Sender.Selection

/-!
# The warning about packet sizes

The size that a report foretells for a full payload is what a payload of as many entries takes at
least. Main statement: where that size is a word, the warning is there exactly when it is above the
limit of the datagrams, and then every full batch is encoded to a payload that the sender refuses;
where it is no word, there is no report.
-/
namespace MetricReporting

namespace Payload

def explanationSize (tags : TagTable) (entries : List Entry) : Nat :=
  ((taggedFormOf tags (Entry.sortByTicks entries)).dictionary.map fun item =>
    8 + (Bytes.ofText item.2).length).sum

theorem encode?_tagged_length {tags : TagTable} {entries : List Entry} {payload : Bytes}
    (h : encode? .tagged tags entries = some payload) :
    payload.length = 24 + 16 * entries.length + explanationSize tags entries := by
  have hrecords : (taggedFormOf tags (Entry.sortByTicks entries)).records.length =
      entries.length := by
    rw [taggedFormOf, List.length_map, Entry.sortByTicks_length]
  obtain ⟨-, rfl⟩ := encode?_eq_some_iff.1 h
  rw [encodeSorted_tagged, TaggedForm.bytes_length, hrecords, explanationSize]
  omega

end Payload

/-! ## Senders of datagrams -/

theorem Sender.create_udp {network : Network} {files later : FileTree} {config : ReportingConfig}
    {host : HostInformation} {metricType address : String} {maxPacketSize : Nat} {sender : Sender}
    (hudp : config.sender = .udp address maxPacketSize)
    (h : Sender.create network files config host metricType = .ok (sender, later)) :
    sender = .udp ⟨metricType, address, maxPacketSize⟩ := by
  rw [Sender.create, hudp] at h
  dsimp only at h
  unfold DatagramSink.create at h
  cases hrefusal : DatagramSink.addressRefusal? address with
  | some refusal =>
    rw [hrefusal] at h
    cases h
  | none =>
    rw [hrefusal] at h
    cases hconnect : network.connect address with
    | error refusal =>
      rw [hconnect] at h
      cases h
    | ok =>
      rw [hconnect] at h
      cases h
      rfl

/-! ## Warnings -/

namespace ReportingConfig

variable {config : ReportingConfig} {address : String} {maxPacketSize entries bytes : Nat}

theorem payloadBytes?_eq_none_iff : payloadBytes? entries = none ↔ 2 ^ 64 ≤ 24 + 16 * entries := by
  rw [payloadBytes?, Option.filter_eq_none_iff]
  simp only [payloadHeaderBytes, payloadEntryBytes, Option.some.injEq, forall_eq',
    decide_eq_true_eq, UInt64.size]
  omega

theorem payloadBytes?_eq_some (h : payloadBytes? entries = some bytes) :
    bytes = 24 + 16 * entries := by
  have hbytes := (Option.filter_eq_some_iff.1 h).1
  have hsize := Option.some.inj hbytes
  unfold payloadHeaderBytes payloadEntryBytes at hsize
  omega

theorem warnings?_eq_none_iff : config.warnings? = none ↔ config.packetWarnings? = none :=
  Option.map_eq_none_iff

theorem packetWarnings?_udp (hudp : config.sender = .udp address maxPacketSize) :
    config.packetWarnings? = (payloadBytes? config.reporter.maxFlushSize).map fun bytes =>
      if maxPacketSize < bytes then [.oversizePayloads bytes maxPacketSize] else [] := by
  rw [packetWarnings?, hudp]

theorem oversizePayloads_mem {limit : Nat} {warnings : List ConfigWarning}
    (h : config.warnings? = some warnings) :
    ∃ packetWarnings, config.packetWarnings? = some packetWarnings ∧
      (.oversizePayloads bytes limit ∈ warnings ↔
        .oversizePayloads bytes limit ∈ packetWarnings) := by
  obtain ⟨packetWarnings, hpackets, rfl⟩ := Option.map_eq_some_iff.1 h
  refine ⟨packetWarnings, hpackets, ?_⟩
  dsimp only
  rw [List.mem_append, List.mem_append]
  constructor
  · rintro ((hsplit | hpacket) | hinstance)
    · split at hsplit <;> simp at hsplit
    · exact hpacket
    · split at hinstance <;> simp at hinstance
  · exact fun hpacket => Or.inl (Or.inr hpacket)

/-- The warning about packet sizes says what a full payload takes without the dictionary, and is
there exactly when that is above the limit, as long as it is a word; where it is none, the report
cannot be made. A full batch takes that much and its dictionary, and once the size is above the
limit, each sender that the configuration selects refuses each full payload. -/
theorem packetWarning_exact (hudp : config.sender = .udp address maxPacketSize) :
    let size := 24 + 16 * config.reporter.maxFlushSize
    (config.warnings? = none ↔ 2 ^ 64 ≤ size) ∧
    (∀ warnings, config.warnings? = some warnings → ∀ bytes limit,
      .oversizePayloads bytes limit ∈ warnings ↔
        maxPacketSize < size ∧ bytes = size ∧ limit = maxPacketSize) ∧
    ∀ tags entries, entries.length = config.reporter.maxFlushSize →
      ∀ payload, Payload.encode? .tagged tags entries = some payload →
      payload.length = size + Payload.explanationSize tags entries ∧
      (maxPacketSize < size → maxPacketSize < payload.length ∧
        ∀ network files host metricType sender later,
          Sender.create network files config host metricType = .ok (sender, later) →
          ∀ network cancelled files, sender.send network cancelled files payload =
            (.error (DatagramSink.oversize ⟨metricType, address, maxPacketSize⟩ payload), sender,
              files)) := by
  intro size
  refine ⟨?_, fun warnings hwarnings bytes limit => ?_,
    fun tags entries hfull payload hpayload => ?_⟩
  · rw [warnings?_eq_none_iff, packetWarnings?_udp hudp, Option.map_eq_none_iff,
      payloadBytes?_eq_none_iff]
  · obtain ⟨packetWarnings, hpackets, hmem⟩ := oversizePayloads_mem hwarnings
    rw [hmem]
    rw [packetWarnings?_udp hudp] at hpackets
    obtain ⟨foretold, hforetold, rfl⟩ := Option.map_eq_some_iff.1 hpackets
    obtain rfl : foretold = size := payloadBytes?_eq_some hforetold
    by_cases hlarge : maxPacketSize < size
    · rw [if_pos hlarge, List.mem_singleton, ConfigWarning.oversizePayloads.injEq,
        and_iff_right hlarge]
    · rw [if_neg hlarge]
      exact iff_of_false List.not_mem_nil fun hboth => hlarge hboth.1
  · have hlength : payload.length = size + Payload.explanationSize tags entries := by
      rw [Payload.encode?_tagged_length hpayload, hfull]
    refine ⟨hlength, fun hlarge => ?_⟩
    have hlong : maxPacketSize < payload.length := by omega
    refine
      ⟨hlong, fun network files host metricType sender later hcreate network cancelled files => ?_⟩
    rw [Sender.create_udp hudp hcreate, Sender.send, DatagramSink.send_of_long _ _ _ hlong]

def tightPackets : ReportingConfig where
  endpointName := "Sales"
  metricsAddress := "Particular.Monitoring"
  reporter := { flushSize := 1, maxFlushSize := 3 }
  sender := .udp "127.0.0.1:9100" 71

theorem packetWarning_exact_tightPackets : tightPackets.sender = .udp "127.0.0.1:9100" 71 ∧
    tightPackets.warnings? ≠ none ∧
    (∀ warnings, tightPackets.warnings? = some warnings → .oversizePayloads 72 71 ∈ warnings) ∧
    let sink : DatagramSink := ⟨"Sales", "127.0.0.1:9100", 71⟩
    ∃ payload, Payload.encode? .tagged {} [⟨3, 1, 0⟩, ⟨1, 2, 0⟩, ⟨2, 3, 5⟩] = some payload ∧
      71 < payload.length ∧ ∀ network files, (Sender.udp sink).send network false files payload =
        (.error (sink.oversize payload), .udp sink, files) := by
  obtain ⟨hnone, hwarned, hpayloads⟩ := @packetWarning_exact tightPackets _ _ rfl
  obtain ⟨payload, hpayload⟩ : ∃ payload,
      Payload.encode? .tagged {} [⟨3, 1, 0⟩, ⟨1, 2, 0⟩, ⟨2, 3, 5⟩] = some payload :=
    Option.isSome_iff_exists.1 (by decide +kernel)
  have hfull := hpayloads {} [⟨3, 1, 0⟩, ⟨1, 2, 0⟩, ⟨2, 3, 5⟩] rfl payload hpayload
  refine ⟨rfl, fun hno => absurd (hnone.1 hno) (by decide),
    fun warnings hwarnings => (hwarned warnings hwarnings 72 71).2 ⟨by decide, rfl, rfl⟩,
    payload, hpayload, (hfull.2 (by decide)).1, fun network files => ?_⟩
  exact (hfull.2 (by decide)).2 ⟨fun _ => .ok (), fun _ _ => .ok ()⟩ files default "Sales" _ files
    rfl network false files

def boundlessFlush : ReportingConfig where
  endpointName := "Sales"
  metricsAddress := "Particular.Monitoring"
  reporter := { maxFlushSize := 2 ^ 60 }
  sender := .udp "127.0.0.1:9100" 65000

/-- Payloads far above the limit of which nobody is warned. -/
theorem packetWarning_missing : boundlessFlush.validate = .ok () ∧ boundlessFlush.FitsWords ∧
    65000 < 24 + 16 * boundlessFlush.reporter.maxFlushSize ∧ boundlessFlush.warnings? = none := by
  have hsender : boundlessFlush.sender.FitsWords := show 65000 < Value.wordBound by decide
  exact ⟨by decide, ⟨by decide, by decide, ⟨by decide, by decide, by decide⟩, hsender, nofun⟩,
    by decide, by decide⟩

end ReportingConfig

end MetricReporting
