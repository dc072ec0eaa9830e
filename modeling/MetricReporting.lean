import MetricReporting.Main
import MetricReporting.Reporter.Rehearsal
import MetricReporting.Ring.Contention
import MetricReporting.Proofs.Recording.Uninterrupted
import MetricReporting.Proofs.Reporter.Uninterrupted
import MetricReporting.Proofs.Recording.EndToEnd
import MetricReporting.Proofs.Ring.Exclusion
import MetricReporting.Proofs.Reporter.Permits
import MetricReporting.Proofs.Command.SharedPool
import MetricReporting.Proofs.Payload.Leases
import MetricReporting.Proofs.Tags.Agreement
import MetricReporting.Proofs.Payload.Truncation
import MetricReporting.Proofs.Probe.Routing
import MetricReporting.Proofs.Reporter.Accounting
import MetricReporting.Proofs.Reporter.Ages
import MetricReporting.Proofs.Reporter.Lifespan
import MetricReporting.Proofs.Ring.Crowd.Callback
import MetricReporting.Proofs.Config.RoundTrip
import MetricReporting.Proofs.Payload.Dictionary
import MetricReporting.Proofs.Payload.ArrivalOrder
import MetricReporting.Proofs.Reporter.Room
import MetricReporting.Proofs.Reporter.DrainCall
import MetricReporting.Proofs.Reporter.Progress
import MetricReporting.Proofs.Reporter.Blocks
import MetricReporting.Proofs.Command.PacketSize
import MetricReporting.Proofs.Command.Summaries
import MetricReporting.Proofs.Reporter.Lifecycle
import MetricReporting.Proofs.Statistics.Aggregate
import MetricReporting.Proofs.Sender.Trails
import MetricReporting.Proofs.Sender.FileNames
import MetricReporting.Proofs.Sender.Deliveries
import MetricReporting.Proofs.Sender.Outbox
import MetricReporting.Proofs.Session.Work
import MetricReporting.Proofs.Session.StopTask
import MetricReporting.Proofs.Session.Closing
import MetricReporting.Proofs.Session.Confluence
import MetricReporting.Proofs.Session.Uninterrupted
import MetricReporting.Proofs.Payload.Layout
