import TrafficStats.Main
import TrafficStats.Shared.Access
import TrafficStats.Store.Script
import TrafficStats.Proofs.Cleanup.Convergence
import TrafficStats.Proofs.Cleanup.Deletes
import TrafficStats.Proofs.Cleanup.Mapping
import TrafficStats.Proofs.Cleanup.Quiet
import TrafficStats.Proofs.Cleanup.Retagged
import TrafficStats.Proofs.Cleanup.Stages
import TrafficStats.Proofs.CommandLine.Grammar
import TrafficStats.Proofs.CommandLine.Iface
import TrafficStats.Proofs.CommandLine.Owner
import TrafficStats.Proofs.CommandLine.Reading
import TrafficStats.Proofs.Config.Written
import TrafficStats.Proofs.Counters.Exact
import TrafficStats.Proofs.Json.Decoders
import TrafficStats.Proofs.Json.Flat
import TrafficStats.Proofs.Json.Grammar
import TrafficStats.Proofs.Json.Numbers
import TrafficStats.Proofs.Json.Records
import TrafficStats.Proofs.Json.Scan
import TrafficStats.Proofs.Json.Skipped
import TrafficStats.Proofs.Kernel.Agreement
import TrafficStats.Proofs.Kernel.Budget
import TrafficStats.Proofs.Kernel.Complete
import TrafficStats.Proofs.Kernel.Faults
import TrafficStats.Proofs.Kernel.Holding
import TrafficStats.Proofs.Kernel.Kinds
import TrafficStats.Proofs.Kernel.Laps
import TrafficStats.Proofs.Kernel.Recounted
import TrafficStats.Proofs.Kernel.Refusals
import TrafficStats.Proofs.Kernel.Trail
import TrafficStats.Proofs.Kernel.Untroubled
import TrafficStats.Proofs.Report.Classified
import TrafficStats.Proofs.Report.Grouping
import TrafficStats.Proofs.Report.Hidden
import TrafficStats.Proofs.Report.Linear
import TrafficStats.Proofs.Report.Lossless
import TrafficStats.Proofs.Report.NamedOnce
import TrafficStats.Proofs.Report.Rows
import TrafficStats.Proofs.Report.Steps
import TrafficStats.Proofs.Shared.Failing
import TrafficStats.Proofs.Shared.Holding
import TrafficStats.Proofs.Shared.Schedule
import TrafficStats.Proofs.Shared.Undisturbed
import TrafficStats.Proofs.Shared.Walk
import TrafficStats.Proofs.Store.Interleaved
import TrafficStats.Proofs.Table.Answers
import TrafficStats.Proofs.Table.Holding
import TrafficStats.Proofs.Table.Leaves
import TrafficStats.Proofs.Table.Registered
import TrafficStats.Proofs.Table.Steady
import TrafficStats.Proofs.Text.Bounded
import TrafficStats.Proofs.Text.Cut
import TrafficStats.Proofs.Text.NameFields
import TrafficStats.Proofs.Text.Order
import TrafficStats.Proofs.Total.Bounds
import TrafficStats.Proofs.Total.Device
import TrafficStats.Proofs.Total.Growing
import TrafficStats.Proofs.Total.Index
import TrafficStats.Proofs.Total.NamesLost
import TrafficStats.Proofs.Total.Owners
import TrafficStats.Proofs.Total.Records
import TrafficStats.Proofs.Total.Rows
import TrafficStats.Proofs.Unnamed.Alerts
import TrafficStats.Proofs.Unnamed.Growth
import TrafficStats.Proofs.Unnamed.Material
import TrafficStats.Proofs.Unnamed.Order
import TrafficStats.Proofs.Unnamed.Reread
import TrafficStats.Proofs.Unnamed.Steps
import TrafficStats.Proofs.Watch.Steady
