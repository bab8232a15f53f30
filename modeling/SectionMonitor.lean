import SectionMonitor.Gather
import SectionMonitor.Exchange.Lockstep
import SectionMonitor.Exchange.Replay
import SectionMonitor.Report.Text
import SectionMonitor.Scenario.Drill
import SectionMonitor.Scenario.Job
import SectionMonitor.Monitor.Interval
import SectionMonitor.Monitor.Region
import SectionMonitor.Monitor.Reset
import SectionMonitor.Text.Padding
import SectionMonitor.Text.Utf8
import SectionMonitor.Proofs.Exchange
import SectionMonitor.Proofs.Registry
import SectionMonitor.Proofs.Run
import SectionMonitor.Proofs.Edit
import SectionMonitor.Proofs.Replica
import SectionMonitor.Proofs.Exclusivity
import SectionMonitor.Proofs.Confinement
import SectionMonitor.Proofs.Agreement
import SectionMonitor.Proofs.Lockstep
import SectionMonitor.Proofs.Gather
import SectionMonitor.Proofs.JobSummary
import SectionMonitor.Proofs.Merge
import SectionMonitor.Proofs.Handles
import SectionMonitor.Proofs.Deeds
import SectionMonitor.Proofs.Ledger
import SectionMonitor.Proofs.Attribution
import SectionMonitor.Proofs.Calls
import SectionMonitor.Proofs.WallTime
import SectionMonitor.Proofs.RegionTime
import SectionMonitor.Proofs.Cluster
import SectionMonitor.Proofs.Interleaving
import SectionMonitor.Proofs.Timeline
import SectionMonitor.Proofs.Completion
import SectionMonitor.Proofs.FixedProperties
import SectionMonitor.Proofs.Bindings
import SectionMonitor.Proofs.AgreedProperties
import SectionMonitor.Proofs.Program
import SectionMonitor.Proofs.Volumes
import SectionMonitor.Proofs.Untraced
import SectionMonitor.Proofs.Refusals
import SectionMonitor.Proofs.MergeSums
import SectionMonitor.Proofs.RegionOfOne
import SectionMonitor.Proofs.LabelRecords
import SectionMonitor.Proofs.MergeOrder
import SectionMonitor.Proofs.IntervalTime
import SectionMonitor.Proofs.Ranking
import SectionMonitor.Proofs.ReportLevels
import SectionMonitor.Proofs.StatedVolumes
import SectionMonitor.Proofs.Snapshots
import SectionMonitor.Proofs.GatherFrame
import SectionMonitor.Proofs.FloatIdentities
import SectionMonitor.Proofs.LoneGather
import SectionMonitor.Proofs.FreshStart
import SectionMonitor.Proofs.Disagreement
import SectionMonitor.Proofs.CounterTotals
import SectionMonitor.Proofs.FloatValues
import SectionMonitor.Proofs.FloatDivision
import SectionMonitor.Proofs.SpeedUnits
