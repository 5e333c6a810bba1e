import StartupLatency.Aggregate.Answer
import StartupLatency.Aggregate.Data
import StartupLatency.Aggregate.Health
import StartupLatency.Aggregate.Latency
import StartupLatency.Backoff
import StartupLatency.Binary64
import StartupLatency.Client.Address
import StartupLatency.Client.Exchange
import StartupLatency.Client.Show
import StartupLatency.Cluster.Answer
import StartupLatency.Cluster.Object
import StartupLatency.Cluster.ObjectServer
import StartupLatency.Cluster.Pod
import StartupLatency.Cluster.Record
import StartupLatency.Cluster.Request
import StartupLatency.Cluster.Scripted
import StartupLatency.Cluster.Store
import StartupLatency.Cluster.Watch
import StartupLatency.CommandLine
import StartupLatency.CommandLine.Help
import StartupLatency.CommandLine.Option
import StartupLatency.CommandLine.Parse
import StartupLatency.Controller
import StartupLatency.Controller.Config
import StartupLatency.Controller.Process
import StartupLatency.Controller.Schedule
import StartupLatency.DataForm
import StartupLatency.Duration
import StartupLatency.Environment
import StartupLatency.Health
import StartupLatency.Http.Status
import StartupLatency.Http.Wire
import StartupLatency.Instant
import StartupLatency.Instant.Rfc3339
import StartupLatency.Json
import StartupLatency.Json.Decode
import StartupLatency.Json.MergePatch
import StartupLatency.Json.Reader
import StartupLatency.Json.Truncated
import StartupLatency.Json.Writer
import StartupLatency.Log
import StartupLatency.Log.Event
import StartupLatency.Log.Filter
import StartupLatency.Main
import StartupLatency.Metrics
import StartupLatency.Observation
import StartupLatency.Pass
import StartupLatency.Pod
import StartupLatency.Pod.Data
import StartupLatency.Probe
import StartupLatency.Probe.Target
import StartupLatency.Process
import StartupLatency.Proofs.AdmittedChanges
import StartupLatency.Proofs.BackendAgreement
import StartupLatency.Proofs.CalendarDates
import StartupLatency.Proofs.ControllerRuns
import StartupLatency.Proofs.Decimal
import StartupLatency.Proofs.DelayGrowth
import StartupLatency.Proofs.DispatchRuns
import StartupLatency.Proofs.ElapsedTime
import StartupLatency.Proofs.EventHistory
import StartupLatency.Proofs.FailureCounts
import StartupLatency.Proofs.FormRoundTrip
import StartupLatency.Proofs.ForwarderMoves
import StartupLatency.Proofs.Incarnations
import StartupLatency.Proofs.Intake
import StartupLatency.Proofs.IntakeFolds
import StartupLatency.Proofs.Interleaving
import StartupLatency.Proofs.JsonMembers
import StartupLatency.Proofs.JsonText
import StartupLatency.Proofs.KeptObjects
import StartupLatency.Proofs.KeyPlaces
import StartupLatency.Proofs.LatencyListings
import StartupLatency.Proofs.ListingOrder
import StartupLatency.Proofs.MeasuredPods
import StartupLatency.Proofs.MergedIntake
import StartupLatency.Proofs.MirroredListings
import StartupLatency.Proofs.MirroredStores
import StartupLatency.Proofs.NearestRank
import StartupLatency.Proofs.ObserverWrites
import StartupLatency.Proofs.OrderlyRuns
import StartupLatency.Proofs.Overwriting
import StartupLatency.Proofs.PageAddresses
import StartupLatency.Proofs.PassAtomicity
import StartupLatency.Proofs.PatchFrames
import StartupLatency.Proofs.PatchedPods
import StartupLatency.Proofs.Pieces
import StartupLatency.Proofs.PodServices
import StartupLatency.Proofs.PodTallies
import StartupLatency.Proofs.ProbeAttempts
import StartupLatency.Proofs.ProbePacing
import StartupLatency.Proofs.QueueRuns
import StartupLatency.Proofs.RecordChange
import StartupLatency.Proofs.RecordIntegrity
import StartupLatency.Proofs.RecordVersions
import StartupLatency.Proofs.RepeatedReports
import StartupLatency.Proofs.ReportedRecords
import StartupLatency.Proofs.ReporterOutcomes
import StartupLatency.Proofs.ReporterTasks
import StartupLatency.Proofs.RetrySchedule
import StartupLatency.Proofs.RetryTiming
import StartupLatency.Proofs.ScriptedPasses
import StartupLatency.Proofs.SelectorGrammar
import StartupLatency.Proofs.SelectorReading
import StartupLatency.Proofs.SelectorText
import StartupLatency.Proofs.ServedUpdate
import StartupLatency.Proofs.ServerRequests
import StartupLatency.Proofs.StructureReading
import StartupLatency.Proofs.StructureWriting
import StartupLatency.Proofs.TargetSpellings
import StartupLatency.Proofs.TimedRuns
import StartupLatency.Proofs.TimestampGrammar
import StartupLatency.Proofs.TimestampText
import StartupLatency.Proofs.UrlParts
import StartupLatency.Proofs.VirtualTime
import StartupLatency.Proofs.WatchForwarding
import StartupLatency.Proofs.WatchedPods
import StartupLatency.Proofs.WireForms
import StartupLatency.Proofs.WriteHistory
import StartupLatency.Query
import StartupLatency.QueryPage
import StartupLatency.QueryPage.Health
import StartupLatency.QueryPage.Latency
import StartupLatency.Queue
import StartupLatency.Queue.Data
import StartupLatency.Queue.Timed
import StartupLatency.Record
import StartupLatency.Record.Data
import StartupLatency.Reporter
import StartupLatency.Reporter.Config
import StartupLatency.Reporter.Process
import StartupLatency.Retry
import StartupLatency.Selector
import StartupLatency.Server
import StartupLatency.SortedMap
import StartupLatency.Store.Access
import StartupLatency.Store.Data
import StartupLatency.Store.Error
import StartupLatency.Store.Pods
import StartupLatency.Store.Records
import StartupLatency.Store.Scripted
import StartupLatency.Terminal.Cell
import StartupLatency.Terminal.Style
import StartupLatency.Terminal.Table
import StartupLatency.Text
import StartupLatency.Text.Decimal
import StartupLatency.Text.Quoted
import StartupLatency.Text.Utf8
import StartupLatency.Text.Width
import StartupLatency.Text.WidthTable
import StartupLatency.Url
import StartupLatency.Url.Escape
import StartupLatency.Url.Form
import StartupLatency.Url.Host
import StartupLatency.Url.International
import StartupLatency.Url.Parser
import StartupLatency.Watch.Data
import StartupLatency.Watch.Event
import StartupLatency.Watch.Forward
import StartupLatency.Word
