import JobEngine.Activity
import JobEngine.Artifact
import JobEngine.Bell
import JobEngine.Client
import JobEngine.CommandLine
import JobEngine.Config.Detection
import JobEngine.Config.Dialect
import JobEngine.Config.Environment
import JobEngine.Config.FromJson
import JobEngine.Config.FromToml
import JobEngine.Config.FromYaml
import JobEngine.Config.Loading
import JobEngine.Config.Settings
import JobEngine.Config.Validation
import JobEngine.DeadLetters
import JobEngine.Decimal.Shortest
import JobEngine.Delivery
import JobEngine.Engine
import JobEngine.Error
import JobEngine.Files
import JobEngine.JobId
import JobEngine.JobLog
import JobEngine.Json.Decode
import JobEngine.Json.Numeral
import JobEngine.Json.Printer
import JobEngine.Json.Reader
import JobEngine.Json.Value
import JobEngine.LogFilter
import JobEngine.Main
import JobEngine.Maintenance.Collection
import JobEngine.Maintenance.Retention
import JobEngine.Maintenance.Scan
import JobEngine.Notice
import JobEngine.Periodic
import JobEngine.Pool
import JobEngine.Proofs.Acceptance
import JobEngine.Proofs.ArtifactTables
import JobEngine.Proofs.Attempts
import JobEngine.Proofs.Attendance
import JobEngine.Proofs.Collections
import JobEngine.Proofs.Conservation
import JobEngine.Proofs.DeadIndex
import JobEngine.Proofs.DeathMarks
import JobEngine.Proofs.DeliveryTrace
import JobEngine.Proofs.DryRuns
import JobEngine.Proofs.Interleaving
import JobEngine.Proofs.LateCommands
import JobEngine.Proofs.Life
import JobEngine.Proofs.LiveEntries
import JobEngine.Proofs.ParameterChecks
import JobEngine.Proofs.Places
import JobEngine.Proofs.Projection
import JobEngine.Proofs.QueueLedger
import JobEngine.Proofs.Quiescence
import JobEngine.Proofs.RemainingWork
import JobEngine.Proofs.Retention
import JobEngine.Proofs.RetryBounds
import JobEngine.Proofs.Runs
import JobEngine.Proofs.ScheduleIndependence
import JobEngine.Proofs.Settlement
import JobEngine.Proofs.SoleRuns
import JobEngine.Proofs.StatusCourse
import JobEngine.Proofs.StopCommands
import JobEngine.Proofs.Sweeps
import JobEngine.Proofs.Thresholds
import JobEngine.Proofs.TrackerEntries
import JobEngine.Proofs.TrackerTables
import JobEngine.Proofs.VirtualTime
import JobEngine.Proofs.Wakeups
import JobEngine.Queue
import JobEngine.Record
import JobEngine.Retry
import JobEngine.Script
import JobEngine.Service
import JobEngine.Simulation
import JobEngine.Simulation.Control
import JobEngine.Submission
import JobEngine.Text.Blank
import JobEngine.Text.Printable
import JobEngine.Text.Quoted
import JobEngine.Text.Whole
import JobEngine.Time.Calendar
import JobEngine.Time.Cron
import JobEngine.Time.Timestamp
import JobEngine.Toml.Reader
import JobEngine.Toml.Table
import JobEngine.Toml.Value
import JobEngine.Tracker
import JobEngine.Yaml.Cursor
import JobEngine.Yaml.Node
import JobEngine.Yaml.Scalar
import JobEngine.Yaml.Token
import JobEngine.Proofs.FreedBytes
import JobEngine.Proofs.ArtifactLookups
import JobEngine.Proofs.ArtifactHistories
import JobEngine.Proofs.SharedRuns
import JobEngine.Proofs.Purges
import JobEngine.Proofs.StaleListings
import JobEngine.Proofs.Contention
import JobEngine.Proofs.IdentifierTexts
import JobEngine.Proofs.LogFiles
import JobEngine.Proofs.JobLogs
import JobEngine.Proofs.LogLines
import JobEngine.Proofs.IdentifierSpellings
import JobEngine.Proofs.LogAccess
import JobEngine.Proofs.SettingLayers
import JobEngine.Proofs.StillTime
import JobEngine.Proofs.Confirmations
import JobEngine.Proofs.JsonReading
import JobEngine.Proofs.Submissions
import JobEngine.Proofs.PeriodicPolicies
import JobEngine.Proofs.TomlHeaders
import JobEngine.Proofs.FormatDetection
import JobEngine.Proofs.CalendarDays
import JobEngine.Proofs.TimestampTexts
import JobEngine.Proofs.RecordShapes
import JobEngine.Proofs.WireFormats
