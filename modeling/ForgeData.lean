import ForgeData.Catalog.AcyclicLineage
import ForgeData.Catalog.Artifacts
import ForgeData.Catalog.DocumentedLineage
import ForgeData.Catalog.Errors
import ForgeData.Catalog.ExactPlans
import ForgeData.Catalog.ExactTraversal
import ForgeData.Catalog.Execution
import ForgeData.Catalog.Governance
import ForgeData.Catalog.GovernanceLog
import ForgeData.Catalog.Impact
import ForgeData.Catalog.LineageGraph
import ForgeData.Catalog.Manifests
import ForgeData.Catalog.Operations
import ForgeData.Catalog.PackageVerification
import ForgeData.Catalog.RebuildExecutor
import ForgeData.Catalog.RebuildGate
import ForgeData.Catalog.RebuildGovernance
import ForgeData.Catalog.RebuildInputs
import ForgeData.Catalog.RebuildOnce
import ForgeData.Catalog.RebuildPlanner
import ForgeData.Catalog.RebuildReport
import ForgeData.Catalog.RebuildResults
import ForgeData.Catalog.Registration
import ForgeData.Catalog.RegistrationGate
import ForgeData.Catalog.Repository
import ForgeData.Catalog.Reproducibility
import ForgeData.Catalog.ScanConvergence
import ForgeData.Catalog.ScanEffects
import ForgeData.Catalog.ScanIssues
import ForgeData.Catalog.ScanLists
import ForgeData.Catalog.Scanner
import ForgeData.Catalog.SemanticVersions
import ForgeData.Catalog.Service
import ForgeData.Catalog.StageRequests
import ForgeData.Catalog.Verifier
import ForgeData.Catalog.VersionPointers
import ForgeData.Catalog.VersionReports
import ForgeData.Catalog.Versioning
import ForgeData.Catalog.Writes
import ForgeData.Cleaning.CleanedStream
import ForgeData.Cleaning.ExactRedaction
import ForgeData.Cleaning.Redaction
import ForgeData.Cleaning.ReferencePipeline
import ForgeData.Cleaning.Rules
import ForgeData.Cleaning.SeenIndex
import ForgeData.Cleaning.Service
import ForgeData.Cleaning.Verdicts
import ForgeData.FileSystem.Closed
import ForgeData.FileSystem.Faults
import ForgeData.FileSystem.Mount
import ForgeData.FileSystem.Operations
import ForgeData.FileSystem.Prune
import ForgeData.FileSystem.Publishing
import ForgeData.FileSystem.Tree
import ForgeData.Graph.Distance
import ForgeData.Graph.IntervalSweep
import ForgeData.Graph.Kahn
import ForgeData.Graph.Reachability
import ForgeData.Graph.Search
import ForgeData.Ingestion.ConcurrentUploads
import ForgeData.Ingestion.FaithfulUploads
import ForgeData.Ingestion.RecoveredUploads
import ForgeData.Ingestion.Service
import ForgeData.Ingestion.Streams
import ForgeData.Integrity.Checkers
import ForgeData.Integrity.Checks
import ForgeData.Integrity.ReadValues
import ForgeData.Integrity.Records
import ForgeData.Integrity.Reports
import ForgeData.Integrity.ValidatedFiles
import ForgeData.Interleaving.Pool
import ForgeData.Interleaving.PoolProtocol
import ForgeData.Interleaving.Program
import ForgeData.Interleaving.Protocol
import ForgeData.Interleaving.Schedule
import ForgeData.Normalization.Artifacts
import ForgeData.Normalization.NormalForm
import ForgeData.Normalization.Profile
import ForgeData.Normalization.Records
import ForgeData.Normalization.Timestamps
import ForgeData.Normalization.Transforms
import ForgeData.Normalization.ValidatedRecords
import ForgeData.Normalization.WrittenRecords
import ForgeData.Packaging.Conservation
import ForgeData.Packaging.Grouping
import ForgeData.Packaging.Growth
import ForgeData.Packaging.Leakage
import ForgeData.Packaging.LeakageSafety
import ForgeData.Packaging.OverlapComponents
import ForgeData.Packaging.OverlapGroups
import ForgeData.Packaging.PackagingRun
import ForgeData.Packaging.Passes
import ForgeData.Packaging.Profile
import ForgeData.Packaging.SequentialFill
import ForgeData.Packaging.Service
import ForgeData.Packaging.SplitRatios
import ForgeData.Packaging.Splitter
import ForgeData.Pipeline.Sensors
import ForgeData.Pipeline.StageGates
import ForgeData.Python.Calendar
import ForgeData.Python.CodePoints
import ForgeData.Python.Csv
import ForgeData.Python.Datetime
import ForgeData.Python.Dict
import ForgeData.Python.Digest
import ForgeData.Python.Float
import ForgeData.Python.FloatText
import ForgeData.Python.Generator
import ForgeData.Python.IntText
import ForgeData.Python.IsoFormat
import ForgeData.Python.IsoOrder
import ForgeData.Python.Json
import ForgeData.Python.JsonCanonical
import ForgeData.Python.JsonDecoder
import ForgeData.Python.JsonEncoder
import ForgeData.Python.JsonLines
import ForgeData.Python.JsonNumbers
import ForgeData.Python.JsonRoundTrip
import ForgeData.Python.JsonStrings
import ForgeData.Python.JsonTexts
import ForgeData.Python.Lines
import ForgeData.Python.Loop
import ForgeData.Python.ParsedJson
import ForgeData.Python.ParsedTexts
import ForgeData.Python.Paths
import ForgeData.Python.Positions
import ForgeData.Python.Rounding
import ForgeData.Python.Text
import ForgeData.Python.Utf8
import ForgeData.Python.Value
import ForgeData.Qc.Drift
import ForgeData.Qc.FeatureAccounting
import ForgeData.Qc.FeatureCompleteness
import ForgeData.Qc.FeatureCounts
import ForgeData.Qc.Metrics
import ForgeData.Qc.ModalityCoverage
import ForgeData.Qc.Statistics
import ForgeData.Runs.CancelRequests
import ForgeData.Runs.Cancellation
import ForgeData.Runs.Capacity
import ForgeData.Runs.Executor
import ForgeData.Runs.Lifecycle
import ForgeData.Runs.OperationEffects
import ForgeData.Runs.Operations
import ForgeData.Runs.Progress
import ForgeData.Runs.ReconcileOnce
import ForgeData.Runs.Reconciliation
import ForgeData.Runs.RepeatedSensors
import ForgeData.Runs.Repository
import ForgeData.Runs.Request
import ForgeData.Runs.StageClosing
import ForgeData.Runs.StageOrder
import ForgeData.Runs.StageRows
import ForgeData.Runs.StageWork
import ForgeData.Runs.StateMachine
import ForgeData.Runs.StreamPaths
import ForgeData.Runs.StreamsJoined
import ForgeData.Runs.SuccessfulRuns
import ForgeData.Runs.Termination
import ForgeData.Runs.Transitions
import ForgeData.Statistics.ClosestRanks
import ForgeData.Statistics.Moments
import ForgeData.Storage.Atomic
import ForgeData.Storage.Local
import ForgeData.Storage.Publication
import ForgeData.Storage.Recovery
import ForgeData.Storage.ReportPublication
import ForgeData.Storage.ReportStores
import ForgeData.Storage.StagedSaves
import ForgeData.Storage.StaleCleanup
import ForgeData.Synchronization.AlignedStreams
import ForgeData.Synchronization.Alignment
import ForgeData.Synchronization.ArtifactRoundTrip
import ForgeData.Synchronization.BracketedTargets
import ForgeData.Synchronization.CanonicalTimestamps
import ForgeData.Synchronization.ClockCorrection
import ForgeData.Synchronization.FieldsKept
import ForgeData.Synchronization.FixedRateWindow
import ForgeData.Synchronization.LinearResults
import ForgeData.Synchronization.LoadedStreams
import ForgeData.Synchronization.NearestResults
import ForgeData.Synchronization.Readers
import ForgeData.Synchronization.RoundTrip
import ForgeData.Synchronization.RowAccounting
import ForgeData.Synchronization.Service
import ForgeData.Synchronization.Strategies
import ForgeData.Synchronization.StreamAccounting
import ForgeData.Synchronization.SynchronizedRows
import ForgeData.Synchronization.Timeline
import ForgeData.Transformation.CountWindows
import ForgeData.Transformation.Service
import ForgeData.Transformation.TimeWindows
import ForgeData.Transformation.Windowing
import ForgeData.Validation.Evaluator
import ForgeData.Validation.PassedFiles
import ForgeData.Validation.Reports
import ForgeData.Validation.Schema
import ForgeData.Validation.Validators
