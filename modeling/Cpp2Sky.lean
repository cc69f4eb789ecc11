import Cpp2Sky.Outcome
import Cpp2Sky.Base64
import Cpp2Sky.StringView
import Cpp2Sky.Propagation
import Cpp2Sky.RandomGenerator
import Cpp2Sky.TracingContext
import Cpp2Sky.Tracer
import Cpp2Sky.Mesh
import Cpp2Sky.TraceLog
import Cpp2Sky.TracingApi
import Cpp2Sky.AsyncClient
import Cpp2Sky.TracerImpl
import Cpp2Sky.Deployment
import Cpp2Sky.Library.Sextets
import Cpp2Sky.Library.Places
import Cpp2Sky.Library.Decimal
import Cpp2Sky.Library.Json
import Cpp2Sky.Library.Runs
import Cpp2Sky.Library.Potential
import Cpp2Sky.Library.Observation
import Cpp2Sky.Library.Session
import Cpp2Sky.Library.Descent
import Cpp2Sky.Library.Pool
import Cpp2Sky.Library.Fifo
import Cpp2Sky.Proofs.Base64Codec
import Cpp2Sky.Proofs.DecodingSafe
import Cpp2Sky.Proofs.HeaderFields
import Cpp2Sky.Proofs.ContextSteps
import Cpp2Sky.Proofs.HeaderRoundTrip
import Cpp2Sky.Proofs.HeaderAcceptance
import Cpp2Sky.Proofs.Base64Bijection
import Cpp2Sky.Proofs.TraceChain
import Cpp2Sky.Proofs.ReportOnce
import Cpp2Sky.Proofs.ContextView
import Cpp2Sky.Proofs.SegmentTree
import Cpp2Sky.Proofs.FrozenSpans
import Cpp2Sky.Proofs.SkipAnalysis
import Cpp2Sky.Proofs.HeaderChars
import Cpp2Sky.Proofs.TextViews
import Cpp2Sky.Proofs.ApiDefined
import Cpp2Sky.Proofs.LogLine
import Cpp2Sky.Proofs.NestedGuards
import Cpp2Sky.Proofs.FreshIds
import Cpp2Sky.Proofs.ReporterSteps
import Cpp2Sky.Proofs.ReporterPermit
import Cpp2Sky.Proofs.ReporterQueue
import Cpp2Sky.Proofs.ReporterAccounts
import Cpp2Sky.Proofs.ReporterCapacity
import Cpp2Sky.Proofs.ReporterWakeup
import Cpp2Sky.Proofs.ReporterShutdown
import Cpp2Sky.Proofs.ReporterSequential
import Cpp2Sky.Proofs.ReportSends
import Cpp2Sky.Proofs.ReporterProgress
import Cpp2Sky.Proofs.ReporterStall
import Cpp2Sky.Proofs.ReporterSessions
import Cpp2Sky.Proofs.ReporterLosses
import Cpp2Sky.Proofs.ReporterCalls
import Cpp2Sky.Proofs.MeshTraces
import Cpp2Sky.Proofs.ReporterThreads
import Cpp2Sky.Proofs.SegmentDelivery
import Cpp2Sky.Proofs.CollectedTraces
import Cpp2Sky.Proofs.CallOrder
import Cpp2Sky.Proofs.DrawnIds
import Cpp2Sky.Proofs.ExtensionHeader
