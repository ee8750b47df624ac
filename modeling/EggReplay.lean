import EggReplay.Library.Checks
import EggReplay.Library.Text
import EggReplay.Library.JsonText
import EggReplay.Core.FlowRecord
import EggReplay.Core.StreamTimeline
import EggReplay.Http.StreamEventCapture
import EggReplay.Core.WebSockets
import EggReplay.Core.Scenarios
import EggReplay.Library.LineLog
import EggReplay.Store.Fixture
import EggReplay.Store.SessionOpen
import EggReplay.Store.Staging
import EggReplay.Store.Writer
import EggReplay.Store.Copies
import EggReplay.Store.Recording
import EggReplay.Store.StagedInvariant
import EggReplay.Store.Publication
import EggReplay.Store.SessionRuns
import EggReplay.Store.FlowLogLimits
import EggReplay.Store.OpenedSessions
import EggReplay.Store.Assembly
import EggReplay.Store.CopiedBlobs
import EggReplay.Store.CopyPreserves
import EggReplay.Store.Merges
import EggReplay.Library.JsonReader
import EggReplay.Library.JsonPointer
import EggReplay.Library.JsonPlaces
import EggReplay.Core.Redaction
import EggReplay.Core.Matching
import EggReplay.Core.RemovalPlaces
import EggReplay.Core.SteadyPointers
import EggReplay.Core.BodyWildcards
import EggReplay.Core.Consumption
import EggReplay.Core.FieldWildcards
import EggReplay.Core.ServerSentEvents
import EggReplay.Core.Reports
import EggReplay.Core.ReportVerdicts
import EggReplay.Library.JsonLookup
import EggReplay.Core.ScenarioSteps
import EggReplay.Core.ScenarioRuns
import EggReplay.Core.ScenarioSecrecy
import EggReplay.Library.LossyText
import EggReplay.Http.WebSocketRelay
import EggReplay.Library.Pairings
import EggReplay.Http.RelayTranscripts
import EggReplay.Http.RelayTransparency
import EggReplay.Http.RelayRedaction
import EggReplay.Http.WebSocketMatching
import EggReplay.Http.WebSocketReplay
import EggReplay.Http.ReplayDelivery
import EggReplay.Http.EndpointTimings
import EggReplay.Http.CandidateScript
import EggReplay.Http.CandidateDelivery
import EggReplay.Library.Stateful
import EggReplay.Http.Transaction
import EggReplay.Http.Recorder
import EggReplay.Http.ResponseRendering
import EggReplay.Http.ReplayedEnds
import EggReplay.Store.BlobContents
import EggReplay.Http.Captures
import EggReplay.Http.RecordMarkers
import EggReplay.Http.RecorderAgreement
import EggReplay.Http.RecordedTimelines
import EggReplay.Http.Atomicity
import EggReplay.Http.Rematching
import EggReplay.Library.IpText
import EggReplay.Intercept.Hosts
import EggReplay.Intercept.TargetPolicies
import EggReplay.Library.TransitionSystem
import EggReplay.Intercept.Tunnels
import EggReplay.Intercept.TunnelPermits
import EggReplay.Http.Candidates
import EggReplay.Http.ProjectionAgreement
import EggReplay.Library.FifoCaches
import EggReplay.Intercept.Leaves
import EggReplay.Intercept.LeafCacheRuns
import EggReplay.Intercept.Authorities
import EggReplay.Intercept.ExplicitProxy
import EggReplay.Intercept.ProxyAccounting
import EggReplay.Http.GatewayAnswers
import EggReplay.Http.GatewayTransparency
import EggReplay.Cli.FixtureWebSockets
import EggReplay.Cli.WebSocketAgreement
import EggReplay.Library.Directories
import EggReplay.Cli.FixtureReplacement
import EggReplay.Cli.CrashConsistency
import EggReplay.Cli.OverwritingCommands
import EggReplay.Cli.OldFixtureKept
import EggReplay.Core.NearMisses
import EggReplay.Core.AuthoritySpellings
import EggReplay.Core.LazyBodies
import EggReplay.Http.FormWildcards
import EggReplay.Http.ReplayTimings
import EggReplay.Core.VariableCounts
import EggReplay.Core.SkippedTransitions
import EggReplay.Core.RenderedHeaders
import EggReplay.Library.FaultyCalls
import EggReplay.Intercept.CaAuthorities
import EggReplay.Intercept.CaPublication
import EggReplay.Intercept.CanonicalAuthorities
import EggReplay.Intercept.OneOrigin
import EggReplay.Library.Xml
import EggReplay.Cli.JunitReports
import EggReplay.Core.CadenceDrift
import EggReplay.Library.Intervals
import EggReplay.Http.TiledTimelines
import EggReplay.Http.ReconciledTimelines
import EggReplay.Library.JsonLengths
import EggReplay.Store.StreamEventSizes
import EggReplay.Core.ConversationRules
import EggReplay.Store.ConversationAdmission
import EggReplay.Store.TornWrites
import EggReplay.Store.BodyAccounting
import EggReplay.Library.PolledStreams
import EggReplay.Http.ScenarioFaults
import EggReplay.Core.SseComposition
import EggReplay.Cli.ReportedVerdicts
import EggReplay.Http.ConcealedFields
import EggReplay.Library.TwoRuns
import EggReplay.Http.FieldSecrecy
import EggReplay.Http.SelectedBodies
import EggReplay.Http.BodySecrecy
import EggReplay.Intercept.PolicyVerdicts
import EggReplay.Intercept.PolicyFiles
import EggReplay.Intercept.FlagPolicies
import EggReplay.Intercept.AuthorityGrammar
import EggReplay.Intercept.AbsoluteTargets
import EggReplay.Intercept.RelayRuns
import EggReplay.Intercept.HeaderFiltering
import EggReplay.Library.Envelopes
import EggReplay.Http.GrpcFraming
import EggReplay.Library.Strides
import EggReplay.Intercept.SerialNumbers
import EggReplay.Core.TemplateSubstitution
import EggReplay.Har.HarDocuments
import EggReplay.Har.HarImport
import EggReplay.Har.ImportSafety
import EggReplay.Intercept.CaReopening
import EggReplay.Core.TimelineOrder
import EggReplay.Library.Phases
import EggReplay.Cli.TimelineRuns
import EggReplay.Cli.TimelineReports
import EggReplay.Http.RecordingProcess
import EggReplay.Cli.ScheduledRecordings
import EggReplay.Http.ConversationDrain
import EggReplay.Store.FinishSteps
import EggReplay.Store.CloneInterleavings
import EggReplay.Http.AppendMiss
import EggReplay.Http.MissRematching
import EggReplay.Http.MissRuns
import EggReplay.Core.KeyedReplay
import EggReplay.Store.FlowLinearization
import EggReplay.Http.FixtureLoading
import EggReplay.Http.SealedServer
import EggReplay.Http.ConcurrentReplay
import EggReplay.Http.RecordedReplay
