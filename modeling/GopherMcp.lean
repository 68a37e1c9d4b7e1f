import GopherMcp.Server.ListenDelivery
import GopherMcp.Server.ListenOpening
import GopherMcp.Server.TaskCallers
import GopherMcp.Transport.ExchangeRuns
import GopherMcp.Transport.SessionRuns
import GopherMcp.Protocol.StateSealing
import GopherMcp.Server.QuestionRuns
import GopherMcp.Server.PendingRequests
import GopherMcp.Filter.CircuitBreakerRecovery
import GopherMcp.Filter.SessionVerdict
import GopherMcp.Server.ToolRuns
import GopherMcp.Server.SubscribedSessionRuns
import GopherMcp.Protocol.TaskDocument
import GopherMcp.Filter.CodecFraming
import GopherMcp.Filter.CodecGate
import GopherMcp.Json.Views
import GopherMcp.Json.ResponseResult
import GopherMcp.Client.CircuitBreaker
import GopherMcp.Http.SseWriters
import GopherMcp.Client.ClockRuns
import GopherMcp.Client.StatusBlame
import GopherMcp.Client.ListenEnds
import GopherMcp.Filter.MirrorAgreement
import GopherMcp.Network.ReadInterest
import GopherMcp.Network.WriteWatermarks
import GopherMcp.Network.FlushPromise
import GopherMcp.Filter.FilterChainPauses
import GopherMcp.Buffer.Search
import GopherMcp.Buffer.Copying
import GopherMcp.Config.TrustedVersions
import GopherMcp.Logging.LevelRules
import GopherMcp.Network.FollowedSocket
import GopherMcp.Event.PostedTasks
import GopherMcp.Transport.BridgedBytes
import GopherMcp.Http.SettledRequests
import GopherMcp.Buffer.AccountRuns
import GopherMcp.Protocol.MissingCapabilities
import GopherMcp.Protocol.TraceScanners
import GopherMcp.Filter.CircuitBreakerScores
import GopherMcp.Filter.RetryAfter
import GopherMcp.Config.FilterReordering
import GopherMcp.Config.Units
import GopherMcp.Config.Predicates
import GopherMcp.Protocol.FlatMetadata
import GopherMcp.Filter.Preflight
import GopherMcp.Filter.HttpRouting
import GopherMcp.Client.InputRounds
import GopherMcp.Config.MergedTwice
import GopherMcp.Filter.BodyAnnouncement
import GopherMcp.Http.HttpHeaders
import GopherMcp.Protocol.McpProtocolStateMachine
import GopherMcp.Filter.ClientSseDeadline
import GopherMcp.Network.CidrRanges
import GopherMcp.Config.EnvSubstitution
import GopherMcp.Transport.RetainedExchanges
import GopherMcp.Http.WrittenRequests
import GopherMcp.Config.IncludeBounds
import GopherMcp.Transport.SslTransportRuns
import GopherMcp.Http.StreamedEvents
import GopherMcp.Filter.ServerModeRuns
import GopherMcp.Filter.CircuitBreakerLog
