import ServerLib.Network.MsgStream
import ServerLib.Network.HeaderExactness
import ServerLib.Network.IntegerCode
import ServerLib.Network.DelimiterStream
import ServerLib.Network.FeedProgress
import ServerLib.Network.RejectedStream
import ServerLib.Network.ManagerReset
import ServerLib.Network.Receiving
import ServerLib.Network.Sending
import ServerLib.Network.Disconnection
import ServerLib.Network.Server
import ServerLib.Network.ServerRuns
import ServerLib.Network.Channel
import ServerLib.Network.IntegerStream
import ServerLib.Network.Acceptor
import ServerLib.Network.ConnectAttempt
import ServerLib.Network.ScopeGate
import ServerLib.Common.ProtectedMutex
import ServerLib.Common.EventLoop
import ServerLib.Common.ExitNotification
import ServerLib.Common.ControlSignals
import ServerLib.Common.ExitStatus
import ServerLib.Common.Timers
import ServerLib.Common.QueueSize
import ServerLib.Common.RunState
import ServerLib.Common.Durations
import ServerLib.Common.Handshakes
import ServerLib.Common.TimedWait
import ServerLib.Common.LogRetention
import ServerLib.Common.RelativeTime
import ServerLib.Common.StopObservers
import ServerLib.Common.VersionParsing
import ServerLib.Common.Observable
import ServerLib.Common.SoloTimers
import ServerLib.Common.SpawnPolling
import ServerLib.Common.StackDumps
import ServerLib.Common.LoggerSettings
import ServerLib.Common.Communicate
import ServerLib.Common.Spawn
import ServerLib.Web.ChunkedTransfer
import ServerLib.Web.RequestEncoding
import ServerLib.Web.ResponseReading
import ServerLib.Web.Pipelining
import ServerLib.Web.Answering
import ServerLib.Web.ClientStopping
import ServerLib.Web.RequestReporting
import ServerLib.Web.FailedRequests
import ServerLib.Web.SizeLimit
import ServerLib.Web.StatusLine
import ServerLib.Web.QueryString
import ServerLib.Web.AttributeList
import ServerLib.Web.LiveConnections
import ServerLib.Web.RequestRegistry
import ServerLib.Web.SecureRequests
import ServerLib.Web.Conversation
import ServerLib.Web.ServerSessions
import ServerLib.Web.SecureServer
