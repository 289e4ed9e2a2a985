import Coapable.Foundation.FiniteMap
import Coapable.Foundation.Execution
import Coapable.Foundation.Channel
import Coapable.Foundation.Patterns
import Coapable.MessageTypes
import Coapable.RoundTrip
import Coapable.RequestRoundTrip
import Coapable.Transport.Loop
import Coapable.Transport.InboundSafety
import Coapable.Transport.EffectView
import Coapable.Transport.AtMostOnce
import Coapable.Transport.ResponseMatching
import Coapable.Transport.Deadlines
import Coapable.Transport.MidIndex
import Coapable.Transport.Conservation
import Coapable.Transport.PacketOrigins
import Coapable.Transport.PeerIsolation
import Coapable.Transport.MessageHeaders
import Coapable.Transport.Replay
import Coapable.Transport.EncodingFailures
import Coapable.Transport.SeparateResponses
import Coapable.Transport.PendingRequests
import Coapable.Transport.Answers
import Coapable.Transport.IdleSessions
import Coapable.Transport.MidReuse
import Coapable.Transport.TimerBudget
import Coapable.Transport.VisitingOrder
import Coapable.Transport.Silence
import Coapable.Transport.Lifecycle
import Coapable.Transport.EndpointDeadlock
import Coapable.Transport.EndpointRelay
import Coapable.Server.ServerDeadlock
import Coapable.Server.ServedRefinement
import Coapable.Server.WindingUp
import Coapable.Server.RouteCompleteness
import Coapable.Server.RouteOrder
import Coapable.Server.PathParameters
import Coapable.Server.UriPath
import Coapable.EndToEnd.Integrity
import Coapable.EndToEnd.HandledOnce
import Coapable.EndToEnd.ClientCalls
import Coapable.Server.Extensions
import Coapable.Oscore.ContextLog
import Coapable.Tasks.ServerDrop
import Coapable.Tasks.Cascade
import Coapable.Tasks.CallProgress
