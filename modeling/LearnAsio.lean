import LearnAsio.Transition.System
import LearnAsio.Delivery.Table
import LearnAsio.Http.Parser
import LearnAsio.Http.Message
import LearnAsio.Http.HeaderMap
import LearnAsio.Http.Segmentation
import LearnAsio.Http.Connection
import LearnAsio.Http.Server
import LearnAsio.Http.Lifecycle
import LearnAsio.Http.Invariant
import LearnAsio.Http.Ownership
import LearnAsio.Http.Leak
import LearnAsio.Http.Transmission
import LearnAsio.Http.Quiet
import LearnAsio.Http.Trace
import LearnAsio.Http.Dispatch
import LearnAsio.Http.Pipelining
import LearnAsio.Chat.Session
import LearnAsio.Chat.Server
import LearnAsio.Chat.Invariant
import LearnAsio.Chat.Agreement
import LearnAsio.Chat.Relay
import LearnAsio.Streambuf.Server
import LearnAsio.Streambuf.Invariant
import LearnAsio.Streambuf.Lines
import LearnAsio.Chat.Membership
import LearnAsio.Chat.WriteQueue
import LearnAsio.Streambuf.WriteQueue
import LearnAsio.Chat.Departure
import LearnAsio.Http.Reader
import LearnAsio.Http.Acceptor
import LearnAsio.Http.Framing
import LearnAsio.Http.Isolation
import LearnAsio.Http.OneReply
import LearnAsio.Group.Query
import LearnAsio.Tutorial.AcceptChain
import LearnAsio.Http.Stopping
import LearnAsio.Http.WriteBuffers
import LearnAsio.Http.Success
import LearnAsio.Http.StatusLaw
import LearnAsio.Streambuf.ErrorIsolation
import LearnAsio.Http.ResetLaw
import LearnAsio.Chat.Framing
import LearnAsio.Chat.Room
import LearnAsio.Chat.Draining
import LearnAsio.Http.Draining
import LearnAsio.Delivery.Istream
import LearnAsio.Delivery.ReadUntil
import LearnAsio.Http.Client
import LearnAsio.Http.Conversation
import LearnAsio.Basics.Printer
import LearnAsio.Basics.Threads
import LearnAsio.Delivery.Replies
import LearnAsio.Transition.History
import LearnAsio.Transition.Pending
import LearnAsio.Basics.UdpServer
import LearnAsio.Delivery.Script
import LearnAsio.Http.ClientRequest
import LearnAsio.Streambuf.Echo
import LearnAsio.Basics.DaytimeServer
