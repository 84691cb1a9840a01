import TapTunnel.Framework.Transition
import TapTunnel.Framework.Channel
import TapTunnel.Framework.Table
import TapTunnel.Framework.Bytes
import TapTunnel.Framework.Framed
import TapTunnel.Framework.Arrivals
import TapTunnel.Framework.Pipe
import TapTunnel.Framework.Replay
import TapTunnel.Framework.Text
import TapTunnel.Framework.Tokens
import TapTunnel.Framework.Json
import TapTunnel.Framework.BitPrefix
import TapTunnel.Net.Addr
import TapTunnel.Net.AddrText
import TapTunnel.Net.Subnet
import TapTunnel.Net.ClientIp
import TapTunnel.Net.Smoltcp
import TapTunnel.Net.Reference
import TapTunnel.Net.Views
import TapTunnel.Stack.State
import TapTunnel.Stack.Pump
import TapTunnel.Stack.Handlers
import TapTunnel.Socket.Stream
import TapTunnel.Socket.AsyncWrite
import TapTunnel.Stack.Run
import TapTunnel.Socket.SplitDrop
import TapTunnel.Stack.Spec
import TapTunnel.Stack.Effect
import TapTunnel.Stack.Ownership
import TapTunnel.Stack.StepCases
import TapTunnel.Stack.HandleSafety
import TapTunnel.Stack.AddIp
import TapTunnel.Stack.AddrList
import TapTunnel.Stack.ListenConflict
import TapTunnel.Stack.UdpPump
import TapTunnel.Stack.Ports
import TapTunnel.Stack.UdpPart
import TapTunnel.Stack.UdpFamily
import TapTunnel.Stack.UdpExclusive
import TapTunnel.Stack.UdpDelivery
import TapTunnel.Stack.UdpAccounting
import TapTunnel.Stack.Entries
import TapTunnel.Stack.AnswersOnce
import TapTunnel.Stack.Connecting
import TapTunnel.Stack.SentBytes
import TapTunnel.Stack.WritePath
import TapTunnel.Stack.EndOfStream
import TapTunnel.Stack.CloseLoss
import TapTunnel.Stack.Requests
import TapTunnel.Stack.Accept
import TapTunnel.Stack.ConnectDone
import TapTunnel.Stack.AcceptCancel
import TapTunnel.Stack.Backlog
import TapTunnel.Stack.ListenerClose
import TapTunnel.Stack.CloseFrame
import TapTunnel.Stack.Reclaim
import TapTunnel.Stack.History
import TapTunnel.Stack.ReadPath
import TapTunnel.Stack.HalfClose
import TapTunnel.Ipc.Protocol
import TapTunnel.Ipc.Writer
import TapTunnel.Ipc.WriterSpec
import TapTunnel.Ipc.DataPath
import TapTunnel.Ipc.Link
import TapTunnel.Ipc.RoundTrip
import TapTunnel.Ipc.WriteFailure
import TapTunnel.Ipc.ReaderSync
import TapTunnel.Ipc.MessageSize
import TapTunnel.Ipc.Commands
import TapTunnel.Ipc.Controls
import TapTunnel.Ipc.Callers
import TapTunnel.Ipc.Matching
import TapTunnel.Ipc.CallMoves
import TapTunnel.Ipc.Json
import TapTunnel.Ipc.Correlation
import TapTunnel.Ipc.DeadProxy
import TapTunnel.Ipc.PendingMap
import TapTunnel.Ipc.Relay
import TapTunnel.Ipc.Progress
import TapTunnel.Handshake.Config
import TapTunnel.Handshake.Exchange
import TapTunnel.Handshake.Reference
import TapTunnel.Handshake.ConfigReaders
import TapTunnel.Handshake.CommandLine
import TapTunnel.Ipc.ProcNetDev
import TapTunnel.Stack.PendingOrder
import TapTunnel.Handshake.Agreement
import TapTunnel.Framework.Settling
import TapTunnel.Framework.Simulation
import TapTunnel.Ipc.BookMoves
import TapTunnel.Ipc.RelayWork
import TapTunnel.Ipc.Quiescence
import TapTunnel.Ipc.LinkMoves
import TapTunnel.Ipc.Wire
import TapTunnel.Ipc.FrameDelivery
import TapTunnel.Handshake.Session
import TapTunnel.Ipc.Routes
import TapTunnel.Ipc.RouteOrder
import TapTunnel.Framework.Holders
import TapTunnel.Stack.TcpPart
import TapTunnel.Socket.Drain
import TapTunnel.Stack.TaskEnd
import TapTunnel.Stack.Buffers
import TapTunnel.Stack.Shutdown
import TapTunnel.Tunnel.Close
import TapTunnel.Stack.ListenPorts
import TapTunnel.Stack.Replies
import TapTunnel.Framework.Grants
import TapTunnel.Stack.Isolation
import TapTunnel.Stack.PassProgress
