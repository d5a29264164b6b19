import KZEvent.Core.CachedInterest
import KZEvent.Core.CloseOnce
import KZEvent.Core.DescriptorLife
import KZEvent.Core.DispatchSafety
import KZEvent.Core.Errno
import KZEvent.Core.EventLoop
import KZEvent.Core.EventLoopLife
import KZEvent.Core.EventLoopRun
import KZEvent.Core.EventTable
import KZEvent.Core.EventType
import KZEvent.Core.Executors
import KZEvent.Core.Lifecycle
import KZEvent.Core.Loop
import KZEvent.Core.Restart
import KZEvent.Core.StartCalls
import KZEvent.Core.StartReturns
import KZEvent.Core.StopWakes
import KZEvent.Core.TableAgreement
import KZEvent.Core.TaskQueues
import KZEvent.Core.Withdrawal
import KZEvent.Foundation.ByteOrder
import KZEvent.Foundation.DoubleBuffer
import KZEvent.Foundation.Drain
import KZEvent.Foundation.Fifo
import KZEvent.Foundation.Flags
import KZEvent.Foundation.Halving
import KZEvent.Foundation.HashTable
import KZEvent.Foundation.Incarnation
import KZEvent.Foundation.Periodic
import KZEvent.Foundation.Places
import KZEvent.Foundation.PrefixFraming
import KZEvent.Foundation.PriorityQueue
import KZEvent.Foundation.Run
import KZEvent.Foundation.SharedBuffer
import KZEvent.Foundation.Spacing
import KZEvent.Foundation.Transducer
import KZEvent.Foundation.While
import KZEvent.Foundation.Window
import KZEvent.Log.LogManager
import KZEvent.Net.AddrCodec
import KZEvent.Net.AddrKey
import KZEvent.Net.Attention
import KZEvent.Net.ChannelFactory
import KZEvent.Net.ConnectInterleaving
import KZEvent.Net.ConnectOutcome
import KZEvent.Net.ConnectState
import KZEvent.Net.Connection
import KZEvent.Net.EdgeDrain
import KZEvent.Net.Effort
import KZEvent.Net.EffortSpent
import KZEvent.Net.HandlerAgreement
import KZEvent.Net.HandlerFailures
import KZEvent.Net.HandlerOutcome
import KZEvent.Net.InOrder
import KZEvent.Net.InetAddr
import KZEvent.Net.KernelAddr
import KZEvent.Net.LengthPrefix
import KZEvent.Net.NoStall
import KZEvent.Net.OwnerLifetime
import KZEvent.Net.PostedTasks
import KZEvent.Net.ReceiveFraming
import KZEvent.Net.Rest
import KZEvent.Net.ScatteredRead
import KZEvent.Net.SendOrder
import KZEvent.Net.Service
import KZEvent.Net.ServiceRest
import KZEvent.Net.SessionTable
import KZEvent.Net.SharedLoop
import KZEvent.Net.SharedRest
import KZEvent.Net.SocketEnd
import KZEvent.Net.SplitSafety
import KZEvent.Net.StartStop
import KZEvent.Net.StopFinal
import KZEvent.Net.StreamClient
import KZEvent.Net.StreamHandler
import KZEvent.Net.StreamIo
import KZEvent.Net.StreamServer
import KZEvent.Net.StreamSession
import KZEvent.Net.Tended
import KZEvent.Net.TerminalNotice
import KZEvent.Net.Traffic
import KZEvent.Net.TrafficGrowth
import KZEvent.Net.UdpClient
import KZEvent.Net.UdpConservation
import KZEvent.Net.UdpExchange
import KZEvent.Net.UdpExpiry
import KZEvent.Net.UdpIntegrity
import KZEvent.Net.UdpReplies
import KZEvent.Net.UdpRouting
import KZEvent.Net.UdpScan
import KZEvent.Net.UdpServer
import KZEvent.Net.UdpSessions
import KZEvent.Net.UnixSocket
import KZEvent.StreamBuffer.Basic
import KZEvent.StreamBuffer.Bound
import KZEvent.StreamBuffer.Fifo
import KZEvent.StreamBuffer.Shrink
import KZEvent.Timers.Alarm
import KZEvent.Timers.Cadence
import KZEvent.Timers.CancelSet
import KZEvent.Timers.Changes
import KZEvent.Timers.Chrono64
import KZEvent.Timers.DispatchRuns
import KZEvent.Timers.DueOrder
import KZEvent.Timers.ExpiryLoop
import KZEvent.Timers.NeverEarly
import KZEvent.Timers.Punctual
import KZEvent.Timers.Timer
import KZEvent.Timers.TimerIds
