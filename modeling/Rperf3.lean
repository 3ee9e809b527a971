import Rperf3.Lib.Transition
import Rperf3.Lib.Table
import Rperf3.Lib.Pool
import Rperf3.Lib.Effect
import Rperf3.Lib.Fifo
import Rperf3.Lib.BigEndian
import Rperf3.Lib.GapTally
import Rperf3.Lib.ShortIO
import Rperf3.Common.Wire
import Rperf3.Common.Framing
import Rperf3.Common.UnitLog
import Rperf3.Common.Config
import Rperf3.Common.Auth
import Rperf3.Common.Cookie
import Rperf3.Common.UdpHeader
import Rperf3.Common.Stream
import Rperf3.Common.TcpStream
import Rperf3.Common.UdpSession
import Rperf3.Common.UdpAccounting
import Rperf3.Common.UdpSequence
import Rperf3.Lib.VariationMeter
import Rperf3.Common.UdpJitter
import Rperf3.Client.Streams
import Rperf3.Client.Loop
import Rperf3.Client.Receipts
import Rperf3.Client.Program
import Rperf3.Client.Refinement
import Rperf3.Client.Exit
import Rperf3.Server.Options
import Rperf3.Server.Session
import Rperf3.Server.AuthGate
import Rperf3.Server.AcceptStreams
import Rperf3.Server.AcceptLoop
import Rperf3.Server.SlotRelease
import Rperf3.Server.Demux
import Rperf3.Server.DemuxRouting
import Rperf3.Server.Replay
import Rperf3.Server.StreamReader
import Rperf3.Server.TcpConservation
import Rperf3.Server.ReadDeadline
import Rperf3.Server.UdpLossless
import Rperf3.Server.UdpLoss
import Rperf3.Server.UdpReverse
import Rperf3.Server.ReceiverOverflow
import Rperf3.Server.UdpRegistration
import Rperf3.Server.StreamCount
import Rperf3.Protocol.Script
import Rperf3.Protocol.ServerConforms
import Rperf3.Protocol.Net
import Rperf3.Protocol.Deadlock
import Rperf3.Protocol.TornFrames
import Rperf3.Protocol.Truncation
import Rperf3.Common.Pacing
import Rperf3.Lib.Turns
import Rperf3.Lib.WindowTally
import Rperf3.Common.Interval
import Rperf3.Transfer.DataLoop
import Rperf3.Transfer.Loops
import Rperf3.Transfer.Untimed
import Rperf3.Transfer.OmitWindow
import Rperf3.Transfer.IntervalRows
import Rperf3.Transfer.PacedSend
import Rperf3.Transfer.SenderPanics
import Rperf3.Transfer.SendLimits
import Rperf3.Cli
import Rperf3.Lib.Numeral
import Rperf3.Common.Numerals
import Rperf3.Common.AuthToken
import Rperf3.Lib.Gather
import Rperf3.Common.AuthUsers
import Rperf3.Lib.FieldCodec
import Rperf3.Common.OptionsJson
import Rperf3.Client.StreamThreads
import Rperf3.Client.Summary
import Rperf3.Server.Daemon
import Rperf3.Common.Cpu
import Rperf3.Protocol.ByteChannel
import Rperf3.Protocol.ByteNet
import Rperf3.Protocol.ByteRefinement
import Rperf3.Protocol.History
import Rperf3.Protocol.Completion
import Rperf3.Common.AuthKeys
import Rperf3.Server.Logins
import Rperf3.Server.StartUp
import Rperf3.Lib.Overlap
import Rperf3.Server.AuthTiming
import Rperf3.Client.Conduct
import Rperf3.Server.Conduct
import Rperf3.Common.UdpGrace
import Rperf3.Transfer.PaceFloor
import Rperf3.Server.Abandoned
import Rperf3.Server.ThreadBound
import Rperf3.Server.TransferRules
