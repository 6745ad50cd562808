import Rperf3.Library.Arrivals
import Rperf3.Library.CounterDiff
import Rperf3.Library.Decimal
import Rperf3.Library.Faults
import Rperf3.Library.Framing
import Rperf3.Library.Guarded
import Rperf3.Library.JsonCodec
import Rperf3.Library.KeyedFold
import Rperf3.Library.LittleEndian
import Rperf3.Library.LockScript
import Rperf3.Library.LossyWire
import Rperf3.Library.Lts
import Rperf3.Library.Pipeline
import Rperf3.Library.Segments
import Rperf3.Library.SeqGap
import Rperf3.Library.SeqWrap
import Rperf3.Library.SharedCounter
import Rperf3.Library.SharedRun
import Rperf3.Library.SlidingWindow
import Rperf3.Library.Smoothing
import Rperf3.Primitive
import Rperf3.Protocol
import Rperf3.Config
import Rperf3.RateArguments
import Rperf3.UdpSetup
import Rperf3.Measurements
import Rperf3.UdpArrivals
import Rperf3.UdpJitter
import Rperf3.StreamLookup
import Rperf3.CollectorThreads
import Rperf3.CollectorSnapshot
import Rperf3.DetailedResults
import Rperf3.DetailedJson
import Rperf3.CompactJson
import Rperf3.MessageJson
import Rperf3.IntervalBuffer
import Rperf3.CollectorLocks
import Rperf3.TokenBucket
import Rperf3.TokenBucketWait
import Rperf3.TokenBucketCredit
import Rperf3.OneWayReceive
import Rperf3.OneWayAccounting
import Rperf3.OneWaySend
import Rperf3.OneWaySingles
import Rperf3.OneWayWrap
import Rperf3.OneWayReceivers
import Rperf3.UdpPacket
import Rperf3.TimestampClock
import Rperf3.BufferPool
import Rperf3.BatchSocket
import Rperf3.BatchResend
import Rperf3.SockAddr
import Rperf3.RecvBatch
import Rperf3.RecvMmsg
import Rperf3.DataLoop
import Rperf3.UdpSend
import Rperf3.OneWayClient
import Rperf3.OneWayJitter
import Rperf3.ClientLoops
import Rperf3.ClientRun
import Rperf3.OneWayParallel
import Rperf3.OneWaySendFaults
import Rperf3.ReporterTask
import Rperf3.UdpListener
import Rperf3.UdpUpload
import Rperf3.UdpDownload
import Rperf3.LimitedSend
import Rperf3.MultiWorker
import Rperf3.MultiPort
import Rperf3.WorkerLines
import Rperf3.WorkersLoss
import Rperf3.ServerLoops
import Rperf3.ServerPacing
import Rperf3.PacingDrift
import Rperf3.ServerSessions
import Rperf3.IntervalPartition
import Rperf3.Retransmits
import Rperf3.Joint.Control
import Rperf3.Joint.Machine
import Rperf3.Joint.Rules
import Rperf3.Joint.Handshake
import Rperf3.Joint.Deadlock
import Rperf3.Joint.Completion
import Rperf3.Joint.Ready
import Rperf3.Joint.Sessions
import Rperf3.Joint.TcpSessions
import Rperf3.Joint.UdpSessions
import Rperf3.Joint.TcpFrames
import Rperf3.Joint.TcpBytes
import Rperf3.Joint.AnyPeer
