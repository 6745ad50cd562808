import Rperf3.Library.JsonCodec
import Rperf3.DetailedResults

/-!
# The detailed results as JSON (`measurements.rs:73-545`)

What the derived and the written implementations of `Serialize` and
`Deserialize` do, on JSON values. A type is read from an object by the names of
its fields; `IntervalData` and `TestEndInfo` are untagged, with the TCP variant
first.
-/

namespace Rperf3

/-! ### Integers -/

namespace Serde

def u64 (x : UInt64) : Json := .int x.toNat
def asU64 (j : Json) : Option UInt64 := (j.asBits 64).map UInt64.ofNat
def u32 (x : UInt32) : Json := .int x.toNat
def asU32 (j : Json) : Option UInt32 := (j.asBits 32).map UInt32.ofNat
def u16 (x : UInt16) : Json := .int x.toNat
def asU16 (j : Json) : Option UInt16 := (j.asBits 16).map UInt16.ofNat
def nat (n : ℕ) : Json := .int n

@[simp] theorem asU64_u64 (x : UInt64) : asU64 (u64 x) = some x := by
  simp [asU64, u64, Json.asBits_int x.toNat_lt]

@[simp] theorem asU32_u32 (x : UInt32) : asU32 (u32 x) = some x := by
  simp [asU32, u32, Json.asBits_int x.toNat_lt]

@[simp] theorem asU16_u16 (x : UInt16) : asU16 (u16 x) = some x := by
  simp [asU16, u16, Json.asBits_int x.toNat_lt]

@[simp] theorem asNat_nat (n : ℕ) : (nat n).asNat = some n := Json.asNat_int n

@[simp] theorem asOption_u64 (o : Option UInt64) :
    (Json.ofOption u64 o).asOption asU64 = some o :=
  Json.asOption_ofOption asU64_u64 (fun _ h => nomatch h) o

@[simp] theorem asOption_u64_some (x : UInt64) : (u64 x).asOption asU64 = some (some x) :=
  asOption_u64 (some x)

@[simp] theorem asOption_str_some (x : String) : (Json.str x).asOption Json.asStr = some (some x) :=
  rfl

@[simp] theorem asOption_u32 (o : Option UInt32) :
    (Json.ofOption u32 o).asOption asU32 = some o :=
  Json.asOption_ofOption asU32_u32 (fun _ h => nomatch h) o

@[simp] theorem asOption_int (o : Option ℤ) :
    (Json.ofOption Json.int o).asOption Json.asInt = some o :=
  Json.asOption_ofOption Json.asInt_int (fun _ h => nomatch h) o

end Serde

open Serde

/-! ### TCP statistics (`measurements.rs:158-250`) -/

namespace TcpStats

def sndCwndPresent : UInt8 := (1 : UInt8) <<< 0
def rttPresent : UInt8 := (1 : UInt8) <<< 1
def rttvarPresent : UInt8 := (1 : UInt8) <<< 2
def pmtuPresent : UInt8 := (1 : UInt8) <<< 3

/-- A value is written if its flag is set, else null. -/
def ifPresent (flags flag : UInt8) (value : UInt64) : Json :=
  if flags &&& flag ≠ 0 then u64 value else .null

/-- The fields; the struct is flattened into the one that holds it. -/
def fields (s : TcpStats) : List (String × Json) :=
  [("retransmits", u64 s.retransmits),
    ("snd_cwnd", ifPresent s.flags sndCwndPresent s.sndCwnd),
    ("rtt", ifPresent s.flags rttPresent s.rtt),
    ("rttvar", ifPresent s.flags rttvarPresent s.rttvar),
    ("pmtu", ifPresent s.flags pmtuPresent s.pmtu)]

structure Dto where
  retransmits : UInt64
  sndCwnd : Option UInt64
  rtt : Option UInt64
  rttvar : Option UInt64
  pmtu : Option UInt64

def Dto.deserialize (j : Json) : Option Dto := do
  let retransmits ← j.defaulted asU64 0 "retransmits"
  let sndCwnd ← j.optional asU64 "snd_cwnd"
  let rtt ← j.optional asU64 "rtt"
  let rttvar ← j.optional asU64 "rttvar"
  let pmtu ← j.optional asU64 "pmtu"
  return { retransmits, sndCwnd, rtt, rttvar, pmtu }

def flagOf (flag : UInt8) (value : Option UInt64) : UInt8 := if value.isSome then flag else 0

/-- `From<TcpStatsDto>`. -/
def ofDto (dto : Dto) : TcpStats :=
  { retransmits := dto.retransmits
    sndCwnd := dto.sndCwnd.getD 0
    rtt := dto.rtt.getD 0
    rttvar := dto.rttvar.getD 0
    pmtu := dto.pmtu.getD 0
    flags := flagOf sndCwndPresent dto.sndCwnd ||| flagOf rttPresent dto.rtt |||
      flagOf rttvarPresent dto.rttvar ||| flagOf pmtuPresent dto.pmtu }

def deserialize (j : Json) : Option TcpStats := (Dto.deserialize j).map ofDto

end TcpStats

/-! ### Intervals (`measurements.rs:324-355`, `486-500`) -/

namespace DetailedIntervalStats

def serialize (s : DetailedIntervalStats) : Json :=
  .obj ([("socket", .ofOption .int s.socket), ("start", .float s.start), ("end", .float s.finish),
      ("seconds", .float s.seconds), ("bytes", u64 s.bytes),
      ("bits_per_second", .float s.bitsPerSecond)] ++
    s.tcpStats.fields ++ Json.shown u64 "packets" s.packets ++
    [("omitted", .bool s.omitted), ("sender", .bool s.sender)])

def deserialize (j : Json) : Option DetailedIntervalStats := do
  let socket ← j.optional Json.asInt "socket"
  let start ← j.required Json.asFloat "start"
  let finish ← j.required Json.asFloat "end"
  let seconds ← j.required Json.asFloat "seconds"
  let bytes ← j.required asU64 "bytes"
  let bitsPerSecond ← j.required Json.asFloat "bits_per_second"
  let tcpStats ← TcpStats.deserialize j
  let packets ← j.optional asU64 "packets"
  let omitted ← j.required Json.asBool "omitted"
  let sender ← j.required Json.asBool "sender"
  return { socket, start, finish, seconds, bytes, bitsPerSecond, tcpStats, packets, omitted, sender }

end DetailedIntervalStats

namespace UdpIntervalStats

def serialize (s : UdpIntervalStats) : Json :=
  .obj [("socket", .ofOption .int s.socket), ("start", .float s.start), ("end", .float s.finish),
    ("seconds", .float s.seconds), ("bytes", u64 s.bytes),
    ("bits_per_second", .float s.bitsPerSecond), ("packets", u64 s.packets),
    ("omitted", .bool s.omitted), ("sender", .bool s.sender)]

def deserialize (j : Json) : Option UdpIntervalStats := do
  let socket ← j.optional Json.asInt "socket"
  let start ← j.required Json.asFloat "start"
  let finish ← j.required Json.asFloat "end"
  let seconds ← j.required Json.asFloat "seconds"
  let bytes ← j.required asU64 "bytes"
  let bitsPerSecond ← j.required Json.asFloat "bits_per_second"
  let packets ← j.required asU64 "packets"
  let omitted ← j.required Json.asBool "omitted"
  let sender ← j.required Json.asBool "sender"
  return { socket, start, finish, seconds, bytes, bitsPerSecond, packets, omitted, sender }

end UdpIntervalStats

namespace IntervalData

def serialize : IntervalData → Json
  | .tcp streams sum =>
    .obj [("streams", .arr (streams.map DetailedIntervalStats.serialize)), ("sum", sum.serialize)]
  | .udp streams sum =>
    .obj [("streams", .arr (streams.map UdpIntervalStats.serialize)), ("sum", sum.serialize)]

def deserializeTcp (j : Json) : Option IntervalData := do
  let streams ← j.required (Json.asList DetailedIntervalStats.deserialize) "streams"
  let sum ← j.required DetailedIntervalStats.deserialize "sum"
  return .tcp streams sum

def deserializeUdp (j : Json) : Option IntervalData := do
  let streams ← j.required (Json.asList UdpIntervalStats.deserialize) "streams"
  let sum ← j.required UdpIntervalStats.deserialize "sum"
  return .udp streams sum

def deserialize : Json → Option IntervalData := Json.untagged [deserializeTcp, deserializeUdp]

end IntervalData

/-! ### Summaries (`measurements.rs:361-440`, `507-545`) -/

namespace StreamSummary

def serialize (s : StreamSummary) : Json :=
  .obj [("socket", .ofOption .int s.socket), ("start", .float s.start), ("end", .float s.finish),
    ("seconds", .float s.seconds), ("bytes", u64 s.bytes),
    ("bits_per_second", .float s.bitsPerSecond), ("retransmits", u64 s.retransmits),
    ("max_snd_cwnd", .ofOption u64 s.maxSndCwnd), ("max_rtt", .ofOption u64 s.maxRtt),
    ("min_rtt", .ofOption u64 s.minRtt), ("mean_rtt", .ofOption u64 s.meanRtt),
    ("sender", .bool s.sender)]

def deserialize (j : Json) : Option StreamSummary := do
  let socket ← j.optional Json.asInt "socket"
  let start ← j.required Json.asFloat "start"
  let finish ← j.required Json.asFloat "end"
  let seconds ← j.required Json.asFloat "seconds"
  let bytes ← j.required asU64 "bytes"
  let bitsPerSecond ← j.required Json.asFloat "bits_per_second"
  let retransmits ← j.required asU64 "retransmits"
  let maxSndCwnd ← j.optional asU64 "max_snd_cwnd"
  let maxRtt ← j.optional asU64 "max_rtt"
  let minRtt ← j.optional asU64 "min_rtt"
  let meanRtt ← j.optional asU64 "mean_rtt"
  let sender ← j.required Json.asBool "sender"
  return { socket, start, finish, seconds, bytes, bitsPerSecond, retransmits, maxSndCwnd, maxRtt,
           minRtt, meanRtt, sender }

end StreamSummary

namespace UdpStreamSummary

def serialize (s : UdpStreamSummary) : Json :=
  .obj ([("socket", .ofOption .int s.socket), ("start", .float s.start), ("end", .float s.finish),
      ("seconds", .float s.seconds), ("bytes", u64 s.bytes),
      ("bits_per_second", .float s.bitsPerSecond), ("jitter_ms", .float s.jitterMs),
      ("lost_packets", u64 s.lostPackets), ("packets", u64 s.packets),
      ("lost_percent", .float s.lostPercent)] ++
    Json.shown u64 "out_of_order" s.outOfOrder ++ [("sender", .bool s.sender)])

def deserialize (j : Json) : Option UdpStreamSummary := do
  let socket ← j.optional Json.asInt "socket"
  let start ← j.required Json.asFloat "start"
  let finish ← j.required Json.asFloat "end"
  let seconds ← j.required Json.asFloat "seconds"
  let bytes ← j.required asU64 "bytes"
  let bitsPerSecond ← j.required Json.asFloat "bits_per_second"
  let jitterMs ← j.required Json.asFloat "jitter_ms"
  let lostPackets ← j.required asU64 "lost_packets"
  let packets ← j.required asU64 "packets"
  let lostPercent ← j.required Json.asFloat "lost_percent"
  let outOfOrder ← j.optional asU64 "out_of_order"
  let sender ← j.required Json.asBool "sender"
  return { socket, start, finish, seconds, bytes, bitsPerSecond, jitterMs, lostPackets, packets,
           lostPercent, outOfOrder, sender }

end UdpStreamSummary

namespace UdpSum

def serialize (s : UdpSum) : Json :=
  .obj [("start", .float s.start), ("end", .float s.finish), ("seconds", .float s.seconds),
    ("bytes", u64 s.bytes), ("bits_per_second", .float s.bitsPerSecond),
    ("jitter_ms", .float s.jitterMs), ("lost_packets", u64 s.lostPackets),
    ("packets", u64 s.packets), ("lost_percent", .float s.lostPercent),
    ("sender", .bool s.sender)]

def deserialize (j : Json) : Option UdpSum := do
  let start ← j.required Json.asFloat "start"
  let finish ← j.required Json.asFloat "end"
  let seconds ← j.required Json.asFloat "seconds"
  let bytes ← j.required asU64 "bytes"
  let bitsPerSecond ← j.required Json.asFloat "bits_per_second"
  let jitterMs ← j.required Json.asFloat "jitter_ms"
  let lostPackets ← j.required asU64 "lost_packets"
  let packets ← j.required asU64 "packets"
  let lostPercent ← j.required Json.asFloat "lost_percent"
  let sender ← j.required Json.asBool "sender"
  return { start, finish, seconds, bytes, bitsPerSecond, jitterMs, lostPackets, packets,
           lostPercent, sender }

end UdpSum

namespace CpuUtilization

def serialize (c : CpuUtilization) : Json :=
  .obj [("host_total", .float c.hostTotal), ("host_user", .float c.hostUser),
    ("host_system", .float c.hostSystem), ("remote_total", .float c.remoteTotal),
    ("remote_user", .float c.remoteUser), ("remote_system", .float c.remoteSystem)]

def deserialize (j : Json) : Option CpuUtilization := do
  let hostTotal ← j.required Json.asFloat "host_total"
  let hostUser ← j.required Json.asFloat "host_user"
  let hostSystem ← j.required Json.asFloat "host_system"
  let remoteTotal ← j.required Json.asFloat "remote_total"
  let remoteUser ← j.required Json.asFloat "remote_user"
  let remoteSystem ← j.required Json.asFloat "remote_system"
  return { hostTotal, hostUser, hostSystem, remoteTotal, remoteUser, remoteSystem }

end CpuUtilization

namespace EndStreamInfo

def serialize (s : EndStreamInfo) : Json :=
  .obj [("sender", s.sender.serialize), ("receiver", s.receiver.serialize)]

def deserialize (j : Json) : Option EndStreamInfo := do
  let sender ← j.required StreamSummary.deserialize "sender"
  let receiver ← j.required StreamSummary.deserialize "receiver"
  return { sender, receiver }

end EndStreamInfo

namespace UdpEndStreamInfo

def serialize (s : UdpEndStreamInfo) : Json := .obj [("udp", s.udp.serialize)]

def deserialize (j : Json) : Option UdpEndStreamInfo := do
  let udp ← j.required UdpStreamSummary.deserialize "udp"
  return { udp }

end UdpEndStreamInfo

namespace TestEndInfo

def serialize : TestEndInfo → Json
  | .tcp streams sumSent sumReceived cpu senderCongestion receiverCongestion =>
    .obj ([("streams", .arr (streams.map EndStreamInfo.serialize)),
        ("sum_sent", sumSent.serialize), ("sum_received", sumReceived.serialize)] ++
      Json.shown CpuUtilization.serialize "cpu_utilization_percent" cpu ++
      Json.shown .str "sender_tcp_congestion" senderCongestion ++
      Json.shown .str "receiver_tcp_congestion" receiverCongestion)
  | .udp streams sum cpu =>
    .obj ([("streams", .arr (streams.map UdpEndStreamInfo.serialize)), ("sum", sum.serialize)] ++
      Json.shown CpuUtilization.serialize "cpu_utilization_percent" cpu)

def deserializeTcp (j : Json) : Option TestEndInfo := do
  let streams ← j.required (Json.asList EndStreamInfo.deserialize) "streams"
  let sumSent ← j.required StreamSummary.deserialize "sum_sent"
  let sumReceived ← j.required StreamSummary.deserialize "sum_received"
  let cpu ← j.optional CpuUtilization.deserialize "cpu_utilization_percent"
  let senderCongestion ← j.optional Json.asStr "sender_tcp_congestion"
  let receiverCongestion ← j.optional Json.asStr "receiver_tcp_congestion"
  return .tcp streams sumSent sumReceived cpu senderCongestion receiverCongestion

def deserializeUdp (j : Json) : Option TestEndInfo := do
  let streams ← j.required (Json.asList UdpEndStreamInfo.deserialize) "streams"
  let sum ← j.required UdpSum.deserialize "sum"
  let cpu ← j.optional CpuUtilization.deserialize "cpu_utilization_percent"
  return .udp streams sum cpu

def deserialize : Json → Option TestEndInfo := Json.untagged [deserializeTcp, deserializeUdp]

end TestEndInfo

/-! ### The start of the test and the report (`measurements.rs:73-100`, `440-485`) -/

namespace ConnectionInfo

def serialize (c : ConnectionInfo) : Json :=
  .obj [("socket_fd", .ofOption .int c.socketFd), ("local_host", .str c.localHost),
    ("local_port", u16 c.localPort), ("remote_host", .str c.remoteHost),
    ("remote_port", u16 c.remotePort)]

def deserialize (j : Json) : Option ConnectionInfo := do
  let socketFd ← j.optional Json.asInt "socket_fd"
  let localHost ← j.required Json.asStr "local_host"
  let localPort ← j.required asU16 "local_port"
  let remoteHost ← j.required Json.asStr "remote_host"
  let remotePort ← j.required asU16 "remote_port"
  return { socketFd, localHost, localPort, remoteHost, remotePort }

end ConnectionInfo

namespace TestConfig

def serialize (c : TestConfig) : Json :=
  .obj [("protocol", .str c.protocol), ("num_streams", nat c.numStreams),
    ("blksize", nat c.blksize), ("omit", nat c.omitSecs), ("duration", nat c.duration),
    ("reverse", .bool c.reverse)]

def deserialize (j : Json) : Option TestConfig := do
  let protocol ← j.required Json.asStr "protocol"
  let numStreams ← j.required Json.asNat "num_streams"
  let blksize ← j.required Json.asNat "blksize"
  let omitSecs ← j.required Json.asNat "omit"
  let duration ← j.required Json.asNat "duration"
  let reverse ← j.required Json.asBool "reverse"
  return { protocol, numStreams, blksize, omitSecs, duration, reverse }

end TestConfig

namespace TimestampInfo

def serialize (t : TimestampInfo) : Json :=
  .obj [("time", .str t.time), ("timesecs", .int t.timesecs)]

def deserialize (j : Json) : Option TimestampInfo := do
  let time ← j.required Json.asStr "time"
  let timesecs ← j.required Json.asInt "timesecs"
  return { time, timesecs }

end TimestampInfo

namespace ConnectingTo

def serialize (c : ConnectingTo) : Json := .obj [("host", .str c.host), ("port", u16 c.port)]

def deserialize (j : Json) : Option ConnectingTo := do
  let host ← j.required Json.asStr "host"
  let port ← j.required asU16 "port"
  return { host, port }

end ConnectingTo

namespace TestStartInfo

def serialize (t : TestStartInfo) : Json :=
  .obj [("connected", .arr (t.connected.map ConnectionInfo.serialize)),
    ("version", .str t.version), ("system_info", .str t.systemInfo),
    ("timestamp", t.timestamp.serialize), ("connecting_to", t.connectingTo.serialize),
    ("cookie", .str t.cookie), ("tcp_mss_default", .ofOption u32 t.tcpMssDefault),
    ("sock_bufsize", u32 t.sockBufsize), ("sndbuf_actual", u32 t.sndbufActual),
    ("rcvbuf_actual", u32 t.rcvbufActual), ("test_start", t.testStart.serialize)]

def deserialize (j : Json) : Option TestStartInfo := do
  let connected ← j.required (Json.asList ConnectionInfo.deserialize) "connected"
  let version ← j.required Json.asStr "version"
  let systemInfo ← j.required Json.asStr "system_info"
  let timestamp ← j.required TimestampInfo.deserialize "timestamp"
  let connectingTo ← j.required ConnectingTo.deserialize "connecting_to"
  let cookie ← j.required Json.asStr "cookie"
  let tcpMssDefault ← j.optional asU32 "tcp_mss_default"
  let sockBufsize ← j.required asU32 "sock_bufsize"
  let sndbufActual ← j.required asU32 "sndbuf_actual"
  let rcvbufActual ← j.required asU32 "rcvbuf_actual"
  let testStart ← j.required TestConfig.deserialize "test_start"
  return { connected, version, systemInfo, timestamp, connectingTo, cookie, tcpMssDefault,
           sockBufsize, sndbufActual, rcvbufActual, testStart }

end TestStartInfo

namespace DetailedTestResults

def serialize (r : DetailedTestResults) : Json :=
  .obj [("start", r.start.serialize), ("intervals", .arr (r.intervals.map IntervalData.serialize)),
    ("end", r.finish.serialize)]

def deserialize (j : Json) : Option DetailedTestResults := do
  let start ← j.required TestStartInfo.deserialize "start"
  let intervals ← j.required (Json.asList IntervalData.deserialize) "intervals"
  let finish ← j.required TestEndInfo.deserialize "end"
  return { start, intervals, finish }

end DetailedTestResults

/-! ### Round trips of the records -/

@[simp] theorem streamSummary_roundtrip (s : StreamSummary) :
    StreamSummary.deserialize s.serialize = some s := by
  simp [StreamSummary.deserialize, StreamSummary.serialize]

@[simp] theorem udpStreamSummary_roundtrip (s : UdpStreamSummary) :
    UdpStreamSummary.deserialize s.serialize = some s := by
  cases hlate : s.outOfOrder with
  | none =>
    simp [UdpStreamSummary.deserialize, UdpStreamSummary.serialize, hlate]
    rw [← hlate]
  | some late =>
    simp [UdpStreamSummary.deserialize, UdpStreamSummary.serialize, hlate]
    rw [← hlate]

@[simp] theorem udpSum_roundtrip (s : UdpSum) : UdpSum.deserialize s.serialize = some s := by
  simp [UdpSum.deserialize, UdpSum.serialize]

@[simp] theorem cpuUtilization_roundtrip (c : CpuUtilization) :
    CpuUtilization.deserialize c.serialize = some c := by
  simp [CpuUtilization.deserialize, CpuUtilization.serialize]

@[simp] theorem endStreamInfo_roundtrip (s : EndStreamInfo) :
    EndStreamInfo.deserialize s.serialize = some s := by
  simp [EndStreamInfo.deserialize, EndStreamInfo.serialize]

@[simp] theorem udpEndStreamInfo_roundtrip (s : UdpEndStreamInfo) :
    UdpEndStreamInfo.deserialize s.serialize = some s := by
  simp [UdpEndStreamInfo.deserialize, UdpEndStreamInfo.serialize]

@[simp] theorem connectionInfo_roundtrip (c : ConnectionInfo) :
    ConnectionInfo.deserialize c.serialize = some c := by
  simp [ConnectionInfo.deserialize, ConnectionInfo.serialize]

@[simp] theorem testConfig_roundtrip (c : TestConfig) :
    TestConfig.deserialize c.serialize = some c := by
  simp [TestConfig.deserialize, TestConfig.serialize]

@[simp] theorem timestampInfo_roundtrip (t : TimestampInfo) :
    TimestampInfo.deserialize t.serialize = some t := by
  simp [TimestampInfo.deserialize, TimestampInfo.serialize]

@[simp] theorem connectingTo_roundtrip (c : ConnectingTo) :
    ConnectingTo.deserialize c.serialize = some c := by
  simp [ConnectingTo.deserialize, ConnectingTo.serialize]

@[simp] theorem testStartInfo_roundtrip (t : TestStartInfo) :
    TestStartInfo.deserialize t.serialize = some t := by
  simp [TestStartInfo.deserialize, TestStartInfo.serialize,
    Json.asList_roundtrip (fun a _ => connectionInfo_roundtrip a)]

/-! ### The untagged types -/

theorem asOption_cpu (c : CpuUtilization) :
    c.serialize.asOption CpuUtilization.deserialize = some (some c) :=
  Json.asOption_ofOption cpuUtilization_roundtrip (fun _ h => nomatch h) (some c)

theorem testEndInfo_tcp (streams : List EndStreamInfo) (sumSent sumReceived : StreamSummary)
    (cpu : Option CpuUtilization) (senderCongestion receiverCongestion : Option String) :
    TestEndInfo.deserializeTcp (TestEndInfo.serialize
        (.tcp streams sumSent sumReceived cpu senderCongestion receiverCongestion)) =
      some (.tcp streams sumSent sumReceived cpu senderCongestion receiverCongestion) := by
  cases cpu <;> cases senderCongestion <;> cases receiverCongestion <;>
    simp [TestEndInfo.deserializeTcp, TestEndInfo.serialize, asOption_cpu,
      Json.asList_roundtrip (fun a _ => endStreamInfo_roundtrip a)]

theorem testEndInfo_udp (streams : List UdpEndStreamInfo) (sum : UdpSum)
    (cpu : Option CpuUtilization) :
    TestEndInfo.deserializeTcp (TestEndInfo.serialize (.udp streams sum cpu)) = none ∧
      TestEndInfo.deserializeUdp (TestEndInfo.serialize (.udp streams sum cpu)) =
        some (.udp streams sum cpu) := by
  cases cpu <;>
    simp [TestEndInfo.deserializeTcp, TestEndInfo.deserializeUdp, TestEndInfo.serialize,
      asOption_cpu, Json.asList_roundtrip (fun a _ => udpEndStreamInfo_roundtrip a)]

/-- The TCP variant asks for `sum_sent`, which the UDP variant does not write. -/
theorem testEndInfo_roundtrip (e : TestEndInfo) : TestEndInfo.deserialize e.serialize = some e := by
  unfold TestEndInfo.deserialize Json.untagged
  cases e with
  | tcp streams sumSent sumReceived cpu senderCongestion receiverCongestion =>
    rw [List.findSome?_cons, testEndInfo_tcp]
  | udp streams sum cpu =>
    obtain ⟨htcp, hudp⟩ := testEndInfo_udp streams sum cpu
    rw [List.findSome?_cons, htcp, List.findSome?_cons, hudp]

theorem default_fields : TcpStats.default.fields = [("retransmits", u64 0), ("snd_cwnd", .null),
    ("rtt", .null), ("rttvar", .null), ("pmtu", .null)] := rfl

theorem ofDto_empty : TcpStats.ofDto ⟨0, none, none, none, none⟩ = TcpStats.default := rfl

theorem detailedIntervalStats_roundtrip (s : DetailedIntervalStats)
    (h : s.tcpStats = TcpStats.default) :
    DetailedIntervalStats.deserialize s.serialize = some s := by
  cases hpackets : s.packets with
  | none =>
    simp [DetailedIntervalStats.deserialize, DetailedIntervalStats.serialize, h, default_fields,
      TcpStats.deserialize, TcpStats.Dto.deserialize, hpackets]
    rw [ofDto_empty, ← h, ← hpackets]
  | some packets =>
    simp [DetailedIntervalStats.deserialize, DetailedIntervalStats.serialize, h, default_fields,
      TcpStats.deserialize, TcpStats.Dto.deserialize, hpackets]
    rw [ofDto_empty, ← h, ← hpackets]

/-- UDP statistics read as TCP statistics: the TCP fields may all be missing. -/
def UdpIntervalStats.asTcp (s : UdpIntervalStats) : DetailedIntervalStats :=
  { socket := s.socket
    start := s.start
    finish := s.finish
    seconds := s.seconds
    bytes := s.bytes
    bitsPerSecond := s.bitsPerSecond
    tcpStats := TcpStats.default
    packets := some s.packets
    omitted := s.omitted
    sender := s.sender }

theorem deserialize_asTcp (s : UdpIntervalStats) :
    DetailedIntervalStats.deserialize s.serialize = some s.asTcp := by
  simp [DetailedIntervalStats.deserialize, UdpIntervalStats.serialize, TcpStats.deserialize,
    TcpStats.Dto.deserialize, ofDto_empty, UdpIntervalStats.asTcp]

/-- What a reader takes an interval for. -/
def IntervalData.read : IntervalData → IntervalData
  | .tcp streams sum => .tcp streams sum
  | .udp streams sum => .tcp (streams.map UdpIntervalStats.asTcp) sum.asTcp

/-- No TCP statistics have been collected for the interval. -/
def IntervalData.Plain : IntervalData → Prop
  | .tcp streams sum =>
    (∀ s ∈ streams, s.tcpStats = TcpStats.default) ∧ sum.tcpStats = TcpStats.default
  | .udp _ _ => True

/-- Every interval is read by the TCP variant, which comes first. -/
theorem intervalData_read {d : IntervalData} (h : d.Plain) :
    IntervalData.deserialize d.serialize = some d.read := by
  have htcp : IntervalData.deserializeTcp d.serialize = some d.read := by
    cases d with
    | tcp streams sum =>
      have hstreams := Json.asList_roundtrip
        (fun s hs => detailedIntervalStats_roundtrip s (h.1 s hs))
      simp [IntervalData.deserializeTcp, IntervalData.serialize, IntervalData.read, hstreams,
        detailedIntervalStats_roundtrip sum h.2]
    | udp streams sum =>
      simp [IntervalData.deserializeTcp, IntervalData.serialize, IntervalData.read,
        Json.asList_encode (fun s _ => deserialize_asTcp s), deserialize_asTcp]
  unfold IntervalData.deserialize Json.untagged
  rw [List.findSome?_cons, htcp]

theorem detailedTestResults_read {r : DetailedTestResults} (h : ∀ d ∈ r.intervals, d.Plain) :
    DetailedTestResults.deserialize r.serialize =
      some { r with intervals := r.intervals.map IntervalData.read } := by
  have hintervals := Json.asList_encode (fun d hd => intervalData_read (h d hd))
  simp [DetailedTestResults.deserialize, DetailedTestResults.serialize, hintervals,
    testEndInfo_roundtrip]

/-! ### Reports of the collector -/

section Reports

variable (c : MeasurementsCollector) (env : HostEnv) (connectionInfo : Option ConnectionInfo)
  (systemInfo : Option SystemInfo) (testConfig : TestConfig)

theorem intervals_plain : ∀ d ∈
    (c.getDetailedResults env connectionInfo systemInfo testConfig).intervals, d.Plain := by
  intro d hd
  unfold MeasurementsCollector.getDetailedResults at hd
  dsimp only at hd
  split at hd
  · obtain ⟨interval, -, rfl⟩ := List.mem_map.mp hd
    trivial
  · obtain ⟨interval, -, rfl⟩ := List.mem_map.mp hd
    exact ⟨fun s hs => by rw [List.mem_singleton.mp hs], rfl⟩

theorem detailedResults_read :
    DetailedTestResults.deserialize
        (c.getDetailedResults env connectionInfo systemInfo testConfig).serialize =
      some { c.getDetailedResults env connectionInfo systemInfo testConfig with
        intervals := (c.getDetailedResults env connectionInfo systemInfo
          testConfig).intervals.map IntervalData.read } :=
  detailedTestResults_read (intervals_plain c env connectionInfo systemInfo testConfig)

theorem read_tcpIntervals (m : Measurements) :
    (MeasurementsCollector.buildTcpIntervals m connectionInfo).map IntervalData.read =
      MeasurementsCollector.buildTcpIntervals m connectionInfo := by
  unfold MeasurementsCollector.buildTcpIntervals
  rw [List.map_map]
  rfl

theorem read_udpIntervals (m : Measurements) :
    (MeasurementsCollector.buildUdpIntervals m connectionInfo).map IntervalData.read =
        MeasurementsCollector.buildUdpIntervals m connectionInfo ↔
      m.intervals.intervals = [] := by
  unfold MeasurementsCollector.buildUdpIntervals
  constructor
  · intro h
    cases hintervals : m.intervals.intervals with
    | nil => rfl
    | cons interval intervals =>
      rw [hintervals] at h
      exact nomatch (List.cons.inj h).1
  · intro h
    rw [h]
    rfl

theorem intervals_eq_iff {r : DetailedTestResults} {intervals : List IntervalData} :
    some { r with intervals := intervals } = some r ↔ intervals = r.intervals := by
  constructor
  · exact fun h => congrArg DetailedTestResults.intervals (Option.some.inj h)
  · intro h
    rw [h]

/-- A report is read back as it was written exactly when it is not about UDP or has no interval. -/
theorem detailedResults_roundtrip_iff :
    DetailedTestResults.deserialize
        (c.getDetailedResults env connectionInfo systemInfo testConfig).serialize =
        some (c.getDetailedResults env connectionInfo systemInfo testConfig) ↔
      isUdp testConfig.protocol = false ∨ c.inner.intervals.intervals = [] := by
  rw [detailedResults_read, intervals_eq_iff]
  cases hudp : isUdp testConfig.protocol with
  | false =>
    simp only [MeasurementsCollector.getDetailedResults, hudp, Bool.false_eq_true, if_false,
      true_or, iff_true]
    exact read_tcpIntervals ..
  | true =>
    simp only [MeasurementsCollector.getDetailedResults, hudp, if_true, Bool.true_eq_false,
      false_or]
    exact read_udpIntervals ..

end Reports

/-- A collector with one interval of a second. -/
def oneInterval : MeasurementsCollector :=
  MeasurementsCollector.new.addInterval ⟨0, 1000000000, 1250, 10000, 1⟩

/-- The interval of a UDP test comes back as one of a TCP test. -/
theorem udpInterval_readAsTcp :
    ¬ ∀ (c : MeasurementsCollector) (env : HostEnv) (connectionInfo : Option ConnectionInfo)
      (systemInfo : Option SystemInfo) (testConfig : TestConfig),
      DetailedTestResults.deserialize
        (c.getDetailedResults env connectionInfo systemInfo testConfig).serialize =
        some (c.getDetailedResults env connectionInfo systemInfo testConfig) := by
  intro h
  have hone := h oneInterval ⟨"linux", "x86_64", "", 0, 0⟩ none none
    ⟨"UDP", 1, 1250, 0, 1, false⟩
  rw [detailedResults_read, intervals_eq_iff] at hone
  exact absurd ((read_udpIntervals none oneInterval.inner).mp hone) (by decide)

end Rperf3
