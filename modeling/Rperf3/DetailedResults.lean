import Rperf3.Measurements

/-!
# Detailed results (`measurements.rs:1268-1544`)

`get_detailed_results` builds the JSON report from the locked record, while `get`
builds the text report from the atomic counters. The operating system, the clock
and the random cookie are read from `HostEnv`.
-/

namespace Rperf3

/-! ### The report (`measurements.rs:73-118`, `158-545`) -/

structure ConnectionInfo where
  socketFd : Option ℤ
  localHost : String
  localPort : UInt16
  remoteHost : String
  remotePort : UInt16
  deriving DecidableEq

structure TestConfig where
  protocol : String
  numStreams : ℕ
  blksize : ℕ
  omitSecs : ℕ
  duration : ℕ
  reverse : Bool
  deriving DecidableEq

structure SystemInfo where
  version : String
  systemInfo : String
  timestamp : ℤ
  timestampStr : String
  deriving DecidableEq

structure TcpStats where
  retransmits : UInt64
  sndCwnd : UInt64
  rtt : UInt64
  rttvar : UInt64
  pmtu : UInt64
  flags : UInt8
  deriving DecidableEq

def TcpStats.default : TcpStats := ⟨0, 0, 0, 0, 0, 0⟩

structure DetailedIntervalStats where
  socket : Option ℤ
  start : F64
  finish : F64
  seconds : F64
  bytes : UInt64
  bitsPerSecond : F64
  tcpStats : TcpStats
  packets : Option UInt64
  omitted : Bool
  sender : Bool
  deriving DecidableEq

structure UdpIntervalStats where
  socket : Option ℤ
  start : F64
  finish : F64
  seconds : F64
  bytes : UInt64
  bitsPerSecond : F64
  packets : UInt64
  omitted : Bool
  sender : Bool
  deriving DecidableEq

structure StreamSummary where
  socket : Option ℤ
  start : F64
  finish : F64
  seconds : F64
  bytes : UInt64
  bitsPerSecond : F64
  retransmits : UInt64
  maxSndCwnd : Option UInt64
  maxRtt : Option UInt64
  minRtt : Option UInt64
  meanRtt : Option UInt64
  sender : Bool
  deriving DecidableEq

structure UdpStreamSummary where
  socket : Option ℤ
  start : F64
  finish : F64
  seconds : F64
  bytes : UInt64
  bitsPerSecond : F64
  jitterMs : F64
  lostPackets : UInt64
  packets : UInt64
  lostPercent : F64
  outOfOrder : Option UInt64
  sender : Bool
  deriving DecidableEq

structure UdpSum where
  start : F64
  finish : F64
  seconds : F64
  bytes : UInt64
  bitsPerSecond : F64
  jitterMs : F64
  lostPackets : UInt64
  packets : UInt64
  lostPercent : F64
  sender : Bool
  deriving DecidableEq

structure CpuUtilization where
  hostTotal : F64
  hostUser : F64
  hostSystem : F64
  remoteTotal : F64
  remoteUser : F64
  remoteSystem : F64
  deriving DecidableEq

structure EndStreamInfo where
  sender : StreamSummary
  receiver : StreamSummary
  deriving DecidableEq

structure UdpEndStreamInfo where
  udp : UdpStreamSummary
  deriving DecidableEq

inductive IntervalData where
  | tcp (streams : List DetailedIntervalStats) (sum : DetailedIntervalStats)
  | udp (streams : List UdpIntervalStats) (sum : UdpIntervalStats)
  deriving DecidableEq

inductive TestEndInfo where
  | tcp (streams : List EndStreamInfo) (sumSent sumReceived : StreamSummary)
      (cpuUtilizationPercent : Option CpuUtilization)
      (senderTcpCongestion receiverTcpCongestion : Option String)
  | udp (streams : List UdpEndStreamInfo) (sum : UdpSum)
      (cpuUtilizationPercent : Option CpuUtilization)
  deriving DecidableEq

structure TimestampInfo where
  time : String
  timesecs : ℤ
  deriving DecidableEq

structure ConnectingTo where
  host : String
  port : UInt16
  deriving DecidableEq

structure TestStartInfo where
  connected : List ConnectionInfo
  version : String
  systemInfo : String
  timestamp : TimestampInfo
  connectingTo : ConnectingTo
  cookie : String
  tcpMssDefault : Option UInt32
  sockBufsize : UInt32
  sndbufActual : UInt32
  rcvbufActual : UInt32
  testStart : TestConfig
  deriving DecidableEq

structure DetailedTestResults where
  start : TestStartInfo
  intervals : List IntervalData
  finish : TestEndInfo
  deriving DecidableEq

/-- What is read from outside the program: `std::env::consts`, the wall clock and the random
`u128` of the cookie. -/
structure HostEnv where
  os : String
  arch : String
  nowRfc2822 : String
  nowTimestamp : ℤ
  random : ℕ

def cargoPkgVersion : String := "0.6.1"

/-- `protocol.to_uppercase() == "UDP"`; no other character has U, D or P as its upper case. -/
def isUdp (protocol : String) : Bool := protocol.toList.map Char.toUpper == ['U', 'D', 'P']

/-! ### Building the report -/

namespace MeasurementsCollector

def startInfo (env : HostEnv) (connectionInfo : Option ConnectionInfo)
    (systemInfo : Option SystemInfo) (testConfig : TestConfig) : TestStartInfo :=
  let udp := isUdp testConfig.protocol
  { connected := connectionInfo.toList
    version := "rperf3 " ++ cargoPkgVersion
    systemInfo := (systemInfo.map SystemInfo.systemInfo).getD (env.os ++ " " ++ env.arch)
    timestamp :=
      { time := (systemInfo.map SystemInfo.timestampStr).getD env.nowRfc2822
        timesecs := (systemInfo.map SystemInfo.timestamp).getD env.nowTimestamp }
    connectingTo :=
      { host := (connectionInfo.map ConnectionInfo.remoteHost).getD ""
        port := (connectionInfo.map ConnectionInfo.remotePort).getD 5201 }
    cookie := String.ofList (Nat.toDigits 16 env.random)
    tcpMssDefault := if udp then none else some 1448
    sockBufsize := 0
    sndbufActual := if udp then 212992 else 16384
    rcvbufActual := if udp then 212992 else 131072
    testStart := testConfig }

def buildTcpIntervals (m : Measurements) (connectionInfo : Option ConnectionInfo) :
    List IntervalData :=
  m.intervals.intervals.map fun interval =>
    let stat : DetailedIntervalStats :=
      { socket := connectionInfo.bind ConnectionInfo.socketFd
        start := Duration.asSecsF64 interval.start
        finish := Duration.asSecsF64 interval.finish
        seconds := Duration.asSecsF64 (interval.finish - interval.start)
        bytes := interval.bytes
        bitsPerSecond := interval.bitsPerSecond
        tcpStats := TcpStats.default
        packets := none
        omitted := false
        sender := true }
    .tcp [stat] stat

def buildUdpIntervals (m : Measurements) (connectionInfo : Option ConnectionInfo) :
    List IntervalData :=
  m.intervals.intervals.map fun interval =>
    let stat : UdpIntervalStats :=
      { socket := connectionInfo.bind ConnectionInfo.socketFd
        start := Duration.asSecsF64 interval.start
        finish := Duration.asSecsF64 interval.finish
        seconds := Duration.asSecsF64 (interval.finish - interval.start)
        bytes := interval.bytes
        bitsPerSecond := interval.bitsPerSecond
        packets := if interval.packets = u64Max then 0 else interval.packets
        omitted := false
        sender := true }
    .udp [stat] stat

def buildTcpEndInfo (m : Measurements) (connectionInfo : Option ConnectionInfo) : TestEndInfo :=
  let totalDuration := Duration.asSecsF64 m.totalDuration
  let senderSummary : StreamSummary :=
    { socket := connectionInfo.bind ConnectionInfo.socketFd
      start := 0
      finish := totalDuration
      seconds := totalDuration
      bytes := m.totalBytesSent
      bitsPerSecond := m.totalBitsPerSecond
      retransmits := 0
      maxSndCwnd := none
      maxRtt := none
      minRtt := none
      meanRtt := none
      sender := true }
  let receiverSummary : StreamSummary :=
    { senderSummary with
      bytes := m.totalBytesReceived
      bitsPerSecond :=
        if totalDuration > 0 then (m.totalBytesReceived.toNat : F64) * 8 / totalDuration else 0 }
  .tcp [⟨senderSummary, receiverSummary⟩] senderSummary receiverSummary none
    (some "cubic") (some "cubic")

def buildUdpEndInfo (c : MeasurementsCollector) (m : Measurements)
    (connectionInfo : Option ConnectionInfo) : TestEndInfo :=
  let totalDuration := Duration.asSecsF64 m.totalDuration
  let (lostPackets, expectedPackets) := c.calculateUdpLoss
  let lostPercent : F64 :=
    if expectedPackets > 0 then (lostPackets.toNat : F64) / expectedPackets.toNat * 100 else 0
  let bytes := m.totalBytesSent + m.totalBytesReceived
  let bitsPerSecond : F64 :=
    if totalDuration > 0 then (bytes.toNat : F64) * 8 / totalDuration else 0
  let udpSummary : UdpStreamSummary :=
    { socket := connectionInfo.bind ConnectionInfo.socketFd
      start := 0
      finish := totalDuration
      seconds := totalDuration
      bytes := bytes
      bitsPerSecond := bitsPerSecond
      jitterMs := m.jitterMs
      lostPackets := lostPackets
      packets := expectedPackets
      lostPercent := lostPercent
      outOfOrder := if m.outOfOrderPackets > 0 then some m.outOfOrderPackets else none
      sender := m.totalBytesSent > m.totalBytesReceived }
  let udpSum : UdpSum :=
    { start := 0
      finish := totalDuration
      seconds := totalDuration
      bytes := bytes
      bitsPerSecond := bitsPerSecond
      jitterMs := m.jitterMs
      lostPackets := lostPackets
      packets := expectedPackets
      lostPercent := lostPercent
      sender := m.totalBytesSent > m.totalBytesReceived }
  .udp [⟨udpSummary⟩] udpSum none

def getDetailedResults (c : MeasurementsCollector) (env : HostEnv)
    (connectionInfo : Option ConnectionInfo) (systemInfo : Option SystemInfo)
    (testConfig : TestConfig) : DetailedTestResults :=
  let m := c.inner
  let udp := isUdp testConfig.protocol
  { start := startInfo env connectionInfo systemInfo testConfig
    intervals :=
      if udp then buildUdpIntervals m connectionInfo else buildTcpIntervals m connectionInfo
    finish :=
      if udp then c.buildUdpEndInfo m connectionInfo else buildTcpEndInfo m connectionInfo }

end MeasurementsCollector

/-! ### Both reports on one state -/

/-- The byte totals of a detailed report are those of a snapshot. -/
def TestEndInfo.Agrees (m : Measurements) : TestEndInfo → Prop
  | .tcp _ sumSent sumReceived _ _ _ =>
    sumSent.bytes = m.totalBytesSent ∧ sumReceived.bytes = m.totalBytesReceived
  | .udp _ sum _ => sum.bytes.toNat = m.totalBytesSent.toNat + m.totalBytesReceived.toNat

instance (m : Measurements) : DecidablePred (TestEndInfo.Agrees m) := fun e =>
  match e with
  | .tcp _ sumSent sumReceived _ _ _ => inferInstanceAs (Decidable
      (sumSent.bytes = m.totalBytesSent ∧ sumReceived.bytes = m.totalBytesReceived))
  | .udp _ sum _ => inferInstanceAs (Decidable
      (sum.bytes.toNat = m.totalBytesSent.toNat + m.totalBytesReceived.toNat))

def sentBytes (cs : List CollectorCall) : ℕ := (cs.map (fun x => x.sent.toNat)).sum
def receivedBytes (cs : List CollectorCall) : ℕ := (cs.map (fun x => x.received.toNat)).sum

theorem toNat_sum (xs : List UInt64) : xs.sum.toNat = (xs.map UInt64.toNat).sum % 2 ^ 64 := by
  induction xs with
  | nil => rfl
  | cons x xs ih =>
    rw [List.sum_cons, UInt64.toNat_add, ih, List.map_cons, List.sum_cons, Nat.add_mod_mod]

theorem get_totals_calls (cs : List CollectorCall) :
    (MeasurementsCollector.new.calls cs).get.totalBytesSent.toNat = sentBytes cs % 2 ^ 64 ∧
    (MeasurementsCollector.new.calls cs).get.totalBytesReceived.toNat =
      receivedBytes cs % 2 ^ 64 := by
  have hzero : ∀ x : UInt64, 0 + x = x := UInt64.zero_add
  obtain ⟨hs, hr⟩ := calls_atomics MeasurementsCollector.new cs
  obtain ⟨hgs, hgr⟩ := get_totals (MeasurementsCollector.new.calls cs)
  rw [hgs, hgr, hs, hr]
  simp only [MeasurementsCollector.new, hzero, toNat_sum, List.map_map, sentBytes, receivedBytes,
    Function.comp_def, and_self]

theorem detailed_agrees_iff_zero (cs : List CollectorCall) (env : HostEnv)
    (connectionInfo : Option ConnectionInfo) (systemInfo : Option SystemInfo)
    (testConfig : TestConfig) (m : Measurements) :
    ((MeasurementsCollector.new.calls cs).getDetailedResults env connectionInfo systemInfo
      testConfig).finish.Agrees m ↔
      m.totalBytesSent.toNat = 0 ∧ m.totalBytesReceived.toNat = 0 := by
  have hinner := calls_inner_totals MeasurementsCollector.new cs
  have hsent : (MeasurementsCollector.new.calls cs).inner.totalBytesSent = 0 := hinner.1
  have hreceived : (MeasurementsCollector.new.calls cs).inner.totalBytesReceived = 0 := hinner.2
  unfold MeasurementsCollector.getDetailedResults
  by_cases hudp : isUdp testConfig.protocol
  · simp only [hudp, if_true, MeasurementsCollector.buildUdpEndInfo, TestEndInfo.Agrees, hsent,
      hreceived]
    change 0 = _ ↔ _
    omega
  · simp only [hudp, if_false, Bool.false_eq_true, MeasurementsCollector.buildTcpEndInfo,
      TestEndInfo.Agrees, hsent, hreceived]
    rw [← UInt64.toNat_inj, ← UInt64.toNat_inj, eq_comm, @eq_comm ℕ (UInt64.toNat 0)]
    rfl

/-- The two reports agree exactly as long as nothing has been counted. -/
theorem getDetailedResults_agrees_iff (cs : List CollectorCall) (env : HostEnv)
    (connectionInfo : Option ConnectionInfo) (systemInfo : Option SystemInfo)
    (testConfig : TestConfig) :
    ((MeasurementsCollector.new.calls cs).getDetailedResults env connectionInfo systemInfo
      testConfig).finish.Agrees (MeasurementsCollector.new.calls cs).get ↔
      sentBytes cs % 2 ^ 64 = 0 ∧ receivedBytes cs % 2 ^ 64 = 0 := by
  obtain ⟨hs, hr⟩ := get_totals_calls cs
  rw [detailed_agrees_iff_zero, hs, hr]

/-- One kilobyte sent over TCP: the text report has it, the detailed report has zero. -/
theorem getDetailedResults_kilobyte :
    ¬ ∀ (cs : List CollectorCall) (env : HostEnv) (connectionInfo : Option ConnectionInfo)
      (systemInfo : Option SystemInfo) (testConfig : TestConfig),
      ((MeasurementsCollector.new.calls cs).getDetailedResults env connectionInfo systemInfo
        testConfig).finish.Agrees (MeasurementsCollector.new.calls cs).get := by
  intro h
  have hone := h [.recordBytesSent 5 1024] ⟨"linux", "x86_64", "", 0, 0⟩ none none
    ⟨"Tcp", 1, 131072, 0, 10, false⟩
  exact absurd hone (by decide)

end Rperf3
