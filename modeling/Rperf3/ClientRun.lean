import Rperf3.ClientLoops
import Rperf3.Config
import Rperf3.OneWayClient
import Rperf3.OneWaySend

/-!
# A run of the client (`client.rs:455-965`)

`Client::run` makes the control connection, waits for the start signal and moves
the test data in one of six ways, given what the network and the clock do. A run
keeps the bytes that were really moved beside what the collector and the callback
got. Of what it prints, only that printing can fail is modelled.
-/

namespace Rperf3

structure Client where
  serverAddr : Option String
  config : Config
  interval : Duration
  measurements : MeasurementsCollector
  /-- a progress callback is attached -/
  callback : Bool

namespace Client

def new (serverAddr : Option String) (config : Config) (interval : Duration) :
    Except Error Client :=
  if serverAddr.isNone then .error (.config "Server address is required for client mode")
  else .ok ⟨serverAddr, config, interval, MeasurementsCollector.new, false⟩

def withCallback (c : Client) : Client := { c with callback := true }

def notify (c : Client) (events : List ProgressEvent) : List ProgressEvent :=
  if c.callback then events else []

end Client

inductive UdpSender where
  /-- Linux -/
  | batched (ticks : List BatchTick)
  | standard (ticks : List SendTick)

structure OneWayStream where
  bind : Except Error Unit
  connected : Bool
  start : Instant
  ticks : List OffsetTick

/-- What the network and the clock do during a run; each mode takes its own part. -/
structure Network where
  /-- connecting, and sending the `Setup` message -/
  connect : Except Error Unit
  ack : Except Error Message
  start : Except Error Message
  startTime : Instant
  /-- binding and connecting the UDP socket -/
  socket : Except Error Unit
  peer : SocketAddr
  /-- sending the initialization packet -/
  init : Except Error Unit
  loopStart : Instant
  finish : Instant
  writes : List (ClientTick ℕ)
  flush : Except Error Unit
  reads : List (ClientTick ℕ)
  sender : UdpSender
  datagrams : List (ClientTick (Bytes × UInt64))
  oneWaySends : List OneWaySendTick
  streams : ℕ → OneWayStream
  oneWayRecvs : List OneWayRecvTick
  /-- writing out the results -/
  output : Except Error Unit

inductive RunResult where
  | ok
  | err (e : Error)
  | panicked
  deriving DecidableEq

def RunResult.ofExcept {α : Type} : Except Error α → RunResult
  | .ok _ => .ok
  | .error e => .err e

structure ClientRun where
  result : RunResult
  measurements : MeasurementsCollector
  events : List ProgressEvent
  sent : ℕ
  received : ℕ

def ClientRun.getMeasurements (r : ClientRun) : Measurements := r.measurements.get

def ClientRun.completions (r : ClientRun) : List ℕ :=
  (r.events.filterMap ProgressEvent.completedBytes).map UInt64.toNat

/-- Up to the start signal (`client.rs:596-625`, `786-815`). -/
def handshake (net : Network) : Except Error Unit := do
  net.connect
  match ← net.ack with
  | .setupAck _ _ => pure ()
  | .error message => throw (.protocol ("Server error: " ++ message))
  | _ => throw (.protocol "Expected SetupAck message")
  match ← net.start with
  | .start _ => pure ()
  | _ => throw (.protocol "Expected Start message")

def intervalUpdates (reports : List IntervalReport) : List ProgressEvent :=
  runReporterTask (reports.map .report ++ [.complete])

def tcpCompleted (c : MeasurementsCollector) : ProgressEvent :=
  let m := c.get
  .testCompleted (m.totalBytesSent + m.totalBytesReceived) m.totalDuration m.totalBitsPerSecond
    none none none none none

def udpCompleted (c : MeasurementsCollector) : ProgressEvent :=
  let m := c.get
  .testCompleted (m.totalBytesSent + m.totalBytesReceived) m.totalDuration m.totalBitsPerSecond
    (some m.totalPackets) (some m.jitterMs) (some c.calculateUdpLoss.1)
    (some (lossPercent c.calculateUdpLoss)) (some m.outOfOrderPackets)

def zeroBuffer (size : ℕ) (h : 8 ≤ size) : SendBuffer :=
  ⟨List.replicate size 0, h.trans_eq (List.length_replicate ..).symm⟩

namespace Client

def loopConfig (c : Client) (net : Network) : LoopConfig :=
  ⟨net.loopStart, c.config.duration, c.interval⟩

/-! ### TCP (`client.rs:545-738`) -/

def runTcp (c : Client) (net : Network) : ClientRun :=
  match handshake net with
  | .error e => ⟨.err e, c.measurements, [], 0, 0⟩
  | .ok () =>
    let cfg := c.loopConfig net
    let st := ClientLoop.init cfg (c.measurements.setStartTime net.startTime)
    let st :=
      if c.config.reverse then clientLoop receiveData cfg st net.reads
      else clientLoop sendData cfg st net.writes
    let m := st.collector.setDuration (net.finish - net.loopStart)
    let events := .testStarted :: intervalUpdates st.reports
    -- only the sender flushes
    match if c.config.reverse then .ok () else net.flush with
    | .error e => ⟨.err e, m, c.notify events, st.sent, st.received⟩
    | .ok () =>
      -- failing to read `Result` or `Done` changes nothing
      ⟨.ofExcept net.output, m, c.notify (events ++ [tcpCompleted m]), st.sent, st.received⟩

/-! ### UDP (`client.rs:740-965`) -/

def sendParams (c : Client) (net : Network) : SendParams :=
  ⟨c.loopConfig net, c.config.bufferSize, c.config.bandwidth, net.peer⟩

/-- The common end of the modes that record what they move. -/
def udpRun (c : Client) (net : Network) (m : MeasurementsCollector)
    (reports : List IntervalReport) (sent received : ℕ) : ClientRun :=
  { result := .ofExcept net.output
    measurements := m
    events := c.notify (.testStarted :: (intervalUpdates reports ++ [udpCompleted m]))
    sent := sent
    received := received }

def runUdpSend (c : Client) (net : Network) : ClientRun :=
  let p := c.sendParams net
  match net.sender with
  | .batched ticks =>
    let st := runUdpSendBatched p c.measurements ticks net.finish
    c.udpRun net st.collector
      (batchedReports p ⟨SendState.init p c.measurements, UdpSendBatch.new⟩ ticks)
      (bytesHanded st.handed) 0
  | .standard ticks =>
    let st := runUdpSendStandard p c.measurements ticks net.finish
    c.udpRun net st.collector (standardReports p (SendState.init p c.measurements) ticks)
      (bytesHanded st.handed) 0

def runUdpReceive (c : Client) (net : Network) : ClientRun :=
  let cfg := c.loopConfig net
  let st := clientLoop udpReceive cfg (ClientLoop.init cfg c.measurements) net.datagrams
  c.udpRun net (st.collector.setDuration (net.finish - net.loopStart)) st.reports st.sent
    st.received

/-- A run that records nothing: a failed one, or a one-way one, which prints its own counters. -/
def unrecorded (c : Client) (result : RunResult) (sent received : ℕ) : ClientRun :=
  ⟨result, c.measurements, c.notify [.testStarted], sent, received⟩

def runOneWaySingle (c : Client) (net : Network) : ClientRun :=
  if h : 8 ≤ c.config.bufferSize then
    let r : OneWaySendRun :=
      ⟨net.loopStart, c.config.duration, zeroBuffer c.config.bufferSize h, net.oneWaySends,
        net.finish⟩
    c.unrecorded (.ofExcept (sendOneWay r)) r.loop.2.bytesSent 0
  else
    -- writing the number into the buffer panics
    match net.oneWaySends with
    | [] => c.unrecorded .ok 0 0
    | tick :: _ =>
      c.unrecorded (if tick.now - net.loopStart < c.config.duration then .panicked else .ok) 0 0

/-- Bytes the kernel takes from one parallel stream; a stream that fails is only reported. -/
def streamSent (c : Client) (net : Network) (streamId : ℕ) : ℕ :=
  let s := net.streams streamId
  match s.bind with
  | .error _ => 0
  | .ok () =>
    if h : 8 ≤ c.config.bufferSize then
      let r : OffsetRun :=
        { connected := s.connected
          start := s.start
          duration := c.config.duration
          buffer := zeroBuffer c.config.bufferSize h
          seqOffset := UInt32.ofNat (streamId * 10000000)
          streamId := UInt32.ofNat streamId
          ticks := s.ticks }
      if r.connected then (r.accepted.map List.length).sum else 0
    else 0

def runOneWaySend (c : Client) (net : Network) : ClientRun :=
  if c.config.parallel ≤ 1 then c.runOneWaySingle net
  else c.unrecorded .ok ((List.range c.config.parallel).map (c.streamSent net)).sum 0

def runOneWayReceive (c : Client) (net : Network) : ClientRun :=
  let r : OneWayRecvRun :=
    { start := net.loopStart
      duration := c.config.duration
      expectedPps := c.config.expectedPps
      bufferSize := c.config.bufferSize
      ticks := net.oneWayRecvs
      finish := net.finish }
  c.unrecorded (.ofExcept (recvOneWay r)) 0 r.loop.2.bytesReceived

def runUdp (c : Client) (net : Network) : ClientRun :=
  match handshake net with
  | .error e => ⟨.err e, c.measurements, [], 0, 0⟩
  | .ok () =>
    match net.socket with
    | .error e => c.unrecorded (.err e) 0 0
    | .ok () =>
      match c.config.oneWay with
      | .send => c.runOneWaySend net
      | .receive => c.runOneWayReceive net
      | .none =>
        if c.config.reverse then
          match net.init with
          | .error e => c.unrecorded (.err e) 0 0
          | .ok () => c.runUdpReceive net
        else c.runUdpSend net

def run (c : Client) (net : Network) : ClientRun :=
  match c.serverAddr with
  | none => ⟨.err (.config "Server address not set"), c.measurements, [], 0, 0⟩
  | some _ =>
    match c.config.protocol with
    | .tcp => c.runTcp net
    | .udp => c.runUdp net

end Client

/-! ### Modes that record -/

/-- The counters have grown by what was moved, one way only, and there is one completion event,
with the totals of the collector. -/
structure Counted (c : Client) (r : ClientRun) : Prop where
  grown : Grown c.measurements r.measurements r.sent r.received
  oneSided : r.sent = 0 ∨ r.received = 0
  completed : c.callback = true → r.events.filterMap ProgressEvent.completedBytes =
    [r.measurements.atomicBytesSent + r.measurements.atomicBytesReceived]

theorem notify_of_callback {c : Client} (h : c.callback = true) (events : List ProgressEvent) :
    c.notify events = events := if_pos h

theorem get_bytes (c : MeasurementsCollector) :
    c.get.totalBytesSent + c.get.totalBytesReceived =
      c.atomicBytesSent + c.atomicBytesReceived := by
  rw [(get_totals c).1, (get_totals c).2]

theorem tcpCompleted_bytes (c : MeasurementsCollector) :
    (tcpCompleted c).completedBytes = some (c.atomicBytesSent + c.atomicBytesReceived) :=
  congrArg some (get_bytes c)

theorem udpCompleted_bytes (c : MeasurementsCollector) :
    (udpCompleted c).completedBytes = some (c.atomicBytesSent + c.atomicBytesReceived) :=
  congrArg some (get_bytes c)

theorem completedBytes_events {event : ProgressEvent} {bytes : UInt64}
    (h : event.completedBytes = some bytes) (reports : List IntervalReport) :
    (ProgressEvent.testStarted :: (intervalUpdates reports ++ [event])).filterMap
      ProgressEvent.completedBytes = [bytes] := by
  have hstarted : ProgressEvent.testStarted.completedBytes = none := rfl
  rw [List.filterMap_cons_none hstarted, List.filterMap_append, intervalUpdates,
    runReporterTask_completedBytes, List.nil_append, List.filterMap_cons_some h,
    List.filterMap_nil]

theorem record_moved {α : Type} (body : ClientBody α) (cfg : LoopConfig) (st : ClientLoop)
    (transfer : Transfer) (t : ClientTick α) :
    (st.record body cfg transfer t).sent = st.sent + transfer.sent ∧
    (st.record body cfg transfer t).received = st.received + transfer.received := by
  unfold ClientLoop.record
  dsimp only
  split <;> exact ⟨rfl, rfl⟩

theorem sendData_received (cfg : LoopConfig) (st : ClientLoop) (ts : List (ClientTick ℕ)) :
    (clientLoop Client.sendData cfg st ts).received = st.received := by
  apply clientLoop_oneSided Client.sendData cfg ClientLoop.received Transfer.received
    (fun st transfer t => (record_moved Client.sendData cfg st transfer t).2)
  intro n transfer h
  cases h
  rfl

theorem receiveData_sent (cfg : LoopConfig) (st : ClientLoop) (ts : List (ClientTick ℕ)) :
    (clientLoop Client.receiveData cfg st ts).sent = st.sent := by
  apply clientLoop_oneSided Client.receiveData cfg ClientLoop.sent Transfer.sent
    (fun st transfer t => (record_moved Client.receiveData cfg st transfer t).1)
  intro n transfer h
  by_cases hn : n = 0
  · simp only [Client.receiveData, if_pos hn] at h
    exact nomatch h
  · simp only [Client.receiveData, if_neg hn] at h
    cases h
    rfl

theorem udpReceive_sent (cfg : LoopConfig) (st : ClientLoop)
    (ts : List (ClientTick (Bytes × UInt64))) :
    (clientLoop Client.udpReceive cfg st ts).sent = st.sent := by
  apply clientLoop_oneSided Client.udpReceive cfg ClientLoop.sent Transfer.sent
    (fun st transfer t => (record_moved Client.udpReceive cfg st transfer t).1)
  intro a transfer h
  cases h
  rfl

theorem udpRun_counted {c : Client} {m : MeasurementsCollector} {sent received : ℕ}
    (net : Network) (reports : List IntervalReport)
    (hgrown : Grown c.measurements m sent received) (hside : sent = 0 ∨ received = 0) :
    Counted c (c.udpRun net m reports sent received) := by
  refine ⟨hgrown, hside, fun hcallback => ?_⟩
  unfold Client.udpRun
  rw [notify_of_callback hcallback]
  exact completedBytes_events (udpCompleted_bytes m) reports

theorem runUdpSend_counted (c : Client) (net : Network) : Counted c (c.runUdpSend net) := by
  unfold Client.runUdpSend
  dsimp only
  cases net.sender with
  | batched ticks =>
    have h := batchedLoop_grown (c.sendParams net)
      ⟨SendState.init (c.sendParams net) c.measurements, UdpSendBatch.new⟩ ticks
      (grown_refl c.measurements)
    exact udpRun_counted net _ (h.withInner _) (Or.inr rfl)
  | standard ticks =>
    have h := standardLoop_grown (c.sendParams net)
      (SendState.init (c.sendParams net) c.measurements) ticks (grown_refl c.measurements)
    exact udpRun_counted net _ (h.withInner _) (Or.inr rfl)

theorem runUdpReceive_counted (c : Client) (net : Network) : Counted c (c.runUdpReceive net) := by
  have h := clientLoop_grown Client.udpReceive (c.loopConfig net)
    (ClientLoop.init (c.loopConfig net) c.measurements) net.datagrams
    (grown_refl c.measurements)
  exact udpRun_counted net _ (h.withInner _) (Or.inl (udpReceive_sent ..))

theorem tcpLoop_grown (c : Client) (net : Network) {st st' : ClientLoop}
    (hinit : st = ClientLoop.init (c.loopConfig net) (c.measurements.setStartTime net.startTime))
    (h : st' = if c.config.reverse then
        clientLoop Client.receiveData (c.loopConfig net) st net.reads
      else clientLoop Client.sendData (c.loopConfig net) st net.writes) :
    Grown c.measurements st'.collector st'.sent st'.received ∧
      (st'.sent = 0 ∨ st'.received = 0) := by
  have hstart : Grown c.measurements st.collector st.sent st.received := by
    rw [hinit]
    exact (grown_refl c.measurements).withInner _
  by_cases hreverse : c.config.reverse = true
  · rw [if_pos hreverse] at h
    rw [h]
    refine ⟨clientLoop_grown _ _ _ _ hstart, Or.inl ?_⟩
    rw [receiveData_sent, hinit]
    rfl
  · rw [if_neg hreverse] at h
    rw [h]
    refine ⟨clientLoop_grown _ _ _ _ hstart, Or.inr ?_⟩
    rw [sendData_received, hinit]
    rfl

theorem runTcp_counted {c : Client} {net : Network} (hok : (c.runTcp net).result = .ok) :
    Counted c (c.runTcp net) := by
  unfold Client.runTcp at hok ⊢
  cases hhandshake : handshake net with
  | error e =>
    rw [hhandshake] at hok
    exact nomatch hok
  | ok _ =>
    rw [hhandshake] at hok
    dsimp only at hok ⊢
    generalize hst : (if c.config.reverse then _ else _ : ClientLoop) = st at hok ⊢
    obtain ⟨hgrown, hside⟩ := tcpLoop_grown c net rfl hst.symm
    cases hflush : (if c.config.reverse then .ok () else net.flush : Except Error Unit) with
    | error e =>
      rw [hflush] at hok
      exact nomatch hok
    | ok _ =>
      refine ⟨hgrown.withInner _, hside, fun hcallback => ?_⟩
      dsimp only
      rw [notify_of_callback hcallback]
      exact completedBytes_events (tcpCompleted_bytes _) st.reports

/-! ### Modes that do not -/

def Client.oneWayUdp (c : Client) : Bool := c.config.protocol = .udp ∧ c.config.oneWay ≠ .none

/-- The collector is as it was, and there is no completion event. -/
structure Unrecorded (c : Client) (r : ClientRun) : Prop where
  measurements : r.measurements = c.measurements
  events : r.events.filterMap ProgressEvent.completedBytes = []

theorem unrecorded_spec (c : Client) (result : RunResult) (sent received : ℕ) :
    Unrecorded c (c.unrecorded result sent received) := by
  refine ⟨rfl, ?_⟩
  unfold Client.unrecorded Client.notify
  dsimp only
  split <;> rfl

theorem runOneWaySingle_eq (c : Client) (net : Network) :
    ∃ result sent, c.runOneWaySingle net = c.unrecorded result sent 0 := by
  unfold Client.runOneWaySingle
  split
  · exact ⟨_, _, rfl⟩
  · split
    · exact ⟨_, _, rfl⟩
    · exact ⟨_, _, rfl⟩

theorem runOneWaySend_eq (c : Client) (net : Network) :
    ∃ result sent, c.runOneWaySend net = c.unrecorded result sent 0 := by
  unfold Client.runOneWaySend
  split
  · exact runOneWaySingle_eq c net
  · exact ⟨_, _, rfl⟩

/-! ### A successful run -/

theorem runUdp_ok {c : Client} {net : Network} (hok : (c.runUdp net).result = .ok) :
    (c.config.oneWay = .send ∧ c.runUdp net = c.runOneWaySend net) ∨
    (c.config.oneWay = .receive ∧ c.runUdp net = c.runOneWayReceive net) ∨
    (c.config.oneWay = .none ∧
      (c.runUdp net = c.runUdpReceive net ∨ c.runUdp net = c.runUdpSend net)) := by
  unfold Client.runUdp at hok ⊢
  cases hhandshake : handshake net with
  | error e =>
    rw [hhandshake] at hok
    exact nomatch hok
  | ok _ =>
    rw [hhandshake] at hok
    dsimp only at hok ⊢
    cases hsocket : net.socket with
    | error e =>
      rw [hsocket] at hok
      exact nomatch hok
    | ok _ =>
      rw [hsocket] at hok
      dsimp only at hok ⊢
      cases honeWay : c.config.oneWay with
      | send => exact .inl ⟨rfl, rfl⟩
      | receive => exact .inr (.inl ⟨rfl, rfl⟩)
      | none =>
        rw [honeWay] at hok
        refine .inr (.inr ⟨rfl, ?_⟩)
        by_cases hreverse : c.config.reverse = true
        · rw [if_pos hreverse] at hok
          dsimp only
          rw [if_pos hreverse]
          cases hinit : net.init with
          | error e =>
            rw [hinit] at hok
            exact nomatch hok
          | ok _ => exact .inl rfl
        · dsimp only
          rw [if_neg hreverse]
          exact .inr rfl

theorem runUdp_unrecorded {c : Client} {net : Network} (hmode : c.config.oneWay ≠ .none)
    (hok : (c.runUdp net).result = .ok) : Unrecorded c (c.runUdp net) := by
  rcases runUdp_ok hok with ⟨-, hrun⟩ | ⟨-, hrun⟩ | ⟨hnone, -⟩
  · obtain ⟨result, sent, hsend⟩ := runOneWaySend_eq c net
    rw [hrun, hsend]
    exact unrecorded_spec ..
  · rw [hrun]
    exact unrecorded_spec ..
  · exact absurd hnone hmode

theorem runUdp_counted {c : Client} {net : Network} (hmode : c.config.oneWay = .none)
    (hok : (c.runUdp net).result = .ok) : Counted c (c.runUdp net) := by
  rcases runUdp_ok hok with ⟨hsend, -⟩ | ⟨hreceive, -⟩ | ⟨-, hrun | hrun⟩
  · exact nomatch hmode.symm.trans hsend
  · exact nomatch hmode.symm.trans hreceive
  · rw [hrun]
    exact runUdpReceive_counted c net
  · rw [hrun]
    exact runUdpSend_counted c net

/-- Which of the two a successful run is depends on its mode alone. -/
theorem run_cases {c : Client} {net : Network} (hok : (c.run net).result = .ok) :
    (c.oneWayUdp = false ∧ Counted c (c.run net)) ∨
      (c.oneWayUdp = true ∧ Unrecorded c (c.run net)) := by
  unfold Client.run at hok ⊢
  unfold Client.oneWayUdp
  cases haddr : c.serverAddr with
  | none =>
    rw [haddr] at hok
    exact nomatch hok
  | some addr =>
    rw [haddr] at hok
    dsimp only at hok ⊢
    cases hprotocol : c.config.protocol with
    | tcp =>
      rw [hprotocol] at hok
      exact Or.inl ⟨by simp, runTcp_counted hok⟩
    | udp =>
      rw [hprotocol] at hok
      by_cases hmode : c.config.oneWay = .none
      · exact Or.inl ⟨by simp [hmode], runUdp_counted hmode hok⟩
      · exact Or.inr ⟨by simp [hmode], runUdp_unrecorded hmode hok⟩

/-! ### What the measurements report -/

/-- The measurements report what the run moved, and the callback got one completion event, with
the same total. -/
structure Fed (c : Client) (r : ClientRun) : Prop where
  sent : r.getMeasurements.totalBytesSent.toNat = r.sent
  received : r.getMeasurements.totalBytesReceived.toNat = r.received
  completed : c.callback = true → r.completions = [r.sent + r.received]

theorem toNat_add_ofNat_eq_iff (a : UInt64) (n : ℕ) :
    (a + UInt64.ofNat n).toNat = n ↔ a = 0 ∧ n < 2 ^ 64 := by
  have ha := a.toNat_lt
  rw [UInt64.toNat_add, UInt64.toNat_ofNat']
  constructor
  · intro h
    have hzero : a.toNat = 0 := by omega
    exact ⟨UInt64.toNat_inj.mp hzero, by omega⟩
  · rintro ⟨rfl, hn⟩
    rw [UInt64.toNat_zero]
    omega

/-- Counters that start from zero report what was moved, unless it does not fit. -/
theorem fed_iff_of_counted {c : Client} {r : ClientRun} (h : Counted c r) :
    Fed c r ↔ c.measurements.atomicBytesSent = 0 ∧ c.measurements.atomicBytesReceived = 0 ∧
      r.sent < 2 ^ 64 ∧ r.received < 2 ^ 64 := by
  have hsent := toNat_add_ofNat_eq_iff c.measurements.atomicBytesSent r.sent
  have hreceived := toNat_add_ofNat_eq_iff c.measurements.atomicBytesReceived r.received
  rw [← h.grown.sent, ← (get_totals r.measurements).1] at hsent
  rw [← h.grown.received, ← (get_totals r.measurements).2] at hreceived
  constructor
  · intro hfed
    obtain ⟨hs, hslt⟩ := hsent.mp hfed.sent
    obtain ⟨hr, hrlt⟩ := hreceived.mp hfed.received
    exact ⟨hs, hr, hslt, hrlt⟩
  · rintro ⟨hs, hr, hslt, hrlt⟩
    refine ⟨hsent.mpr ⟨hs, hslt⟩, hreceived.mpr ⟨hr, hrlt⟩, fun hcallback => ?_⟩
    unfold ClientRun.completions
    rw [h.completed hcallback, h.grown.sent, h.grown.received, hs, hr, UInt64.zero_add,
      UInt64.zero_add, ← UInt64.ofNat_add, List.map_singleton, UInt64.toNat_ofNat']
    -- one of the two is zero
    have hside := h.oneSided
    rw [Nat.mod_eq_of_lt (by omega)]

theorem fed_iff_of_unrecorded {c : Client} {r : ClientRun} (h : Unrecorded c r) :
    Fed c r ↔ c.callback = false ∧ c.measurements.atomicBytesSent.toNat = r.sent ∧
      c.measurements.atomicBytesReceived.toNat = r.received := by
  have hnone : r.completions = [] := by
    unfold ClientRun.completions
    rw [h.events]
    rfl
  rw [← h.measurements, ← (get_totals r.measurements).1, ← (get_totals r.measurements).2]
  constructor
  · intro hfed
    refine ⟨Bool.eq_false_iff.mpr (fun hcallback => ?_), hfed.sent, hfed.received⟩
    have hone := hfed.completed hcallback
    rw [hnone] at hone
    exact nomatch hone
  · rintro ⟨hcallback, hsent, hreceived⟩
    refine ⟨hsent, hreceived, fun h => ?_⟩
    rw [hcallback] at h
    exact nomatch h

theorem new_counters {serverAddr : Option String} {config : Config} {interval : Duration}
    {c : Client} (h : Client.new serverAddr config interval = .ok c) :
    c.withCallback.measurements = MeasurementsCollector.new := by
  unfold Client.new at h
  split at h
  · exact nomatch h
  · cases h
    rfl

/-- The first run of a new client feeds its measurements, in every mode that records. -/
theorem new_run_fed {serverAddr : Option String} {config : Config} {interval : Duration}
    {c : Client} {net : Network} (hnew : Client.new serverAddr config interval = .ok c)
    (hmode : c.withCallback.oneWayUdp = false) (hok : (c.withCallback.run net).result = .ok)
    (hsent : (c.withCallback.run net).sent < 2 ^ 64)
    (hreceived : (c.withCallback.run net).received < 2 ^ 64) :
    Fed c.withCallback (c.withCallback.run net) := by
  rcases run_cases hok with ⟨-, hcounted⟩ | ⟨honeWay, -⟩
  · rw [fed_iff_of_counted hcounted, new_counters hnew]
    exact ⟨rfl, rfl, hsent, hreceived⟩
  · exact absurd (hmode.symm.trans honeWay) Bool.false_ne_true

/-- A successful run feeds the measurements exactly when its mode is not a one-way mode of UDP, the
byte counters were zero before it, and the bytes moved fit in them; or when nothing had to be
recorded: no callback waits for the completion, and the counters already hold what was moved. -/
theorem run_fed_iff (c : Client) (net : Network) (hok : (c.run net).result = .ok) :
    Fed c (c.run net) ↔
      (c.oneWayUdp = false ∧ c.measurements.atomicBytesSent = 0 ∧
        c.measurements.atomicBytesReceived = 0 ∧ (c.run net).sent < 2 ^ 64 ∧
        (c.run net).received < 2 ^ 64) ∨
      (c.oneWayUdp = true ∧ c.callback = false ∧
        c.measurements.atomicBytesSent.toNat = (c.run net).sent ∧
        c.measurements.atomicBytesReceived.toNat = (c.run net).received) := by
  rcases run_cases hok with ⟨hmode, hcounted⟩ | ⟨hmode, hunrecorded⟩
  · rw [fed_iff_of_counted hcounted, hmode]
    simp
  · rw [fed_iff_of_unrecorded hunrecorded, hmode]
    simp

/-- A fresh client with a callback, for a test of one second with packets of 1200 bytes. -/
def smallClient (protocol : TestProtocol) (oneWay : OneWayMode) : Client :=
  { serverAddr := some "127.0.0.1"
    config := ⟨protocol, Duration.fromSecs 1, none, 1200, 1, false, oneWay, none⟩
    interval := Duration.fromSecs 1
    measurements := MeasurementsCollector.new
    callback := true }

/-- A network that takes two writes, or one datagram of a one-way test. -/
def smallNetwork : Network :=
  let clock : IntervalClock := ⟨1, 1, 1, 1⟩
  { connect := .ok ()
    ack := .ok (.setupAck 5201 "cookie")
    start := .ok (.start 0)
    startTime := 0
    socket := .ok ()
    peer := smallTest.peer
    init := .ok ()
    loopStart := 0
    finish := Duration.fromSecs 1
    writes := [⟨1, false, .ok 1200, clock, none⟩, ⟨2, false, .ok 700, clock, none⟩]
    flush := .ok ()
    reads := []
    sender := .standard []
    datagrams := []
    oneWaySends := [⟨1, .ok 1200⟩]
    streams := fun _ => ⟨.ok (), false, 0, []⟩
    oneWayRecvs := []
    output := .ok () }

theorem run_fed_tcp : Fed (smallClient .tcp .none) ((smallClient .tcp .none).run smallNetwork) :=
  (run_fed_iff (smallClient .tcp .none) smallNetwork rfl).mpr
    (Or.inl ⟨rfl, rfl, rfl, by decide, by decide⟩)

/-- A one-way test sends its datagram, and neither the measurements nor the callback know. -/
theorem oneWaySend_not_fed :
    ¬ ∀ (c : Client) (net : Network), (c.run net).result = .ok → Fed c (c.run net) := by
  intro h
  have hfed := h (smallClient .udp .send) smallNetwork rfl
  exact nomatch hfed.completed rfl

end Rperf3
