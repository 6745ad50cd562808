import Rperf3.DataLoop
import Rperf3.UdpPacket
import Rperf3.Protocol

/-!
# Data loops of the server (`server.rs:729-870`, `881-1382`)

What the handler of one client does to the collector, given what the network and
the clock do. The four data loops share their shape: run until the duration is
over or the connection fails, record what moved, and close an interval whenever
it is due. Sleeping for the bandwidth limit only shows in the clock readings.
-/

namespace Rperf3

inductive HandlerStep where
  | call (x : CollectorCall)
  /-- `measurements.get()` for the UDP figures of an interval -/
  | readStats
  /-- `measurements.get()` for the `Result` message -/
  | sendResult
  deriving DecidableEq

/-- One iteration: the reading of the loop condition, the outcome, the readings after it. -/
structure LoopEvent (α : Type) where
  now : Instant
  result : IoResult α
  clock : IntervalClock

/-- Where the loops differ: the calls made for an outcome with the bytes and packets it adds to
the interval (`none` leaves the loop), the packet count of an interval and what is read
before it is stored. -/
structure LoopBody (α : Type) where
  onIo : α → Option (List CollectorCall × UInt64 × UInt64)
  packets : LoopState → UInt64
  reads : List HandlerStep

def dataLoop {α : Type} (body : LoopBody α) (cfg : LoopConfig) :
    LoopState → List (LoopEvent α) → List HandlerStep
  | _, [] => []
  | st, e :: es =>
    if e.now - cfg.start < cfg.duration then
      match e.result with
      | .ok a =>
        match body.onIo a with
        | none => []
        | some (calls, bytes, packets) =>
          let st := { st with
            intervalBytes := st.intervalBytes + bytes
            intervalPackets := st.intervalPackets + packets }
          if e.clock.check - st.lastInterval ≥ cfg.interval then
            let stats := intervalStats cfg (body.packets st) st e.clock
            calls.map .call ++ (body.reads ++ (.call (.addInterval stats) ::
              dataLoop body cfg ⟨e.clock.reset, 0, 0⟩ es))
          else calls.map .call ++ dataLoop body cfg st es
      | .error _ => []
      | .timeout => dataLoop body cfg st es
    else []

/-- `send_data` (`server.rs:1151-1278`). -/
def sendData : LoopBody UInt64 where
  onIo n := some ([.recordBytesSent 0 n], n, 0)
  packets _ := u64Max
  reads := []

/-- `receive_data` (`server.rs:1280-1382`); a read of zero bytes ends it. -/
def receiveData : LoopBody UInt64 where
  onIo n := if n = 0 then none else some ([.recordBytesReceived 0 n], n, 0)
  packets _ := u64Max
  reads := []

/-- `send_udp_data` (`server.rs:881-1020`), after the first packet of the client. -/
def sendUdpData : LoopBody UInt64 where
  onIo n := some ([.recordBytesSent 0 n, .recordUdpPacket 0], n, 1)
  packets st := st.intervalPackets
  reads := []

/-- `receive_udp_data` (`server.rs:1022-1149`): a datagram and the wall clock. -/
def receiveUdpData : LoopBody (Bytes × UInt64) where
  onIo a :=
    match parsePacket a.1 with
    | none => some ([], 0, 0)
    | some (header, _) =>
      let n := UInt64.ofNat a.1.length
      some ([.recordBytesReceived 0 n,
        .recordUdpPacketReceived header.sequence.toUInt64 header.timestampUs a.2], n, 1)
  packets st := st.intervalPackets
  reads := [.readStats]

inductive DataPhase where
  | tcpForward (events : List (LoopEvent UInt64))
  | tcpReverse (events : List (LoopEvent UInt64))
  | udpForward (events : List (LoopEvent (Bytes × UInt64)))
  /-- reverse and one-way receive -/
  | udpSending (events : List (LoopEvent UInt64))
  /-- one-way send: `recv_one_way_server` keeps its own counters -/
  | oneWaySend

structure Session where
  startTime : Instant
  loop : LoopConfig
  phase : DataPhase
  finish : Instant

/-- `handle_tcp_client` and `handle_udp_test` from `set_start_time` on. -/
def Session.steps (s : Session) : List HandlerStep :=
  let setDuration := HandlerStep.call (.setDuration (s.finish - s.loop.start))
  .call (.setStartTime s.startTime) ::
    match s.phase with
    | .tcpForward events =>
      dataLoop receiveData s.loop s.loop.first events ++ [setDuration, .sendResult]
    | .tcpReverse events =>
      dataLoop sendData s.loop s.loop.first events ++ [setDuration, .sendResult]
    | .udpForward events =>
      dataLoop receiveUdpData s.loop s.loop.first events ++ [setDuration, .call .get]
    | .udpSending events =>
      dataLoop sendUdpData s.loop s.loop.first events ++ [setDuration, .call .get]
    | .oneWaySend => [.call .get]

/-- The `Result` message; none is sent when no stream was recorded (`server.rs:746-758`). -/
def resultMessage (m : Measurements) : Option Message :=
  m.streams.head?.map fun stats =>
    Message.resultOf 0 stats.bytesSent.toNat stats.bytesReceived.toNat
      (Duration.asSecsF64 m.totalDuration) m.totalBitsPerSecond none

end Rperf3
