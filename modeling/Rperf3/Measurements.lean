import Rperf3.Primitive
import Mathlib.Data.UInt

/-!
# Measurements (`measurements.rs`)

The locked record `Measurements`, the atomic counters beside it and the UDP
sequence state, put together in `MeasurementsCollector`. A clone of a collector
shares all of them (`measurements.rs:838-849`), so one value stands for all
clones. `fetch_add` wraps; `u64` fields are `UInt64`.
-/

namespace Rperf3

/-! ### Intervals (`measurements.rs:9-64`, `590-610`) -/

def maxIntervals : ℕ := 86400

structure IntervalStats where
  start : Duration
  finish : Duration
  bytes : UInt64
  bitsPerSecond : F64
  packets : UInt64
  deriving DecidableEq

structure CircularIntervalBuffer where
  intervals : List IntervalStats
  deriving DecidableEq

namespace CircularIntervalBuffer

def new : CircularIntervalBuffer := ⟨[]⟩

def pushBack (b : CircularIntervalBuffer) (item : IntervalStats) : CircularIntervalBuffer :=
  if b.intervals.length ≥ maxIntervals then ⟨b.intervals.drop 1 ++ [item]⟩
  else ⟨b.intervals ++ [item]⟩

def len (b : CircularIntervalBuffer) : ℕ := b.intervals.length

end CircularIntervalBuffer

/-! ### The locked record (`measurements.rs:548-590`, `612-770`) -/

structure StreamStats where
  streamId : ℕ
  bytesSent : UInt64
  bytesReceived : UInt64
  duration : Duration
  retransmits : Option UInt64
  deriving DecidableEq

structure Measurements where
  streams : List StreamStats
  intervals : CircularIntervalBuffer
  totalBytesSent : UInt64
  totalBytesReceived : UInt64
  totalDuration : Duration
  totalPackets : UInt64
  lostPackets : UInt64
  outOfOrderPackets : UInt64
  jitterMs : F64
  startTime : Option Instant
  deriving DecidableEq

namespace Measurements

def new : Measurements :=
  { streams := []
    intervals := CircularIntervalBuffer.new
    totalBytesSent := 0
    totalBytesReceived := 0
    totalDuration := 0
    totalPackets := 0
    lostPackets := 0
    outOfOrderPackets := 0
    jitterMs := 0
    startTime := none }

def totalBitsPerSecond (m : Measurements) : F64 :=
  if Duration.asSecsF64 m.totalDuration > 0 then
    let totalBytes := m.totalBytesSent + m.totalBytesReceived
    (totalBytes.toNat : F64) * 8 / Duration.asSecsF64 m.totalDuration
  else 0

def addInterval (m : Measurements) (interval : IntervalStats) : Measurements :=
  { m with intervals := m.intervals.pushBack interval }

def setDuration (m : Measurements) (duration : Duration) : Measurements :=
  { m with
    totalDuration := duration
    streams := m.streams.map (fun stream => { stream with duration := duration }) }

def setStartTime (m : Measurements) (time : Instant) : Measurements :=
  { m with startTime := some time }

end Measurements

/-! ### Atomic counters of one stream (`measurements.rs:785-815`) -/

structure PerStreamMeasurements where
  streamId : ℕ
  bytesSent : UInt64
  bytesReceived : UInt64
  packets : UInt64
  deriving DecidableEq

namespace PerStreamMeasurements

def new (streamId : ℕ) : PerStreamMeasurements := ⟨streamId, 0, 0, 0⟩

def toStreamStats (s : PerStreamMeasurements) (duration : Duration) : StreamStats :=
  { streamId := s.streamId
    bytesSent := s.bytesSent
    bytesReceived := s.bytesReceived
    duration := duration
    retransmits := none }

end PerStreamMeasurements

/-! ### UDP sequence state (`measurements.rs:858-896`) -/

structure UdpPacketState where
  lastSequence : Option UInt64
  maxSequence : Option UInt64
  receivedCount : UInt64
  lastArrivalUs : Option UInt64
  lastSendTimestampUs : Option UInt64
  jitterMs : F64
  outOfOrder : UInt64
  deriving DecidableEq

def UdpPacketState.default : UdpPacketState :=
  { lastSequence := none
    maxSequence := none
    receivedCount := 0
    lastArrivalUs := none
    lastSendTimestampUs := none
    jitterMs := 0
    outOfOrder := 0 }

def saturatingSub (a b : UInt64) : UInt64 := if b ≤ a then a - b else 0

def absDiff (a b : UInt64) : UInt64 := if b ≤ a then a - b else b - a

def u64Max : UInt64 := 18446744073709551615

namespace UdpPacketState

def nextMax (state : UdpPacketState) (sequence : UInt64) : UInt64 :=
  match state.maxSequence with
  | none => sequence
  | some max => if sequence > max then sequence else max

def isLate (state : UdpPacketState) (sequence : UInt64) : Bool :=
  match state.lastSequence with
  | some lastSeq => sequence < lastSeq
  | none => false

/-- The RFC 3550 filter, in microseconds; it starts with the second packet. -/
def nextJitter (state : UdpPacketState) (sendTimestampUs recvTimestampUs : UInt64) :
    Option F64 :=
  match state.lastArrivalUs, state.lastSendTimestampUs with
  | some lastArrival, some lastSend =>
    let currentTransit := saturatingSub recvTimestampUs sendTimestampUs
    let previousTransit := saturatingSub lastArrival lastSend
    let transitDelta := absDiff currentTransit previousTransit
    some (state.jitterMs + ((transitDelta.toNat : F64) - state.jitterMs) / 16)
  | _, _ => none

end UdpPacketState

/-! ### The collector (`measurements.rs:826-1266`) -/

structure MeasurementsCollector where
  inner : Measurements
  udpState : UdpPacketState
  perStream : List PerStreamMeasurements
  atomicBytesSent : UInt64
  atomicBytesReceived : UInt64
  atomicPackets : UInt64
  deriving DecidableEq

def modifyStream (streamId : ℕ) (f : PerStreamMeasurements → PerStreamMeasurements) :
    List PerStreamMeasurements → List PerStreamMeasurements
  | [] => []
  | s :: ss => if s.streamId = streamId then f s :: ss else s :: modifyStream streamId f ss

namespace MeasurementsCollector

def new : MeasurementsCollector :=
  { inner := Measurements.new
    udpState := UdpPacketState.default
    perStream := []
    atomicBytesSent := 0
    atomicBytesReceived := 0
    atomicPackets := 0 }

def getOrCreateStream (c : MeasurementsCollector) (streamId : ℕ) : MeasurementsCollector :=
  match c.perStream.find? (fun s => s.streamId = streamId) with
  | some _ => c
  | none => { c with perStream := c.perStream ++ [PerStreamMeasurements.new streamId] }

def recordBytesSent (c : MeasurementsCollector) (streamId : ℕ) (bytes : UInt64) :
    MeasurementsCollector :=
  let c := { c with atomicBytesSent := c.atomicBytesSent + bytes }
  let c := c.getOrCreateStream streamId
  { c with
    perStream := modifyStream streamId
      (fun s => { s with bytesSent := s.bytesSent + bytes }) c.perStream }

def recordBytesReceived (c : MeasurementsCollector) (streamId : ℕ) (bytes : UInt64) :
    MeasurementsCollector :=
  let c := { c with atomicBytesReceived := c.atomicBytesReceived + bytes }
  let c := c.getOrCreateStream streamId
  { c with
    perStream := modifyStream streamId
      (fun s => { s with bytesReceived := s.bytesReceived + bytes }) c.perStream }

def addInterval (c : MeasurementsCollector) (interval : IntervalStats) : MeasurementsCollector :=
  { c with inner := c.inner.addInterval interval }

def recordUdpPacket (c : MeasurementsCollector) (streamId : ℕ) : MeasurementsCollector :=
  let c := { c with atomicPackets := c.atomicPackets + 1 }
  let c := c.getOrCreateStream streamId
  { c with
    perStream := modifyStream streamId
      (fun s => { s with packets := s.packets + 1 }) c.perStream }

def syncAtomicCounters (c : MeasurementsCollector) : MeasurementsCollector :=
  { c with
    inner := { c.inner with
      totalBytesSent := c.atomicBytesSent
      totalBytesReceived := c.atomicBytesReceived
      totalPackets := c.atomicPackets } }

def recordUdpPacketReceived (c : MeasurementsCollector)
    (sequence sendTimestampUs recvTimestampUs : UInt64) : MeasurementsCollector :=
  -- initialization packets are ignored
  if sequence = u64Max then c
  else
    let state := c.udpState
    let m := c.inner
    let late := state.isLate sequence
    let jitter := state.nextJitter sendTimestampUs recvTimestampUs
    { c with
      inner := { m with
        outOfOrderPackets := if late then m.outOfOrderPackets + 1 else m.outOfOrderPackets
        jitterMs := (jitter.map (· / 1000)).getD m.jitterMs }
      udpState :=
        { lastSequence := some sequence
          maxSequence := some (state.nextMax sequence)
          receivedCount := state.receivedCount + 1
          lastArrivalUs := some recvTimestampUs
          lastSendTimestampUs := some sendTimestampUs
          jitterMs := jitter.getD state.jitterMs
          outOfOrder := if late then state.outOfOrder + 1 else state.outOfOrder } }

def calculateUdpLoss (c : MeasurementsCollector) : UInt64 × UInt64 :=
  match c.udpState.maxSequence with
  | none => (0, 0)
  | some maxSeq =>
    let expected := maxSeq + 1
    (saturatingSub expected c.udpState.receivedCount, expected)

def setDuration (c : MeasurementsCollector) (duration : Duration) : MeasurementsCollector :=
  { c with inner := c.inner.setDuration duration }

def setStartTime (c : MeasurementsCollector) (time : Instant) : MeasurementsCollector :=
  { c with inner := c.inner.setStartTime time }

/-- A snapshot: the locked record with the atomic counters copied in, and the UDP loss when bytes
were received. -/
def get (c : MeasurementsCollector) : Measurements :=
  let m := { c.inner with
    totalBytesSent := c.atomicBytesSent
    totalBytesReceived := c.atomicBytesReceived
    totalPackets := c.atomicPackets
    streams := c.perStream.map (fun s => s.toStreamStats c.inner.totalDuration) }
  if m.totalBytesReceived > 0 then
    { m with lostPackets := c.calculateUdpLoss.1, totalPackets := c.calculateUdpLoss.2 }
  else m

def getStreamStats (c : MeasurementsCollector) (streamId : ℕ) : Option StreamStats :=
  c.inner.streams.find? (fun s => s.streamId = streamId)

end MeasurementsCollector

/-! ### Calls that change a collector -/

inductive CollectorCall where
  | recordBytesSent (streamId : ℕ) (bytes : UInt64)
  | recordBytesReceived (streamId : ℕ) (bytes : UInt64)
  | recordUdpPacket (streamId : ℕ)
  | recordUdpPacketReceived (sequence sendTimestampUs recvTimestampUs : UInt64)
  | addInterval (interval : IntervalStats)
  | setDuration (duration : Duration)
  | setStartTime (time : Instant)
  | get
  deriving DecidableEq

namespace MeasurementsCollector

def call (c : MeasurementsCollector) : CollectorCall → MeasurementsCollector
  | .recordBytesSent streamId bytes => c.recordBytesSent streamId bytes
  | .recordBytesReceived streamId bytes => c.recordBytesReceived streamId bytes
  | .recordUdpPacket streamId => c.recordUdpPacket streamId
  | .recordUdpPacketReceived sequence sent received =>
    c.recordUdpPacketReceived sequence sent received
  | .addInterval interval => c.addInterval interval
  | .setDuration duration => c.setDuration duration
  | .setStartTime time => c.setStartTime time
  | .get => c

def calls (c : MeasurementsCollector) (cs : List CollectorCall) : MeasurementsCollector :=
  cs.foldl call c

theorem calls_cons (c : MeasurementsCollector) (x : CollectorCall) (cs : List CollectorCall) :
    c.calls (x :: cs) = (c.call x).calls cs := rfl

end MeasurementsCollector

def CollectorCall.sent : CollectorCall → UInt64
  | .recordBytesSent _ bytes => bytes
  | _ => 0

def CollectorCall.received : CollectorCall → UInt64
  | .recordBytesReceived _ bytes => bytes
  | _ => 0

section Frames

variable (c : MeasurementsCollector)

@[simp] theorem getOrCreateStream_inner (k : ℕ) : (c.getOrCreateStream k).inner = c.inner := by
  unfold MeasurementsCollector.getOrCreateStream
  split <;> rfl

@[simp] theorem getOrCreateStream_udpState (k : ℕ) :
    (c.getOrCreateStream k).udpState = c.udpState := by
  unfold MeasurementsCollector.getOrCreateStream
  split <;> rfl

@[simp] theorem getOrCreateStream_sent (k : ℕ) :
    (c.getOrCreateStream k).atomicBytesSent = c.atomicBytesSent := by
  unfold MeasurementsCollector.getOrCreateStream
  split <;> rfl

@[simp] theorem getOrCreateStream_received (k : ℕ) :
    (c.getOrCreateStream k).atomicBytesReceived = c.atomicBytesReceived := by
  unfold MeasurementsCollector.getOrCreateStream
  split <;> rfl

@[simp] theorem getOrCreateStream_packets (k : ℕ) :
    (c.getOrCreateStream k).atomicPackets = c.atomicPackets := by
  unfold MeasurementsCollector.getOrCreateStream
  split <;> rfl

/-- A received packet touches the sequence state and the locked record only, and of that neither
byte total. -/
theorem recordUdpPacketReceived_frame (seq sent received : UInt64) :
    (c.recordUdpPacketReceived seq sent received).perStream = c.perStream ∧
    (c.recordUdpPacketReceived seq sent received).atomicBytesSent = c.atomicBytesSent ∧
    (c.recordUdpPacketReceived seq sent received).atomicBytesReceived = c.atomicBytesReceived ∧
    (c.recordUdpPacketReceived seq sent received).inner.totalBytesSent =
      c.inner.totalBytesSent ∧
    (c.recordUdpPacketReceived seq sent received).inner.totalBytesReceived =
      c.inner.totalBytesReceived := by
  unfold MeasurementsCollector.recordUdpPacketReceived
  by_cases h : seq = u64Max
  · rw [if_pos h]
    exact ⟨rfl, rfl, rfl, rfl, rfl⟩
  · rw [if_neg h]
    exact ⟨rfl, rfl, rfl, rfl, rfl⟩

end Frames

/-! ### The counters of one stream -/

def MeasurementsCollector.entry (c : MeasurementsCollector) (k : ℕ) : PerStreamMeasurements :=
  (c.perStream.find? (fun s => s.streamId = k)).getD (PerStreamMeasurements.new k)

theorem find_modifyStream {k : ℕ} {f : PerStreamMeasurements → PerStreamMeasurements}
    (hf : ∀ s, (f s).streamId = s.streamId) (ss : List PerStreamMeasurements) :
    (modifyStream k f ss).find? (fun s => s.streamId = k) =
      (ss.find? (fun s => s.streamId = k)).map f := by
  induction ss with
  | nil => rfl
  | cons s ss ih =>
    unfold modifyStream
    by_cases hk : s.streamId = k
    · simp [hk, hf]
    · simp [hk, ih]

theorem find_getOrCreateStream (c : MeasurementsCollector) (k : ℕ) :
    (c.getOrCreateStream k).perStream.find? (fun s => s.streamId = k) = some (c.entry k) := by
  unfold MeasurementsCollector.getOrCreateStream MeasurementsCollector.entry
  cases h : c.perStream.find? (fun s => s.streamId = k) with
  | some s => exact h
  | none => simp [List.find?_append, h, PerStreamMeasurements.new]

theorem entry_modifyStream (c : MeasurementsCollector) (k : ℕ)
    {f : PerStreamMeasurements → PerStreamMeasurements}
    (hf : ∀ s, (f s).streamId = s.streamId) :
    ((modifyStream k f (c.getOrCreateStream k).perStream).find?
      (fun s => s.streamId = k)).getD (PerStreamMeasurements.new k) = f (c.entry k) := by
  rw [find_modifyStream hf, find_getOrCreateStream]
  rfl

@[simp] theorem entry_recordBytesSent (c : MeasurementsCollector) (k : ℕ) (bytes : UInt64) :
    (c.recordBytesSent k bytes).entry k =
      { c.entry k with bytesSent := (c.entry k).bytesSent + bytes } :=
  entry_modifyStream { c with atomicBytesSent := c.atomicBytesSent + bytes } k (fun _ => rfl)

@[simp] theorem entry_recordUdpPacket (c : MeasurementsCollector) (k : ℕ) :
    (c.recordUdpPacket k).entry k =
      { c.entry k with packets := (c.entry k).packets + 1 } :=
  entry_modifyStream { c with atomicPackets := c.atomicPackets + 1 } k (fun _ => rfl)

/-! ### The two copies of the byte counters -/

/-- No call writes the byte totals of the locked record. -/
theorem call_inner_totals (c : MeasurementsCollector) (x : CollectorCall) :
    (c.call x).inner.totalBytesSent = c.inner.totalBytesSent ∧
    (c.call x).inner.totalBytesReceived = c.inner.totalBytesReceived := by
  cases x with
  | recordUdpPacketReceived seq sent received =>
    exact ⟨(recordUdpPacketReceived_frame c seq sent received).2.2.2.1,
      (recordUdpPacketReceived_frame c seq sent received).2.2.2.2⟩
  | recordBytesSent k bytes =>
    simp [MeasurementsCollector.call, MeasurementsCollector.recordBytesSent]
  | recordBytesReceived k bytes =>
    simp [MeasurementsCollector.call, MeasurementsCollector.recordBytesReceived]
  | recordUdpPacket k =>
    simp [MeasurementsCollector.call, MeasurementsCollector.recordUdpPacket]
  | addInterval interval => exact ⟨rfl, rfl⟩
  | setDuration duration => exact ⟨rfl, rfl⟩
  | setStartTime time => exact ⟨rfl, rfl⟩
  | get => exact ⟨rfl, rfl⟩

theorem call_intervals (c : MeasurementsCollector) {x : CollectorCall}
    (h : ∀ interval, x ≠ .addInterval interval) :
    (c.call x).inner.intervals = c.inner.intervals := by
  cases x with
  | addInterval interval => exact absurd rfl (h interval)
  | recordBytesSent k bytes =>
    simp [MeasurementsCollector.call, MeasurementsCollector.recordBytesSent]
  | recordBytesReceived k bytes =>
    simp [MeasurementsCollector.call, MeasurementsCollector.recordBytesReceived]
  | recordUdpPacket k =>
    simp [MeasurementsCollector.call, MeasurementsCollector.recordUdpPacket]
  | recordUdpPacketReceived sequence sent received =>
    simp only [MeasurementsCollector.call, MeasurementsCollector.recordUdpPacketReceived]
    split <;> rfl
  | setDuration duration => rfl
  | setStartTime time => rfl
  | get => rfl

theorem call_atomics (c : MeasurementsCollector) (x : CollectorCall) :
    (c.call x).atomicBytesSent = c.atomicBytesSent + x.sent ∧
    (c.call x).atomicBytesReceived = c.atomicBytesReceived + x.received := by
  cases x with
  | recordUdpPacketReceived seq sent received =>
    obtain ⟨-, hsent, hreceived, -⟩ := recordUdpPacketReceived_frame c seq sent received
    simp only [MeasurementsCollector.call, CollectorCall.sent, CollectorCall.received,
      UInt64.add_zero, hsent, hreceived, and_self]
  | recordBytesSent k bytes =>
    simp [MeasurementsCollector.call, MeasurementsCollector.recordBytesSent, CollectorCall.sent,
      CollectorCall.received]
  | recordBytesReceived k bytes =>
    simp [MeasurementsCollector.call, MeasurementsCollector.recordBytesReceived,
      CollectorCall.sent, CollectorCall.received]
  | recordUdpPacket k =>
    simp [MeasurementsCollector.call, MeasurementsCollector.recordUdpPacket, CollectorCall.sent,
      CollectorCall.received]
  | addInterval interval => exact ⟨(UInt64.add_zero _).symm, (UInt64.add_zero _).symm⟩
  | setDuration duration => exact ⟨(UInt64.add_zero _).symm, (UInt64.add_zero _).symm⟩
  | setStartTime time => exact ⟨(UInt64.add_zero _).symm, (UInt64.add_zero _).symm⟩
  | get => exact ⟨(UInt64.add_zero _).symm, (UInt64.add_zero _).symm⟩

theorem calls_inner_totals (c : MeasurementsCollector) (cs : List CollectorCall) :
    (c.calls cs).inner.totalBytesSent = c.inner.totalBytesSent ∧
    (c.calls cs).inner.totalBytesReceived = c.inner.totalBytesReceived := by
  induction cs generalizing c with
  | nil => exact ⟨rfl, rfl⟩
  | cons x cs ih =>
    obtain ⟨hs, hr⟩ := call_inner_totals c x
    rw [MeasurementsCollector.calls_cons, (ih (c.call x)).1, (ih (c.call x)).2]
    exact ⟨hs, hr⟩

theorem calls_atomics (c : MeasurementsCollector) (cs : List CollectorCall) :
    (c.calls cs).atomicBytesSent = c.atomicBytesSent + (cs.map CollectorCall.sent).sum ∧
    (c.calls cs).atomicBytesReceived =
      c.atomicBytesReceived + (cs.map CollectorCall.received).sum := by
  induction cs generalizing c with
  | nil => exact ⟨(UInt64.add_zero _).symm, (UInt64.add_zero _).symm⟩
  | cons x cs ih =>
    obtain ⟨hs, hr⟩ := call_atomics c x
    rw [MeasurementsCollector.calls_cons, (ih (c.call x)).1, (ih (c.call x)).2, hs, hr]
    simp only [List.map_cons, List.sum_cons, UInt64.add_assoc, and_self]

theorem get_totals (c : MeasurementsCollector) :
    c.get.totalBytesSent = c.atomicBytesSent ∧
    c.get.totalBytesReceived = c.atomicBytesReceived := by
  unfold MeasurementsCollector.get
  dsimp only
  split <;> exact ⟨rfl, rfl⟩

end Rperf3
