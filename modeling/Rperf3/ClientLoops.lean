import Rperf3.UdpSend

/-!
# Data loops of the client (`client.rs:943-1478`, `1535-1763`)

The loops of TCP and of UDP receive record every transfer in the collector and
hand a report of each interval to the reporter task, which turns it into an event
for the callback (`interval_reporter.rs`). The two loops of UDP send are those of
`UdpSend`; here are the reports they make. What a report holds for printing only
is left out.
-/

namespace Rperf3

/-! ### Events (`client.rs:152-212`, `interval_reporter.rs:38-167`) -/

inductive ProgressEvent where
  | testStarted
  | intervalUpdate (intervalStart intervalEnd : Duration) (bytes : UInt64) (bitsPerSecond : F64)
      (packets : Option UInt64) (jitterMs : Option F64) (lostPackets : Option UInt64)
      (lostPercent : Option F64) (retransmits : Option UInt64)
  | testCompleted (totalBytes : UInt64) (duration : Duration) (bitsPerSecond : F64)
      (totalPackets : Option UInt64) (jitterMs : Option F64) (lostPackets : Option UInt64)
      (lostPercent : Option F64) (outOfOrder : Option UInt64)
  deriving DecidableEq

def ProgressEvent.completedBytes : ProgressEvent → Option UInt64
  | .testCompleted totalBytes .. => some totalBytes
  | _ => none

structure IntervalReport where
  intervalStart : Duration
  intervalEnd : Duration
  bytes : UInt64
  bitsPerSecond : F64
  packets : Option UInt64
  jitterMs : Option F64
  lostPackets : Option UInt64
  lostPercent : Option F64
  retransmits : Option UInt64

inductive IntervalMessage where
  | report (r : IntervalReport)
  | complete

/-- The events the reporter task makes of its messages, until the one that ends it. -/
def runReporterTask : List IntervalMessage → List ProgressEvent
  | .report r :: msgs =>
    .intervalUpdate r.intervalStart r.intervalEnd r.bytes r.bitsPerSecond r.packets r.jitterMs
      r.lostPackets r.lostPercent r.retransmits :: runReporterTask msgs
  | _ => []

theorem runReporterTask_completedBytes (msgs : List IntervalMessage) :
    (runReporterTask msgs).filterMap ProgressEvent.completedBytes = [] := by
  induction msgs with
  | nil => rfl
  | cons msg msgs ih =>
    cases msg with
    | report r => exact ih
    | complete => rfl

def lossPercent (loss : UInt64 × UInt64) : F64 :=
  if loss.2 > 0 then (loss.1.toNat : F64) / loss.2.toNat * 100 else 0

def udpReport (c : MeasurementsCollector) (stats : IntervalStats) : IntervalReport :=
  { intervalStart := stats.start
    intervalEnd := stats.finish
    bytes := stats.bytes
    bitsPerSecond := stats.bitsPerSecond
    packets := some stats.packets
    jitterMs := some c.get.jitterMs
    lostPackets := some c.calculateUdpLoss.1
    lostPercent := some (lossPercent c.calculateUdpLoss)
    retransmits := none }

def tcpReport (stats : IntervalStats) (retransmits : UInt64) : IntervalReport :=
  { intervalStart := stats.start
    intervalEnd := stats.finish
    bytes := stats.bytes
    bitsPerSecond := stats.bitsPerSecond
    packets := none
    jitterMs := none
    lostPackets := none
    lostPercent := none
    retransmits := if retransmits > 0 then some retransmits else none }

/-! ### The loops of TCP and of UDP receive -/

structure ClientTick (α : Type) where
  now : Instant
  cancelled : Bool
  result : IoResult α
  clock : IntervalClock
  /-- retransmissions so far, read when an interval is reported -/
  retransmits : Option UInt64

/-- What one outcome adds: the calls count exactly its bytes. -/
structure Transfer where
  calls : List CollectorCall
  sent : ℕ
  received : ℕ
  packets : UInt64
  countsSent : (calls.map CollectorCall.sent).sum = UInt64.ofNat sent
  countsReceived : (calls.map CollectorCall.received).sum = UInt64.ofNat received

structure ClientLoop where
  collector : MeasurementsCollector
  loop : LoopState
  lastRetransmits : UInt64
  reports : List IntervalReport
  sent : ℕ
  received : ℕ

def ClientLoop.init (cfg : LoopConfig) (c : MeasurementsCollector) : ClientLoop :=
  ⟨c, cfg.first, 0, [], 0, 0⟩

/-- Where the loops differ; `none` leaves the loop. -/
structure ClientBody (α : Type) where
  onIo : α → Option Transfer
  packets : LoopState → UInt64
  report : MeasurementsCollector → IntervalStats → UInt64 → IntervalReport
  /-- after a timeout the duration is checked once more -/
  checksAfterTimeout : Bool

def ClientLoop.record {α : Type} (st : ClientLoop) (body : ClientBody α) (cfg : LoopConfig)
    (transfer : Transfer) (t : ClientTick α) : ClientLoop :=
  let st := { st with
    collector := st.collector.calls transfer.calls
    loop := { st.loop with
      intervalBytes := st.loop.intervalBytes + UInt64.ofNat (transfer.sent + transfer.received)
      intervalPackets := st.loop.intervalPackets + transfer.packets }
    sent := st.sent + transfer.sent
    received := st.received + transfer.received }
  if t.clock.check - st.loop.lastInterval ≥ cfg.interval then
    let stats := intervalStats cfg (body.packets st.loop) st.loop t.clock
    let collector := st.collector.addInterval stats
    let current := t.retransmits.getD 0
    { st with
      collector := collector
      loop := ⟨t.clock.reset, 0, 0⟩
      lastRetransmits := current
      reports := st.reports ++
        [body.report collector stats (saturatingSub current st.lastRetransmits)] }
  else st

def clientLoop {α : Type} (body : ClientBody α) (cfg : LoopConfig) :
    ClientLoop → List (ClientTick α) → ClientLoop
  | st, [] => st
  | st, t :: ts =>
    if t.now - cfg.start < cfg.duration then
      if t.cancelled then st
      else
        match t.result with
        | .ok a =>
          match body.onIo a with
          | none => st
          | some transfer => clientLoop body cfg (st.record body cfg transfer t) ts
        | .error _ => st
        | .timeout =>
          if body.checksAfterTimeout ∧ t.clock.elapsed - cfg.start ≥ cfg.duration then st
          else clientLoop body cfg st ts
    else st

def defaultStreamId : ℕ := 5

namespace Client

/-- `send_data` (`client.rs:1535-1642`). -/
def sendData : ClientBody ℕ where
  onIo n := some
    { calls := [.recordBytesSent defaultStreamId (UInt64.ofNat n)]
      sent := n
      received := 0
      packets := 0
      countsSent := UInt64.add_zero _
      countsReceived := rfl }
  packets _ := u64Max
  report _ := tcpReport
  checksAfterTimeout := false

/-- `receive_data` (`client.rs:1644-1763`); a read of zero bytes ends it. -/
def receiveData : ClientBody ℕ where
  onIo n :=
    if n = 0 then none
    else some
      { calls := [.recordBytesReceived defaultStreamId (UInt64.ofNat n)]
        sent := 0
        received := n
        packets := 0
        countsSent := rfl
        countsReceived := UInt64.add_zero _ }
  packets _ := u64Max
  report _ := tcpReport
  checksAfterTimeout := true

/-- `run_udp_receive` (`client.rs:1324-1478`): a datagram and the wall clock. -/
def udpReceive : ClientBody (Bytes × UInt64) where
  onIo a := some
    { calls := ((parsePacket a.1).map fun p =>
          CollectorCall.recordUdpPacketReceived p.1.sequence.toUInt64 p.1.timestampUs a.2).toList ++
        [.recordBytesReceived 0 (UInt64.ofNat a.1.length)]
      sent := 0
      received := a.1.length
      packets := 1
      countsSent := by cases parsePacket a.1 <;> rfl
      countsReceived := by
        cases parsePacket a.1 with
        | none => exact UInt64.add_zero _
        | some p => exact (UInt64.zero_add _).trans (UInt64.add_zero _) }
  packets st := st.intervalPackets
  report c stats _ := udpReport c stats
  checksAfterTimeout := false

end Client

/-! ### Reports of UDP send -/

def SendState.reportOf (p : SendParams) (st : SendState) (clock : IntervalClock)
    (bytes packets : ℕ) : List IntervalReport :=
  let loop := { st.loop with
    intervalBytes := st.loop.intervalBytes + UInt64.ofNat bytes
    intervalPackets := st.loop.intervalPackets + UInt64.ofNat packets }
  if clock.check - loop.lastInterval ≥ p.loop.interval then
    [udpReport (st.count p clock bytes packets).collector
      (intervalStats p.loop loop.intervalPackets loop clock)]
  else []

def standardReports (p : SendParams) : SendState → List SendTick → List IntervalReport
  | _, [] => []
  | st, t :: ts =>
    if t.now - p.loop.start < p.loop.duration then
      if t.cancelled then []
      else
        let packet := testPacket p st.sequence t.stamp
        match t.result with
        | .error _ => []
        | .ok n =>
          let st : SendState := { st with
            collector := recordSent st.collector n 1
            sequence := st.sequence + 1
            handed := st.handed ++ [⟨packet, p.peer, n⟩] }
          st.reportOf p t.clock n 1 ++ standardReports p (st.count p t.clock n 1) ts
    else []

def batchedReports (p : SendParams) : BatchedState → List BatchTick → List IntervalReport
  | _, [] => []
  | st, t :: ts =>
    if t.now - p.loop.start < p.loop.duration then
      if t.cancelled then []
      else
        let st := fillBatch p st t.fills
        if st.batch.isEmpty then batchedReports p st ts
        else
          match st.batch.send t.kernel with
          | (.error _, _) => []
          | (.ok (bytesSent, packetsSent), batch) =>
            let sent : SendState := { st.toSendState with
              collector := recordSent st.collector bytesSent packetsSent
              handed := st.handed ++ st.batch.handedBy t.kernel }
            sent.reportOf p t.clock bytesSent packetsSent ++
              batchedReports p ⟨sent.count p t.clock bytesSent packetsSent, batch⟩ ts
    else []

/-! ### What the loops count -/

/-- Since `c`, the byte counters have grown by this much. -/
structure Grown (c c' : MeasurementsCollector) (sent received : ℕ) : Prop where
  sent : c'.atomicBytesSent = c.atomicBytesSent + UInt64.ofNat sent
  received : c'.atomicBytesReceived = c.atomicBytesReceived + UInt64.ofNat received

theorem grown_refl (c : MeasurementsCollector) : Grown c c 0 0 :=
  ⟨(UInt64.add_zero _).symm, (UInt64.add_zero _).symm⟩

theorem Grown.trans {a b c : MeasurementsCollector} {s r s' r' : ℕ} (h : Grown a b s r)
    (h' : Grown b c s' r') : Grown a c (s + s') (r + r') := by
  constructor
  · rw [h'.sent, h.sent, UInt64.ofNat_add, UInt64.add_assoc]
  · rw [h'.received, h.received, UInt64.ofNat_add, UInt64.add_assoc]

theorem grown_calls (c : MeasurementsCollector) {cs : List CollectorCall} {s r : ℕ}
    (hs : (cs.map CollectorCall.sent).sum = UInt64.ofNat s)
    (hr : (cs.map CollectorCall.received).sum = UInt64.ofNat r) : Grown c (c.calls cs) s r := by
  obtain ⟨hsent, hreceived⟩ := calls_atomics c cs
  exact ⟨by rw [hsent, hs], by rw [hreceived, hr]⟩

theorem Grown.withInner {c c' : MeasurementsCollector} {s r : ℕ} (h : Grown c c' s r)
    (m : Measurements) : Grown c { c' with inner := m } s r := ⟨h.sent, h.received⟩

theorem grown_record {α : Type} {c : MeasurementsCollector} {st : ClientLoop}
    (body : ClientBody α) (cfg : LoopConfig) (transfer : Transfer) (t : ClientTick α)
    (h : Grown c st.collector st.sent st.received) :
    Grown c (st.record body cfg transfer t).collector (st.record body cfg transfer t).sent
      (st.record body cfg transfer t).received := by
  have hcalls := h.trans (grown_calls st.collector transfer.countsSent transfer.countsReceived)
  unfold ClientLoop.record
  dsimp only
  split
  · exact hcalls.withInner _
  · exact hcalls

/-- What recording a transfer keeps, the loop keeps, whatever ends it. -/
theorem clientLoop_invariant {α : Type} {body : ClientBody α} {cfg : LoopConfig}
    {I : ClientLoop → Prop}
    (hrecord : ∀ st a transfer t, body.onIo a = some transfer → I st →
      I (st.record body cfg transfer t)) {st : ClientLoop} (h : I st)
    (ts : List (ClientTick α)) : I (clientLoop body cfg st ts) := by
  induction ts generalizing st with
  | nil => exact h
  | cons t ts ih =>
    unfold clientLoop
    by_cases hnow : t.now - cfg.start < cfg.duration
    · rw [if_pos hnow]
      by_cases hcancel : t.cancelled = true
      · rw [if_pos hcancel]
        exact h
      · rw [if_neg hcancel]
        cases t.result with
        | ok a =>
          dsimp only
          cases hio : body.onIo a with
          | none => exact h
          | some transfer => exact ih (hrecord st a transfer t hio h)
        | error e => exact h
        | timeout =>
          dsimp only
          split
          · exact h
          · exact ih h
    · rw [if_neg hnow]
      exact h

theorem clientLoop_grown {α : Type} {c : MeasurementsCollector} (body : ClientBody α)
    (cfg : LoopConfig) (st : ClientLoop) (ts : List (ClientTick α))
    (h : Grown c st.collector st.sent st.received) :
    Grown c (clientLoop body cfg st ts).collector (clientLoop body cfg st ts).sent
      (clientLoop body cfg st ts).received := by
  refine clientLoop_invariant (I := fun st => Grown c st.collector st.sent st.received) ?_ h ts
  intro st a transfer t _ hst
  exact grown_record body cfg transfer t hst

theorem clientLoop_oneSided {α : Type} (body : ClientBody α) (cfg : LoopConfig)
    (proj : ClientLoop → ℕ) (part : Transfer → ℕ)
    (hrecord : ∀ st transfer t, proj (st.record body cfg transfer t) = proj st + part transfer)
    (hbody : ∀ a transfer, body.onIo a = some transfer → part transfer = 0)
    (st : ClientLoop) (ts : List (ClientTick α)) :
    proj (clientLoop body cfg st ts) = proj st := by
  refine clientLoop_invariant (I := fun st' => proj st' = proj st) ?_ rfl ts
  intro st' a transfer t hio hst'
  rw [hrecord, hbody a transfer hio, hst', Nat.add_zero]

theorem recordSent_eq_calls (c : MeasurementsCollector) (bytes packets : ℕ) :
    recordSent c bytes packets =
      c.calls (.recordBytesSent 0 (UInt64.ofNat bytes) ::
        List.replicate packets (.recordUdpPacket 0)) := by
  have hiterate : ∀ c : MeasurementsCollector,
      (fun c => c.recordUdpPacket 0)^[packets] c =
        c.calls (List.replicate packets (.recordUdpPacket 0)) := by
    induction packets with
    | zero => exact fun _ => rfl
    | succ n ih =>
      intro c
      rw [Function.iterate_succ_apply, ih]
      rfl
  exact hiterate _

theorem sum_replicate_zero (n : ℕ) : (List.replicate n (0 : UInt64)).sum = 0 := by
  induction n with
  | zero => rfl
  | succ n ih =>
    rw [List.replicate_succ, List.sum_cons, ih]
    rfl

theorem grown_recordSent (c : MeasurementsCollector) (bytes packets : ℕ) :
    Grown c (recordSent c bytes packets) bytes 0 := by
  rw [recordSent_eq_calls]
  apply grown_calls
  · simp only [List.map_cons, List.map_replicate, List.sum_cons, CollectorCall.sent,
      sum_replicate_zero, UInt64.add_zero]
  · simp only [List.map_cons, List.map_replicate, List.sum_cons, CollectorCall.received,
      sum_replicate_zero]
    rfl

theorem SendState.count_collector (p : SendParams) (st : SendState) (clock : IntervalClock)
    (bytes packets : ℕ) {c : MeasurementsCollector} {s r : ℕ} (h : Grown c st.collector s r) :
    Grown c (st.count p clock bytes packets).collector s r := by
  obtain ⟨-, -, m, hcollector⟩ := count_frame p st clock bytes packets
  rw [hcollector]
  exact h.withInner m

def bytesHanded (hs : List Handed) : ℕ := (hs.map Handed.msgLen).sum

theorem bytesHanded_append (hs hs' : List Handed) :
    bytesHanded (hs ++ hs') = bytesHanded hs + bytesHanded hs' := by
  simp only [bytesHanded, List.map_append, List.sum_append]

theorem standardLoop_grown {c : MeasurementsCollector} (p : SendParams) (st : SendState)
    (ts : List SendTick) (h : Grown c st.collector (bytesHanded st.handed) 0) :
    Grown c (standardLoop p st ts).collector (bytesHanded (standardLoop p st ts).handed) 0 := by
  induction ts generalizing st with
  | nil => exact h
  | cons t ts ih =>
    unfold standardLoop
    split
    · split
      · exact h
      · cases t.result with
        | error e => exact h
        | ok n =>
          apply ih
          rw [(count_frame ..).1, bytesHanded_append]
          exact SendState.count_collector _ _ _ _ _ (h.trans (grown_recordSent _ n 1))
    · exact h

theorem fillBatch_frame (p : SendParams) (st : BatchedState) (fills : List Fill) :
    (fillBatch p st fills).collector = st.collector ∧
    (fillBatch p st fills).handed = st.handed := by
  induction fills generalizing st with
  | nil => exact ⟨rfl, rfl⟩
  | cons f fs ih =>
    unfold fillBatch
    split
    · exact ih _
    · exact ⟨rfl, rfl⟩

theorem batchedLoop_grown {c : MeasurementsCollector} (p : SendParams) (st : BatchedState)
    (ts : List BatchTick) (h : Grown c st.collector (bytesHanded st.handed) 0) :
    Grown c (batchedLoop p st ts).collector (bytesHanded (batchedLoop p st ts).handed) 0 := by
  refine batchedLoop_invariant (I := fun st => Grown c st.collector (bytesHanded st.handed) 0)
    ?_ (fun _ _ _ _ hst _ => hst) ?_ h ts
  · intro st fills hst
    obtain ⟨hcollector, hhanded⟩ := fillBatch_frame p st fills
    rwa [hcollector, hhanded]
  · intro st kernel bytesSent packetsSent batch clock _ hst hsend
    have hbytes : bytesSent = bytesHanded (st.batch.handedBy kernel) := (send_ok hsend).2.2.1
    simp only
    rw [(count_frame ..).1, bytesHanded_append, ← hbytes]
    exact SendState.count_collector _ _ _ _ _ (hst.trans (grown_recordSent _ bytesSent _))

end Rperf3
