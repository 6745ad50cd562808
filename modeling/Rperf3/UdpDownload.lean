import Rperf3.ServerPacing
import Rperf3.UdpUpload

/-!
# A reversed UDP test from end to end (`server.rs:881-1020`, `client.rs:1318-1480`)

The server numbers the datagrams and paces them; the client counts them. The
sender stops at a fault, so that its numbers never repeat, and the figures of the
client follow from what the network did without a bound on the run.
-/

namespace Rperf3
open SharedRun

/-! ### The datagrams of the server -/

/-- The datagrams of `send_udp_data`, up to the fault that ends it, if any. -/
def pacedPackets (cfg : LoopConfig) (pacing : Pacing) (payloadSize : ℕ) :
    PacingState → List (PacedEvent × Stamp) → List Bytes
  | _, [] => []
  | p, (e, stamp) :: es =>
    if e.io.now - cfg.start < cfg.duration then
      match e.io.result with
      | .ok n =>
        let packet := (createPacketFast stamp.cache stamp.reading 0 p.sequence payloadSize).1
        match p.afterSend pacing n e with
        | .error _ => [packet]
        | .ok p => packet :: pacedPackets cfg pacing payloadSize p es
      | .error _ => []
      | .timeout => pacedPackets cfg pacing payloadSize p es
    else []

theorem afterSend_sequence {pacing : Pacing} {p p' : PacingState} {n : UInt64} {e : PacedEvent}
    (hnumbered : pacing.numbered = true) (h : p.afterSend pacing n e = .ok p') :
    p'.sequence.toNat = p.sequence.toNat + 1 := by
  have hsafe : StepSafe pacing p n e := by
    by_contra hunsafe
    obtain ⟨fault, hfault⟩ := afterSend_error hunsafe
    rw [hfault] at h
    cases h
  obtain ⟨q, hq, hnumber, -⟩ := afterSend_ok hsafe
  rw [hq] at h
  cases h
  exact hnumber hnumbered

section Server

variable {cfg : LoopConfig} {pacing : Pacing} {payloadSize : ℕ}

/-- The numbers go up by one, and none of them is used twice. -/
theorem pacedPackets_numbers (hnumbered : pacing.numbered = true) (p : PacingState)
    (es : List (PacedEvent × Stamp)) :
    (pacedPackets cfg pacing payloadSize p es).map headerSequence =
      List.range' p.sequence.toNat (pacedPackets cfg pacing payloadSize p es).length := by
  induction es generalizing p with
  | nil => rfl
  | cons x es ih =>
    obtain ⟨e, stamp⟩ := x
    unfold pacedPackets
    by_cases hnow : e.io.now - cfg.start < cfg.duration
    · rw [if_pos hnow]
      cases e.io.result with
      | error kind => rfl
      | timeout => exact ih p
      | ok n =>
        have hfirst : headerSequence
            (createPacketFast stamp.cache stamp.reading 0 p.sequence payloadSize).1 =
            p.sequence.toNat := headerSequence_packetBytes ..
        cases hsend : p.afterSend pacing n e with
        | error fault =>
          simp only [hsend, List.map_cons, List.map_nil, hfirst, List.length_singleton,
            List.range'_one]
        | ok p' =>
          simp only [hsend, List.map_cons, hfirst, List.length_cons, List.range'_succ, ih p',
            afterSend_sequence hnumbered hsend]
    · rw [if_neg hnow]
      rfl

theorem mem_pacedPackets {p : PacingState} {es : List (PacedEvent × Stamp)} {packet : Bytes}
    (h : packet ∈ pacedPackets cfg pacing payloadSize p es) :
    IsTestPacket payloadSize packet := by
  induction es generalizing p with
  | nil => exact absurd h List.not_mem_nil
  | cons x es ih =>
    obtain ⟨e, stamp⟩ := x
    unfold pacedPackets at h
    by_cases hnow : e.io.now - cfg.start < cfg.duration
    · rw [if_pos hnow] at h
      cases hresult : e.io.result with
      | error kind =>
        rw [hresult] at h
        exact absurd h List.not_mem_nil
      | timeout =>
        rw [hresult] at h
        exact ih h
      | ok n =>
        simp only [hresult] at h
        cases hsend : p.afterSend pacing n e with
        | error fault =>
          rw [hsend] at h
          rw [List.mem_singleton.mp h]
          exact ⟨_, _, rfl⟩
        | ok p' =>
          rw [hsend] at h
          rcases List.mem_cons.mp h with rfl | h
          · exact ⟨_, _, rfl⟩
          · exact ih h
    · rw [if_neg hnow] at h
      exact absurd h List.not_mem_nil

theorem sendUdpData_packets (c : MeasurementsCollector) (n : UInt64) :
    (server.after c ([CollectorCall.recordBytesSent 0 n, .recordUdpPacket 0].map
      .call)).atomicPackets = c.atomicPackets + 1 := by
  simp [server, System.after, MeasurementsCollector.call, MeasurementsCollector.recordBytesSent,
    MeasurementsCollector.recordUdpPacket]

theorem pacedLoop_packets (c : MeasurementsCollector) (st : LoopState) (p : PacingState)
    (es : List (PacedEvent × Stamp)) :
    (server.after c (pacedLoop sendUdpData cfg pacing st p (es.map Prod.fst)).steps).atomicPackets
      = c.atomicPackets + UInt64.ofNat (pacedPackets cfg pacing payloadSize p es).length := by
  induction es generalizing c st p with
  | nil => exact (UInt64.add_zero _).symm
  | cons x es ih =>
    obtain ⟨e, stamp⟩ := x
    rw [List.map_cons]
    unfold pacedLoop pacedPackets
    by_cases hnow : e.io.now - cfg.start < cfg.duration
    · rw [if_pos hnow, if_pos hnow]
      cases e.io.result with
      | error kind => exact (UInt64.add_zero _).symm
      | timeout => exact ih c st p
      | ok n =>
        have hone : ∀ c : MeasurementsCollector, ∀ k : ℕ,
            c.atomicPackets + 1 + UInt64.ofNat k = c.atomicPackets + UInt64.ofNat (k + 1) := by
          intro c k
          rw [UInt64.ofNat_add, UInt64.add_assoc, UInt64.add_comm 1]
          rfl
        cases hsend : p.afterSend pacing n e with
        | error fault =>
          simp only [hsend, sendUdpData]
          exact sendUdpData_packets c n
        | ok p' =>
          simp only [hsend, sendUdpData, List.nil_append]
          split
          · simp only [PhaseRun.after, server_after_append, List.length_cons]
            rw [← sendUdpData, ih, ← hone, ← sendUdpData_packets c n]
            rfl
          · simp only [PhaseRun.after, server_after_append, List.length_cons]
            rw [← sendUdpData, ih, ← hone, ← sendUdpData_packets c n]
    · rw [if_neg hnow, if_neg hnow]
      exact (UInt64.add_zero _).symm

end Server

/-! ### The figures of the client -/

def clientTaken (cfg : LoopConfig) : List (ClientTick (Bytes × UInt64)) → List (Bytes × UInt64)
  | [] => []
  | t :: ts =>
    if t.now - cfg.start < cfg.duration then
      if t.cancelled then []
      else
        match t.result with
        | .ok a => a :: clientTaken cfg ts
        | .error _ => []
        | .timeout => clientTaken cfg ts
    else []

structure ClientRecorded (c : MeasurementsCollector) (as : List (Bytes × UInt64))
    (c' : MeasurementsCollector) : Prop where
  same : SameArrivals c'
    (MeasurementsCollector.recordArrivals c (as.filterMap UdpArrival.ofTaken))
  bytes : c'.atomicBytesReceived =
    c.atomicBytesReceived + UInt64.ofNat ((as.map Prod.fst).map List.length).sum

theorem clientRecorded_nil (c : MeasurementsCollector) : ClientRecorded c [] c :=
  ⟨⟨rfl, rfl⟩, (UInt64.add_zero _).symm⟩

theorem ClientRecorded.addInterval {c c' : MeasurementsCollector} {as : List (Bytes × UInt64)}
    (h : ClientRecorded c as c') (stats : IntervalStats) :
    ClientRecorded c as (c'.addInterval stats) :=
  ⟨⟨h.same.udpState, h.same.order⟩, h.bytes⟩

theorem udpReceive_calls {a : Bytes × UInt64} {transfer : Transfer}
    (h : Client.udpReceive.onIo a = some transfer) :
    transfer.received = a.1.length ∧
      transfer.calls = (UdpArrival.ofTaken a).toList.map (fun x =>
          CollectorCall.recordUdpPacketReceived x.sequence x.sendTimestampUs x.recvTimestampUs) ++
        [.recordBytesReceived 0 (UInt64.ofNat a.1.length)] := by
  cases h
  refine ⟨rfl, ?_⟩
  change ((parsePacket a.1).map fun p =>
      CollectorCall.recordUdpPacketReceived p.1.sequence.toUInt64 p.1.timestampUs a.2).toList ++
        [CollectorCall.recordBytesReceived 0 (UInt64.ofNat a.1.length)] = _
  unfold UdpArrival.ofTaken
  cases parsePacket a.1 <;> rfl

theorem ClientRecorded.datagram {c c' : MeasurementsCollector} {as : List (Bytes × UInt64)}
    (h : ClientRecorded c as c') {a : Bytes × UInt64} {transfer : Transfer}
    (htransfer : Client.udpReceive.onIo a = some transfer) :
    ClientRecorded c (as ++ [a]) (c'.calls transfer.calls) := by
  obtain ⟨hreceived, hcalls⟩ := udpReceive_calls htransfer
  constructor
  · have happend : c.recordArrivals ((as ++ [a]).filterMap UdpArrival.ofTaken) =
        (c.recordArrivals (as.filterMap UdpArrival.ofTaken)).recordArrivals
          (UdpArrival.ofTaken a).toList := by
      rw [List.filterMap_append, List.filterMap_cons, List.filterMap_nil]
      refine (List.foldl_append ..).trans ?_
      cases UdpArrival.ofTaken a <;> rfl
    rw [happend, hcalls]
    cases UdpArrival.ofTaken a with
    | none => exact h.same.bytes 0 (UInt64.ofNat a.1.length)
    | some x => exact (h.same.record x).bytes 0 (UInt64.ofNat a.1.length)
  · rw [(calls_atomics c' transfer.calls).2, transfer.countsReceived, h.bytes, UInt64.add_assoc,
      ← UInt64.ofNat_add, hreceived]
    simp only [List.map_append, List.map_cons, List.map_nil, List.sum_append, List.sum_cons,
      List.sum_nil, Nat.add_zero]

theorem clientLoop_recorded {cfg : LoopConfig} {c : MeasurementsCollector}
    {as : List (Bytes × UInt64)} {st : ClientLoop} (h : ClientRecorded c as st.collector)
    (ticks : List (ClientTick (Bytes × UInt64))) :
    ClientRecorded c (as ++ clientTaken cfg ticks)
      (clientLoop Client.udpReceive cfg st ticks).collector := by
  induction ticks generalizing as st with
  | nil =>
    rw [clientTaken, List.append_nil]
    exact h
  | cons t ts ih =>
    unfold clientLoop clientTaken
    by_cases hnow : t.now - cfg.start < cfg.duration
    · rw [if_pos hnow, if_pos hnow]
      by_cases hcancel : t.cancelled = true
      · rw [if_pos hcancel, if_pos hcancel, List.append_nil]
        exact h
      · rw [if_neg hcancel, if_neg hcancel]
        cases t.result with
        | error kind =>
          rw [List.append_nil]
          exact h
        | timeout => exact ih h
        | ok a =>
          have hrecord : ∀ transfer, Client.udpReceive.onIo a = some transfer →
              ClientRecorded c (as ++ [a])
                (st.record Client.udpReceive cfg transfer t).collector := by
            intro transfer htransfer
            have hcalls := h.datagram htransfer
            unfold ClientLoop.record
            simp only
            split
            · exact hcalls.addInterval _
            · exact hcalls
          have hrest := ih (hrecord _ rfl)
          rw [List.append_assoc] at hrest
          exact hrest
    · rw [if_neg hnow, if_neg hnow, List.append_nil]
      exact h

/-! ### The test -/

/-- Numbers of 32 bits that are all different are not many. -/
theorem length_le_of_numbers {packets : List Bytes}
    (h : packets.map headerSequence = List.range packets.length) : packets.length ≤ 2 ^ 32 := by
  by_contra hmany
  have hmem : 2 ^ 32 ∈ packets.map headerSequence := by
    rw [h, List.mem_range]
    omega
  obtain ⟨packet, -, hnumber⟩ := List.mem_map.mp hmem
  have hlt : headerSequence packet < 2 ^ 32 := by
    unfold headerSequence
    cases parsePacket packet with
    | none => exact Nat.two_pow_pos 32
    | some x => exact x.1.sequence.toNat_lt
  omega

/-- What the client shows of a reversed test, whatever the server sends and the network does: as
lost the datagrams below the highest one it received that are on their way or lost. The server
has recorded one packet for each datagram that was sent, is on its way, arrived or is lost. -/
theorem udpDownload_counted (serverCfg clientCfg : LoopConfig) (pacing : Pacing)
    (hnumbered : pacing.numbered = true) (payloadSize : ℕ) (c : MeasurementsCollector)
    (st : LoopState) (start : Instant) (es : List (PacedEvent × Stamp))
    (net : DatagramNet.State Bytes)
    (hnet : Lts.Reachable DatagramNet.step
      (DatagramNet.start (pacedPackets serverCfg pacing payloadSize ⟨0, 0, start⟩ es)) net)
    (ticks : List (ClientTick (Bytes × UInt64)))
    (htaken : (clientTaken clientCfg ticks).map Prod.fst = net.arrived) :
    let client := (clientLoop Client.udpReceive clientCfg (.init clientCfg .new) ticks).collector
    let lost := DatagramNet.behind headerSequence net
    client.calculateUdpLoss =
        (UInt64.ofNat lost, UInt64.ofNat (net.arrived.length + lost)) ∧
      client.get.outOfOrderPackets =
        UInt64.ofNat (Arrivals.drops (DatagramNet.numbers headerSequence net)) ∧
      client.atomicBytesReceived =
        UInt64.ofNat (net.arrived.length * (UdpPacketHeader.size + payloadSize)) ∧
      (server.after c (pacedLoop sendUdpData serverCfg pacing st ⟨0, 0, start⟩
          (es.map Prod.fst)).steps).atomicPackets =
        c.atomicPackets + UInt64.ofNat
          (net.pending.length + (net.arrived.length + (net.flying ++ net.lost).length)) := by
  intro client lost
  have hconserved := DatagramNet.conserved_of_reachable hnet
  have hpackets : ∀ a ∈ clientTaken clientCfg ticks, IsTestPacket payloadSize a.1 :=
    fun a ha => mem_pacedPackets (hconserved.mem (htaken ▸ List.mem_map_of_mem ha))
  have hrange : (pacedPackets serverCfg pacing payloadSize ⟨0, 0, start⟩ es).map headerSequence =
      List.range (pacedPackets serverCfg pacing payloadSize ⟨0, 0, start⟩ es).length :=
    (pacedPackets_numbers hnumbered ⟨0, 0, start⟩ es).trans List.range_eq_range'.symm
  have hexpected : Arrivals.expected (DatagramNet.numbers headerSequence net) =
      net.arrived.length + lost := DatagramNet.expected_eq hrange hconserved
  have hlength : (clientTaken clientCfg ticks).length = net.arrived.length := by
    rw [← htaken, List.length_map]
  have hnumbers : ((clientTaken clientCfg ticks).map Prod.fst).reverse.map headerSequence =
      DatagramNet.numbers headerSequence net := by
    rw [htaken]
    rfl
  have hclient : ClientRecorded .new ([] ++ clientTaken clientCfg ticks) client :=
    clientLoop_recorded (clientRecorded_nil .new) ticks
  rw [List.nil_append] at hclient
  have hcount : (clientTaken clientCfg ticks).length < 2 ^ 64 := by
    have hmost := length_le_of_numbers hrange
    have htotal := hconserved.length
    omega
  obtain ⟨hloss, horder⟩ := hclient.same.figures hpackets hcount hnumbers
  have hbytes := hclient.bytes
  rw [sum_lengths hpackets, hlength] at hbytes
  rw [hlength, hexpected, Nat.add_sub_cancel_left] at hloss
  refine ⟨hloss, (get_outOfOrderPackets client).trans horder, hbytes.trans (UInt64.zero_add _), ?_⟩
  rw [← hconserved.length]
  exact pacedLoop_packets _ _ _ es

/-- Three datagrams of four bytes after the header, without a limit. -/
def threePaced : List (PacedEvent × Stamp) :=
  let stamp : Stamp := ⟨TimestampCache.new 0 0, ⟨0, 0, 0⟩⟩
  [(⟨⟨1, .ok 24, ⟨1, 1, 1, 1⟩⟩, 1, 1⟩, stamp), (⟨⟨2, .ok 24, ⟨2, 2, 2, 2⟩⟩, 2, 2⟩, stamp),
    (⟨⟨3, .ok 24, ⟨3, 3, 3, 3⟩⟩, 3, 3⟩, stamp)]

def threePacedPackets : List Bytes :=
  pacedPackets ⟨0, 10, 1000⟩ ⟨none, true⟩ 4 ⟨0, 0, 0⟩ threePaced

/-- The third arrives before the first, and the second is lost. -/
def crossedNet : DatagramNet.State Bytes :=
  (Lts.run DatagramNet.step (fun _ _ => True) (DatagramNet.start threePacedPackets)
    [.send, .send, .send, .deliver 2, .deliver 0, .lose 0]).getD (DatagramNet.start [])

theorem crossedNet_run :
    Lts.run DatagramNet.step (fun _ _ => True) (DatagramNet.start threePacedPackets)
      [.send, .send, .send, .deliver 2, .deliver 0, .lose 0] = some crossedNet :=
  rfl

def crossedTicks : List (ClientTick (Bytes × UInt64)) :=
  crossedNet.arrived.map (fun packet => ⟨4, false, .ok (packet, 100), ⟨4, 4, 4, 4⟩, none⟩)

theorem udpDownload_counted_crossed :
    (clientLoop Client.udpReceive ⟨0, 10, 1000⟩ (.init ⟨0, 10, 1000⟩ .new)
        crossedTicks).collector.calculateUdpLoss = (1, 3) ∧
      (clientLoop Client.udpReceive ⟨0, 10, 1000⟩ (.init ⟨0, 10, 1000⟩ .new)
        crossedTicks).collector.get.outOfOrderPackets = 1 := by
  obtain ⟨hloss, horder, -⟩ := udpDownload_counted ⟨0, 10, 1000⟩ ⟨0, 10, 1000⟩ ⟨none, true⟩ rfl 4
    .new ⟨0, 0, 0⟩ 0 threePaced crossedNet (Lts.Reach.start.run crossedNet_run) crossedTicks
    (by decide)
  exact ⟨hloss, horder⟩

end Rperf3
