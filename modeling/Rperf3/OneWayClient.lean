import Rperf3.OneWayReceive
import Rperf3.UdpSend

/-!
# One-way UDP receive on the client (`client.rs:2216-2297`)

`recv_one_way` takes the first four bytes of a datagram for its sequence number.
The datagrams it gets in one-way receive mode are built by `send_udp_data` on the
server (`server.rs:929-943`), where the first four bytes are the magic number of
`UdpPacketHeader` and the sequence number is at offset eight.
-/

namespace Rperf3

/-! ### The receive loop (`client.rs:2216-2264`) -/

structure OneWayRecvState where
  bytesReceived : ℕ
  packetsReceived : ℕ
  outOfOrder : ℕ
  lastSeq : UInt32
  jitterSamples : List F64
  lastArrivalTime : Option Instant

def OneWayRecvState.new : OneWayRecvState := ⟨0, 0, 0, 0, [], none⟩

/-- The jitter filter; there is a sample for every datagram but the first. -/
def OneWayRecvState.onArrival (st : OneWayRecvState) (now : Instant) : OneWayRecvState :=
  match st.lastArrivalTime with
  | none => { st with lastArrivalTime := some now }
  | some prev =>
    let transit := Duration.asSecsF64 (now - prev)
    let currJitter := st.jitterSamples.getLastD 0
    { st with
      jitterSamples := st.jitterSamples ++ [currJitter + |transit - currJitter| / 16]
      lastArrivalTime := some now }

/-- One datagram of `buf.length` bytes, and the clock read after it. -/
def OneWayRecvState.onDatagram (st : OneWayRecvState) (buf : Bytes) (now : Instant) :
    OneWayRecvState :=
  let st := { st with
    bytesReceived := st.bytesReceived + buf.length
    packetsReceived := st.packetsReceived + 1 }
  let st :=
    if buf.length ≥ 4 then
      let seq := seqOf buf
      { st with
        outOfOrder :=
          if st.lastSeq > 0 ∧ seq < st.lastSeq then st.outOfOrder + 1 else st.outOfOrder
        lastSeq := seq }
    else st
  st.onArrival now

structure OneWayRecvTick where
  now : Instant
  recv : Except ErrorKind Bytes
  arrival : Instant

def oneWayRecvLoop (start : Instant) (duration : Duration) (bufferSize : ℕ) :
    OneWayRecvState → List OneWayRecvTick → Option Error × OneWayRecvState
  | st, [] => (none, st)
  | st, tick :: ticks =>
    if tick.now - start < duration then
      match tick.recv with
      | .ok payload =>
        oneWayRecvLoop start duration bufferSize
          (st.onDatagram (payload.take bufferSize) tick.arrival) ticks
      | .error e => (some (.io e), st)
    else (none, st)

/-- `OneWayRecvStats` (`measurements.rs:2275-2299`). -/
structure OneWayRecvStats where
  bytesReceived : ℕ
  packetsReceived : ℕ
  outOfOrder : ℕ
  packetLoss : Option F64
  jitterMs : F64
  duration : Duration

structure OneWayRecvRun where
  start : Instant
  duration : Duration
  expectedPps : Option ℕ
  bufferSize : ℕ
  ticks : List OneWayRecvTick
  finish : Instant

def packetLossOf (packetsReceived expected : ℕ) : F64 :=
  if packetsReceived > expected then 0
  else if expected > 0 then ((expected - packetsReceived : ℕ) : F64) / expected * 100
  else 0

def averageJitterMs (samples : List F64) : F64 :=
  if samples.isEmpty then 0 else samples.sum / samples.length * 1000

namespace OneWayRecvRun

def loop (r : OneWayRecvRun) : Option Error × OneWayRecvState :=
  oneWayRecvLoop r.start r.duration r.bufferSize OneWayRecvState.new r.ticks

def stats (r : OneWayRecvRun) : OneWayRecvStats :=
  let st := r.loop.2
  { bytesReceived := st.bytesReceived
    packetsReceived := st.packetsReceived
    outOfOrder := st.outOfOrder
    packetLoss :=
      (r.expectedPps.map (· * r.duration.asSecs)).map (packetLossOf st.packetsReceived)
    jitterMs := averageJitterMs st.jitterSamples
    duration := r.finish - r.start }

end OneWayRecvRun

/-- `recv_one_way` (`client.rs:2216-2297`). -/
def recvOneWay (r : OneWayRecvRun) : Except Error OneWayRecvStats :=
  match r.loop.1 with
  | some e => .error e
  | none => .ok r.stats

theorem recvOneWay_stats {r : OneWayRecvRun} {stats : OneWayRecvStats}
    (hok : recvOneWay r = .ok stats) : stats = r.stats := by
  unfold recvOneWay at hok
  cases hexit : r.loop.1 with
  | none =>
    rw [hexit] at hok
    exact (Except.ok.inj hok).symm
  | some e =>
    rw [hexit] at hok
    exact nomatch hok

/-- The datagrams the network hands to a run, in the order of their arrival. -/
def datagramsOf (start : Instant) (duration : Duration) : List OneWayRecvTick → List Bytes
  | [] => []
  | tick :: ticks =>
    if tick.now - start < duration then
      match tick.recv with
      | .ok payload => payload :: datagramsOf start duration ticks
      | .error _ => []
    else []

def OneWayRecvRun.datagrams (r : OneWayRecvRun) : List Bytes :=
  datagramsOf r.start r.duration r.ticks

/-! ### What is counted as out of order -/

/-- How many numbers are smaller than the one just before them. -/
def descents : List UInt32 → ℕ
  | [] => 0
  | [_] => 0
  | a :: b :: rest => (if b < a then 1 else 0) + descents (b :: rest)

theorem descents_eq_zero_iff (ns : List UInt32) : descents ns = 0 ↔ ns.IsChain (· ≤ ·) := by
  induction ns with
  | nil => simp [descents]
  | cons a ns ih =>
    cases ns with
    | nil => simp [descents]
    | cons b rest =>
      rw [List.isChain_cons_cons, ← ih, descents]
      by_cases h : b < a
      · simp [h]
      · simp [h, UInt32.not_lt.mp h]

theorem descents_zero_cons (ns : List UInt32) : descents (0 :: ns) = descents ns := by
  cases ns with
  | nil => rfl
  | cons b rest =>
    have h : ¬ b < 0 := UInt32.not_lt_zero
    rw [descents, if_neg h, Nat.zero_add]

theorem descents_constant {m : UInt32} {ns : List UInt32} (h : ∀ n ∈ ns, n = m) :
    descents ns = 0 := by
  rw [descents_eq_zero_iff, List.eq_replicate_of_mem h]
  exact List.isChain_replicate_of_rel _ UInt32.le_rfl

theorem onArrival_frame (st : OneWayRecvState) (now : Instant) :
    (st.onArrival now).outOfOrder = st.outOfOrder ∧ (st.onArrival now).lastSeq = st.lastSeq := by
  unfold OneWayRecvState.onArrival
  split <;> exact ⟨rfl, rfl⟩

theorem onDatagram_order (st : OneWayRecvState) {buf : Bytes} (now : Instant)
    (h : 4 ≤ buf.length) :
    (st.onDatagram buf now).lastSeq = seqOf buf ∧
    (st.onDatagram buf now).outOfOrder =
      st.outOfOrder + if seqOf buf < st.lastSeq then 1 else 0 := by
  unfold OneWayRecvState.onDatagram
  simp only [ge_iff_le, if_pos h, (onArrival_frame _ now).1, (onArrival_frame _ now).2,
    true_and]
  -- a number below the last one is below a positive one
  by_cases hlt : seqOf buf < st.lastSeq
  · have hpos : st.lastSeq > 0 := by
      rw [gt_iff_lt, UInt32.lt_iff_toNat_lt]
      exact Nat.zero_lt_of_lt (UInt32.lt_iff_toNat_lt.mp hlt)
    rw [if_pos ⟨hpos, hlt⟩, if_pos hlt]
  · rw [if_neg (fun hboth => hlt hboth.2), if_neg hlt, Nat.add_zero]

theorem oneWayRecvLoop_outOfOrder (start : Instant) (duration : Duration) {bufferSize : ℕ}
    (hsize : 4 ≤ bufferSize) (st : OneWayRecvState) (ticks : List OneWayRecvTick)
    (hlen : ∀ buf ∈ datagramsOf start duration ticks, 4 ≤ buf.length) :
    (oneWayRecvLoop start duration bufferSize st ticks).2.outOfOrder =
      st.outOfOrder + descents (st.lastSeq :: (datagramsOf start duration ticks).map seqOf) := by
  induction ticks generalizing st with
  | nil => rfl
  | cons tick ticks ih =>
    unfold oneWayRecvLoop datagramsOf
    unfold datagramsOf at hlen
    by_cases hnow : tick.now - start < duration
    · rw [if_pos hnow] at hlen
      rw [if_pos hnow, if_pos hnow]
      cases hrecv : tick.recv with
      | error e => rfl
      | ok payload =>
        rw [hrecv] at hlen
        simp only at hlen ⊢
        have hpayload : 4 ≤ payload.length := hlen payload (List.mem_cons_self ..)
        have hcut : 4 ≤ (payload.take bufferSize).length := by
          rw [List.length_take]
          omega
        have hseq : seqOf (payload.take bufferSize) = seqOf payload := by
          rw [seqOf, seqOf, List.take_take, Nat.min_eq_left hsize]
        obtain ⟨hlast, hcount⟩ := onDatagram_order st tick.arrival hcut
        rw [ih _ (fun buf hbuf => hlen buf (List.mem_cons_of_mem _ hbuf)), hlast, hcount, hseq,
          List.map_cons, descents, Nat.add_assoc]
    · rw [if_neg hnow, if_neg hnow]
      rfl

theorem outOfOrder_eq (r : OneWayRecvRun) (hsize : 4 ≤ r.bufferSize)
    (hlen : ∀ buf ∈ r.datagrams, 4 ≤ buf.length) :
    r.stats.outOfOrder = descents (r.datagrams.map seqOf) := by
  have h := oneWayRecvLoop_outOfOrder r.start r.duration hsize OneWayRecvState.new r.ticks hlen
  have hzero : OneWayRecvState.new.lastSeq = 0 := rfl
  rw [hzero, descents_zero_cons] at h
  exact h.trans (Nat.zero_add _)

/-! ### What the server sends (`server.rs:917-943`) -/

/-- The datagrams built from number `sequence` on, one for each stamp; the `u32` counter wraps. -/
def udpDataPackets (payloadSize : ℕ) : UInt32 → List Stamp → List Bytes
  | _, [] => []
  | sequence, stamp :: stamps =>
    (createPacketFast stamp.cache stamp.reading 0 sequence payloadSize).1 ::
      udpDataPackets payloadSize (sequence + 1) stamps

/-- The sender's number of a datagram. -/
def sequenceOf (buf : Bytes) : UInt32 := ((parsePacket buf).map (fun p => p.1.sequence)).getD 0

theorem mem_udpDataPackets {payloadSize : ℕ} {sequence : UInt32} {stamps : List Stamp}
    {buf : Bytes} (h : buf ∈ udpDataPackets payloadSize sequence stamps) :
    ∃ seq timestampUs, buf = packetBytes 0 seq timestampUs payloadSize := by
  induction stamps generalizing sequence with
  | nil => exact absurd h List.not_mem_nil
  | cons stamp stamps ih =>
    rcases List.mem_cons.mp h with rfl | h
    · exact ⟨sequence, (stamp.cache.getTimestamp stamp.reading).1, rfl⟩
    · exact ih h

theorem seqOf_packetBytes (streamId sequence : UInt32) (timestampUs : UInt64) (payloadSize : ℕ) :
    seqOf (packetBytes streamId sequence timestampUs payloadSize) = rperf3UdpMagic := by
  have hm : (toBeBytes rperf3UdpMagic).length = 4 := length_toBeBytes _
  simp only [seqOf, packetBytes, UdpPacketHeader.toBytes, UdpPacketHeader.new, List.append_assoc]
  rw [take_field hm, fromBeBytes_toBeBytes]

/-! ### The sender's order -/

/-- In one-way receive mode nothing is ever counted as out of order. -/
theorem outOfOrder_eq_zero {payloadSize : ℕ} {stamps : List Stamp} {r : OneWayRecvRun}
    (hsize : UdpPacketHeader.size + payloadSize ≤ r.bufferSize)
    (hsent : r.datagrams.Subperm (udpDataPackets payloadSize 0 stamps)) :
    r.stats.outOfOrder = 0 := by
  have hall : ∀ buf ∈ r.datagrams, ∃ seq timestampUs,
      buf = packetBytes 0 seq timestampUs payloadSize :=
    fun buf hbuf => mem_udpDataPackets (hsent.subset hbuf)
  have hheader : UdpPacketHeader.size = 20 := rfl
  have hlen : ∀ buf ∈ r.datagrams, 4 ≤ buf.length := by
    intro buf hbuf
    obtain ⟨seq, timestampUs, rfl⟩ := hall buf hbuf
    rw [length_packetBytes]
    omega
  rw [outOfOrder_eq r (by omega) hlen]
  refine descents_constant (m := rperf3UdpMagic) (fun n hn => ?_)
  obtain ⟨buf, hbuf, rfl⟩ := List.mem_map.mp hn
  obtain ⟨seq, timestampUs, rfl⟩ := hall buf hbuf
  exact seqOf_packetBytes ..

/-- The count is the sender's order exactly when no datagram has a number below that of the
datagram received just before it. -/
theorem outOfOrder_eq_descents_iff (payloadSize : ℕ) (stamps : List Stamp) (r : OneWayRecvRun)
    (stats : OneWayRecvStats) (hok : recvOneWay r = .ok stats)
    (hsize : UdpPacketHeader.size + payloadSize ≤ r.bufferSize)
    (hsent : r.datagrams.Subperm (udpDataPackets payloadSize 0 stamps)) :
    stats.outOfOrder = descents (r.datagrams.map sequenceOf) ↔
      (r.datagrams.map sequenceOf).IsChain (· ≤ ·) := by
  rw [recvOneWay_stats hok, outOfOrder_eq_zero hsize hsent, eq_comm]
  exact descents_eq_zero_iff _

def noStamp : Stamp := ⟨TimestampCache.new 0 0, ⟨0, 0, 0⟩⟩

/-- A run that receives the datagrams numbered `ns` of a test with four payload bytes. -/
def receiveInOrder (ns : List ℕ) : OneWayRecvRun :=
  { start := 0
    duration := 1
    expectedPps := none
    bufferSize := 24
    ticks := ns.map fun n => ⟨0, .ok (packetBytes 0 (UInt32.ofNat n) 0 4), 0⟩
    finish := 1 }

theorem outOfOrder_eq_descents_iff_skipping :
    (receiveInOrder [0, 2]).stats.outOfOrder =
        descents ((receiveInOrder [0, 2]).datagrams.map sequenceOf) ↔
      ((receiveInOrder [0, 2]).datagrams.map sequenceOf).IsChain (· ≤ ·) :=
  outOfOrder_eq_descents_iff 4 [noStamp, noStamp, noStamp] (receiveInOrder [0, 2]) _ rfl
    (by decide) (by decide)

/-- Two datagrams that change places are not noticed. -/
theorem swapped_not_counted :
    ¬ ∀ (payloadSize : ℕ) (stamps : List Stamp) (r : OneWayRecvRun) (stats : OneWayRecvStats),
      recvOneWay r = .ok stats → UdpPacketHeader.size + payloadSize ≤ r.bufferSize →
      r.datagrams.Subperm (udpDataPackets payloadSize 0 stamps) →
      stats.outOfOrder = descents (r.datagrams.map sequenceOf) := by
  intro h
  have hone := h 4 [noStamp, noStamp] (receiveInOrder [1, 0]) _ rfl (by decide) (by decide)
  exact absurd hone (by decide)

end Rperf3
