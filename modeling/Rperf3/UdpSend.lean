import Rperf3.BatchSocket
import Rperf3.DataLoop
import Rperf3.UdpPacket

/-!
# Sending test datagrams (`client.rs:943-1310`)

`run_udp_send_standard` sends one datagram with each call of `send`;
`run_udp_send_batched` keeps a batch full and hands prefixes of it to `sendmmsg`.
Both number the datagrams with one counter. Waiting for tokens only shows in the
clock readings. What the kernel takes is kept in the list `handed`.
-/

namespace Rperf3

structure SendParams where
  loop : LoopConfig
  bufferSize : ℕ
  bandwidth : Option ℕ
  peer : SocketAddr

def SendParams.payloadSize (p : SendParams) : ℕ := payloadSizeFor p.bufferSize

/-- Batches are smaller at low rates (`client.rs:1209-1227`). -/
def SendParams.adaptiveBatchSize (p : SendParams) : ℕ :=
  match p.bandwidth with
  | none => maxBatchSize
  | some bw =>
    let packetsPerSec := bw / 8 / p.payloadSize
    if packetsPerSec < 1000 then max (maxBatchSize / 4) 4
    else if packetsPerSec < 10000 then maxBatchSize / 2
    else maxBatchSize

/-- What one `create_packet_fast` finds: the cache of its thread and the clocks. -/
structure Stamp where
  cache : TimestampCache
  reading : CacheReading

/-- The datagram with number `sequence`; `sequence as u32` keeps the low 32 bits. -/
def testPacket (p : SendParams) (sequence : ℕ) (stamp : Stamp) : Bytes :=
  (createPacketFast stamp.cache stamp.reading 0 (UInt32.ofNat sequence) p.payloadSize).1

structure SendState where
  collector : MeasurementsCollector
  loop : LoopState
  sequence : ℕ
  handed : List Handed

def SendState.init (p : SendParams) (c : MeasurementsCollector) : SendState :=
  ⟨c, p.loop.first, 0, []⟩

/-- Recording after a send: its bytes at once, its packets one by one. -/
def recordSent (c : MeasurementsCollector) (bytes packets : ℕ) : MeasurementsCollector :=
  (fun c => c.recordUdpPacket 0)^[packets] (c.recordBytesSent 0 (UInt64.ofNat bytes))

def SendState.count (p : SendParams) (st : SendState) (clock : IntervalClock)
    (bytes packets : ℕ) : SendState :=
  let loop := { st.loop with
    intervalBytes := st.loop.intervalBytes + UInt64.ofNat bytes
    intervalPackets := st.loop.intervalPackets + UInt64.ofNat packets }
  if clock.check - loop.lastInterval ≥ p.loop.interval then
    { st with
      collector := st.collector.addInterval
        (intervalStats p.loop loop.intervalPackets loop clock)
      loop := ⟨clock.reset, 0, 0⟩ }
  else { st with loop := loop }

/-! ### One by one (`client.rs:954-1100`) -/

structure SendTick where
  now : Instant
  cancelled : Bool
  stamp : Stamp
  result : Except ErrorKind ℕ
  clock : IntervalClock

def standardLoop (p : SendParams) : SendState → List SendTick → SendState
  | st, [] => st
  | st, t :: ts =>
    if t.now - p.loop.start < p.loop.duration then
      if t.cancelled then st
      else
        let packet := testPacket p st.sequence t.stamp
        match t.result with
        | .error _ => st
        | .ok n =>
          let st : SendState := { st with
            collector := recordSent st.collector n 1
            sequence := st.sequence + 1
            handed := st.handed ++ [⟨packet, p.peer, n⟩] }
          standardLoop p (st.count p t.clock n 1) ts
    else st

def runUdpSendStandard (p : SendParams) (c : MeasurementsCollector) (ticks : List SendTick)
    (finish : Instant) : SendState :=
  let st := standardLoop p (SendState.init p c) ticks
  { st with collector := st.collector.setDuration (finish - p.loop.start) }

/-! ### In batches (`client.rs:1170-1310`) -/

structure BatchedState extends SendState where
  batch : UdpSendBatch

structure Fill where
  now : Instant
  stamp : Stamp

structure BatchTick where
  now : Instant
  cancelled : Bool
  fills : List Fill
  kernel : Kernel
  clock : IntervalClock

def fillBatch (p : SendParams) : BatchedState → List Fill → BatchedState
  | st, [] => st
  | st, f :: fs =>
    if st.batch.isFull = false ∧ st.batch.len < p.adaptiveBatchSize ∧
        f.now - p.loop.start < p.loop.duration then
      let packet := testPacket p st.sequence f.stamp
      fillBatch p { st with
        batch := (st.batch.add packet p.peer).2
        sequence := st.sequence + 1 } fs
    else st

def batchedLoop (p : SendParams) : BatchedState → List BatchTick → BatchedState
  | st, [] => st
  | st, t :: ts =>
    if t.now - p.loop.start < p.loop.duration then
      if t.cancelled then st
      else
        let st := fillBatch p st t.fills
        if st.batch.isEmpty then batchedLoop p st ts
        else
          match st.batch.send t.kernel with
          | (.error _, batch) => { st with batch := batch }
          | (.ok (bytesSent, packetsSent), batch) =>
            let sent : SendState := { st.toSendState with
              collector := recordSent st.collector bytesSent packetsSent
              handed := st.handed ++ st.batch.handedBy t.kernel }
            batchedLoop p ⟨sent.count p t.clock bytesSent packetsSent, batch⟩ ts
    else st

def runUdpSendBatched (p : SendParams) (c : MeasurementsCollector) (ticks : List BatchTick)
    (finish : Instant) : BatchedState :=
  let st := batchedLoop p ⟨SendState.init p c, UdpSendBatch.new⟩ ticks
  { st with collector := st.collector.setDuration (finish - p.loop.start) }

/-! ### What is recorded -/

/-- The counters have grown by the datagrams `hs` since `c`, in total and for stream 0. -/
structure Recorded (c c' : MeasurementsCollector) (hs : List Handed) : Prop where
  bytes : c'.atomicBytesSent = c.atomicBytesSent + UInt64.ofNat (hs.map Handed.msgLen).sum
  packets : c'.atomicPackets = c.atomicPackets + UInt64.ofNat hs.length
  streamBytes : (c'.entry 0).bytesSent =
    (c.entry 0).bytesSent + UInt64.ofNat (hs.map Handed.msgLen).sum
  streamPackets : (c'.entry 0).packets = (c.entry 0).packets + UInt64.ofNat hs.length

theorem recorded_nil (c : MeasurementsCollector) : Recorded c c [] :=
  ⟨(UInt64.add_zero _).symm, (UInt64.add_zero _).symm, (UInt64.add_zero _).symm,
    (UInt64.add_zero _).symm⟩

theorem recorded_of_inner {c c' : MeasurementsCollector} {hs : List Handed}
    (h : Recorded c c' hs) (m : Measurements) : Recorded c { c' with inner := m } hs :=
  ⟨h.bytes, h.packets, h.streamBytes, h.streamPackets⟩

theorem iterate_recordUdpPacket (c : MeasurementsCollector) (n : ℕ) :
    ((fun c => c.recordUdpPacket 0)^[n] c).atomicBytesSent = c.atomicBytesSent ∧
    ((fun c => c.recordUdpPacket 0)^[n] c).atomicPackets = c.atomicPackets + UInt64.ofNat n ∧
    (((fun c => c.recordUdpPacket 0)^[n] c).entry 0).bytesSent = (c.entry 0).bytesSent ∧
    (((fun c => c.recordUdpPacket 0)^[n] c).entry 0).packets =
      (c.entry 0).packets + UInt64.ofNat n := by
  induction n generalizing c with
  | zero => exact ⟨rfl, (UInt64.add_zero _).symm, rfl, (UInt64.add_zero _).symm⟩
  | succ n ih =>
    obtain ⟨hb, hp, hsb, hsp⟩ := ih (c.recordUdpPacket 0)
    have hsucc : ∀ x : UInt64, x + 1 + UInt64.ofNat n = x + UInt64.ofNat (n + 1) := by
      intro x
      rw [UInt64.ofNat_add, UInt64.add_assoc, UInt64.add_comm 1]
      rfl
    have hframe : (c.recordUdpPacket 0).atomicBytesSent = c.atomicBytesSent ∧
        (c.recordUdpPacket 0).atomicPackets = c.atomicPackets + 1 := by
      simp [MeasurementsCollector.recordUdpPacket]
    rw [Function.iterate_succ_apply, hb, hp, hsb, hsp, hframe.1, hframe.2, entry_recordUdpPacket]
    exact ⟨rfl, hsucc _, rfl, hsucc _⟩

theorem recorded_recordSent {c c' : MeasurementsCollector} {hs hs' : List Handed}
    (h : Recorded c c' hs) :
    Recorded c (recordSent c' (hs'.map Handed.msgLen).sum hs'.length) (hs ++ hs') := by
  obtain ⟨hb, hp, hsb, hsp⟩ := iterate_recordUdpPacket
    (c'.recordBytesSent 0 (UInt64.ofNat (hs'.map Handed.msgLen).sum)) hs'.length
  have hframe : ∀ bytes, (c'.recordBytesSent 0 bytes).atomicBytesSent =
      c'.atomicBytesSent + bytes ∧ (c'.recordBytesSent 0 bytes).atomicPackets =
      c'.atomicPackets := by
    intro bytes
    simp [MeasurementsCollector.recordBytesSent]
  unfold recordSent
  constructor
  · rw [hb, (hframe _).1, h.bytes, List.map_append, List.sum_append, UInt64.ofNat_add,
      UInt64.add_assoc]
  · rw [hp, (hframe _).2, h.packets, List.length_append, UInt64.ofNat_add, UInt64.add_assoc]
  · rw [hsb, entry_recordBytesSent, h.streamBytes, List.map_append, List.sum_append,
      UInt64.ofNat_add, UInt64.add_assoc]
  · rw [hsp, entry_recordBytesSent, h.streamPackets, List.length_append, UInt64.ofNat_add,
      UInt64.add_assoc]

theorem count_frame (p : SendParams) (st : SendState) (clock : IntervalClock)
    (bytes packets : ℕ) :
    (st.count p clock bytes packets).handed = st.handed ∧
    (st.count p clock bytes packets).sequence = st.sequence ∧
    ∃ m, (st.count p clock bytes packets).collector = { st.collector with inner := m } := by
  unfold SendState.count
  dsimp only
  split
  · exact ⟨rfl, rfl, _, rfl⟩
  · exact ⟨rfl, rfl, st.collector.inner, rfl⟩

/-! ### The numbered stream -/

def packetsFrom (p : SendParams) : ℕ → List Stamp → List Bytes
  | _, [] => []
  | n, stamp :: stamps => testPacket p n stamp :: packetsFrom p (n + 1) stamps

theorem packetsFrom_append (p : SendParams) (n : ℕ) (stamps : List Stamp) (stamp : Stamp) :
    packetsFrom p n (stamps ++ [stamp]) =
      packetsFrom p n stamps ++ [testPacket p (n + stamps.length) stamp] := by
  induction stamps generalizing n with
  | nil => rfl
  | cons s stamps ih =>
    have hn : n + 1 + stamps.length = n + (stamps.length + 1) := by omega
    simp only [List.cons_append, packetsFrom, ih, List.length_cons, hn]

theorem packetsFrom_take (p : SendParams) (n k : ℕ) (stamps : List Stamp) :
    packetsFrom p n (stamps.take k) = (packetsFrom p n stamps).take k := by
  induction stamps generalizing n k with
  | nil => rw [List.take_nil]; exact (List.take_nil ..).symm
  | cons s stamps ih =>
    cases k with
    | zero => rfl
    | succ k => rw [List.take_succ_cons, packetsFrom, packetsFrom, ih, List.take_succ_cons]

theorem packetsFrom_getElem (p : SendParams) (n i : ℕ) (stamps : List Stamp)
    (hi : i < (packetsFrom p n stamps).length) :
    ∃ timestampUs, (packetsFrom p n stamps)[i] =
      packetBytes 0 (UInt32.ofNat (n + i)) timestampUs p.payloadSize := by
  induction stamps generalizing n i with
  | nil => exact absurd hi (Nat.not_lt_zero i)
  | cons s stamps ih =>
    cases i with
    | zero => exact ⟨(s.cache.getTimestamp s.reading).1, rfl⟩
    | succ i =>
      obtain ⟨t, ht⟩ := ih (n + 1) i (Nat.lt_of_succ_lt_succ hi)
      refine ⟨t, ?_⟩
      rw [show n + (i + 1) = n + 1 + i by omega]
      exact ht

/-! ### The batched sender -/

/-- What was handed over, then what waits in the batch, is the numbered stream; all of it is for
the peer, and what was handed over is recorded. -/
structure BatchedInv (p : SendParams) (c : MeasurementsCollector) (st : BatchedState) : Prop where
  stream : ∃ stamps : List Stamp, stamps.length = st.sequence ∧
    st.handed.map Handed.packet ++ st.batch.packets = packetsFrom p 0 stamps
  peer : ∀ a ∈ st.handed.map Handed.addr ++ st.batch.addresses, a = p.peer
  recorded : Recorded c st.collector st.handed
  running : st.handed ≠ [] → 0 < p.loop.duration

theorem batchedInv_init (p : SendParams) (c : MeasurementsCollector) :
    BatchedInv p c ⟨SendState.init p c, UdpSendBatch.new⟩ :=
  ⟨⟨[], rfl, rfl⟩, fun _ ha => absurd ha List.not_mem_nil, recorded_nil c,
    fun h => absurd rfl h⟩

theorem add_of_room {b : UdpSendBatch} (h : b.isFull = false) (packet : Bytes)
    (addr : SocketAddr) :
    (b.add packet addr).2.packets = b.packets ++ [packet] ∧
    (b.add packet addr).2.addresses = b.addresses ++ [addr] := by
  have hroom : ¬ b.packets.length ≥ maxBatchSize := of_decide_eq_false h
  unfold UdpSendBatch.add
  rw [if_neg hroom]
  exact ⟨rfl, rfl⟩

theorem batchedInv_fill {p : SendParams} {c : MeasurementsCollector} {st : BatchedState}
    (h : BatchedInv p c st) (fills : List Fill) : BatchedInv p c (fillBatch p st fills) := by
  induction fills generalizing st with
  | nil => exact h
  | cons f fs ih =>
    unfold fillBatch
    by_cases hcond : st.batch.isFull = false ∧ st.batch.len < p.adaptiveBatchSize ∧
        f.now - p.loop.start < p.loop.duration
    · rw [if_pos hcond]
      apply ih
      obtain ⟨stamps, hlen, hstream⟩ := h.stream
      obtain ⟨hpackets, haddresses⟩ := add_of_room hcond.1 (testPacket p st.sequence f.stamp) p.peer
      refine ⟨⟨stamps ++ [f.stamp], ?_, ?_⟩, ?_, h.recorded, h.running⟩
      · simp only [List.length_append, List.length_singleton, hlen]
      · simp only [hpackets]
        rw [packetsFrom_append, Nat.zero_add, hlen, ← hstream, List.append_assoc]
      · intro a ha
        simp only [haddresses] at ha
        rw [← List.append_assoc] at ha
        rcases List.mem_append.mp ha with ha | ha
        · exact h.peer a ha
        · exact List.mem_singleton.mp ha
    · rw [if_neg hcond]
      exact h

/-- What filling the batch and each outcome of sending it keep, the loop keeps. -/
theorem batchedLoop_invariant {p : SendParams} {I : BatchedState → Prop}
    (hfill : ∀ st fills, I st → I (fillBatch p st fills))
    (herror : ∀ st kernel kind batch, I st → st.batch.send kernel = (.error kind, batch) →
      I { st with batch := batch })
    (hok : ∀ st kernel bytesSent packetsSent batch clock, 0 < p.loop.duration → I st →
      st.batch.send kernel = (.ok (bytesSent, packetsSent), batch) →
      I ⟨SendState.count p { st.toSendState with
        collector := recordSent st.collector bytesSent packetsSent
        handed := st.handed ++ st.batch.handedBy kernel } clock bytesSent packetsSent, batch⟩)
    {st : BatchedState} (h : I st) (ticks : List BatchTick) : I (batchedLoop p st ticks) := by
  induction ticks generalizing st with
  | nil => exact h
  | cons t ts ih =>
    unfold batchedLoop
    by_cases hnow : t.now - p.loop.start < p.loop.duration
    · rw [if_pos hnow]
      by_cases hcancel : t.cancelled = true
      · rw [if_pos hcancel]
        exact h
      · rw [if_neg hcancel]
        have hfilled := hfill st t.fills h
        revert hfilled
        generalize fillBatch p st t.fills = st
        intro hfilled
        dsimp only
        by_cases hempty : st.batch.isEmpty = true
        · rw [if_pos hempty]
          exact ih hfilled
        · rw [if_neg hempty]
          rcases hsend : st.batch.send t.kernel with ⟨kind | ⟨bytesSent, packetsSent⟩, batch⟩
          · exact herror st t.kernel kind batch hfilled hsend
          · exact ih (hok st t.kernel _ _ batch t.clock (Nat.zero_lt_of_lt hnow) hfilled hsend)
    · rw [if_neg hnow]
      exact h

theorem batchedInv_sent {p : SendParams} {c : MeasurementsCollector} {st : BatchedState}
    {kernel : Kernel} {bytesSent packetsSent : ℕ} {batch : UdpSendBatch} (clock : IntervalClock)
    (hrunning : 0 < p.loop.duration) (h : BatchedInv p c st)
    (hsend : st.batch.send kernel = (.ok (bytesSent, packetsSent), batch)) :
    BatchedInv p c ⟨SendState.count p { st.toSendState with
      collector := recordSent st.collector bytesSent packetsSent
      handed := st.handed ++ st.batch.handedBy kernel } clock bytesSent packetsSent, batch⟩ := by
  obtain ⟨hpackets, haddresses, hbytes, hcount⟩ := send_ok hsend
  obtain ⟨stamps, hlen, hstream⟩ := h.stream
  simp only at hbytes hcount
  subst hbytes hcount
  obtain ⟨hhanded, hseq, m, hcollector⟩ := count_frame p { st.toSendState with
    collector := recordSent st.collector ((st.batch.handedBy kernel).map Handed.msgLen).sum
      (st.batch.handedBy kernel).length
    handed := st.handed ++ st.batch.handedBy kernel } clock
      ((st.batch.handedBy kernel).map Handed.msgLen).sum (st.batch.handedBy kernel).length
  refine ⟨⟨stamps, hlen.trans hseq.symm, ?_⟩, ?_, ?_, fun _ => hrunning⟩
  · rw [hhanded, List.map_append, List.append_assoc, hpackets, hstream]
  · rw [hhanded, List.map_append, List.append_assoc, haddresses]
    exact h.peer
  · rw [hhanded, hcollector]
    exact recorded_of_inner (recorded_recordSent h.recorded) m

theorem batchedInv_loop {p : SendParams} {c : MeasurementsCollector} {st : BatchedState}
    (h : BatchedInv p c st) (ticks : List BatchTick) : BatchedInv p c (batchedLoop p st ticks) := by
  refine batchedLoop_invariant (I := BatchedInv p c)
    (fun _ fills hst => batchedInv_fill hst fills) ?_ ?_ h ticks
  · intro st kernel kind batch hst hsend
    rw [(send_error hsend).1]
    exact hst
  · intro st kernel bytesSent packetsSent batch clock hrunning hst hsend
    exact batchedInv_sent clock hrunning hst hsend

/-! ### The one-by-one sender -/

def standardTicks (p : SendParams) : List Stamp → List Handed → List SendTick :=
  List.zipWith (fun stamp h => ⟨p.loop.start, false, stamp, .ok h.msgLen, ⟨0, 0, 0, 0⟩⟩)

theorem standardLoop_sends {p : SendParams} (hd : 0 < p.loop.duration) (st : SendState)
    (stamps : List Stamp) (hs : List Handed)
    (hpackets : hs.map Handed.packet = packetsFrom p st.sequence stamps)
    (hpeer : ∀ h ∈ hs, h.addr = p.peer) :
    (standardLoop p st (standardTicks p stamps hs)).handed = st.handed ++ hs := by
  induction hs generalizing st stamps with
  | nil =>
    cases stamps with
    | nil => exact (List.append_nil _).symm
    | cons s ss => exact nomatch hpackets
  | cons h hs ih =>
    cases stamps with
    | nil => exact nomatch hpackets
    | cons stamp stamps =>
      obtain ⟨hpacket, hrest⟩ := List.cons.inj hpackets
      have haddr : h.addr = p.peer := hpeer h (List.mem_cons_self ..)
      have hnow : p.loop.start - p.loop.start < p.loop.duration := by
        rw [Nat.sub_self]
        exact hd
      obtain ⟨hhanded, hseq, -⟩ := count_frame p { st with
        collector := recordSent st.collector h.msgLen 1
        sequence := st.sequence + 1
        handed := st.handed ++ [⟨testPacket p st.sequence stamp, p.peer, h.msgLen⟩] }
        ⟨0, 0, 0, 0⟩ h.msgLen 1
      have hh : (⟨testPacket p st.sequence stamp, p.peer, h.msgLen⟩ : Handed) = h := by
        rw [← hpacket, ← haddr]
      change (standardLoop p st (⟨p.loop.start, false, stamp, .ok h.msgLen, ⟨0, 0, 0, 0⟩⟩ ::
        standardTicks p stamps hs)).handed = _
      unfold standardLoop
      rw [if_pos hnow]
      simp only [Bool.false_eq_true, if_false]
      rw [ih _ stamps (by rw [hseq]; exact hrest) (fun x hx => hpeer x (List.mem_cons_of_mem _ hx)),
        hhanded, hh, List.append_assoc]
      rfl

/-! ### Refinement -/

/-- Whatever the kernel answers, the batched sender hands over the datagrams numbered 0, 1, 2, …
for the peer, the standard sender can hand over the same, and exactly these are recorded. -/
theorem batched_refines_standard (p : SendParams) (c : MeasurementsCollector)
    (ticks : List BatchTick) (finish : Instant) :
    (∀ i (hi : i < (runUdpSendBatched p c ticks finish).handed.length),
      (∃ timestampUs, (runUdpSendBatched p c ticks finish).handed[i].packet =
        packetBytes 0 (UInt32.ofNat i) timestampUs p.payloadSize) ∧
      (runUdpSendBatched p c ticks finish).handed[i].addr = p.peer) ∧
    (∃ sendTicks, (runUdpSendStandard p c sendTicks finish).handed =
      (runUdpSendBatched p c ticks finish).handed) ∧
    Recorded c (runUdpSendBatched p c ticks finish).collector
      (runUdpSendBatched p c ticks finish).handed := by
  have hinv := batchedInv_loop (batchedInv_init p c) ticks
  unfold runUdpSendBatched
  generalize batchedLoop p ⟨SendState.init p c, UdpSendBatch.new⟩ ticks = st at hinv ⊢
  dsimp only
  obtain ⟨stamps, -, hstream⟩ := hinv.stream
  have hpackets : st.handed.map Handed.packet =
      packetsFrom p 0 (stamps.take st.handed.length) := by
    rw [packetsFrom_take, ← hstream, ← List.length_map Handed.packet, List.take_left]
  have hpeer : ∀ h ∈ st.handed, h.addr = p.peer :=
    fun h hh => hinv.peer h.addr (List.mem_append_left _ (List.mem_map_of_mem hh))
  refine ⟨fun i hi => ⟨?_, hpeer _ (List.getElem_mem hi)⟩, ?_,
    recorded_of_inner hinv.recorded _⟩
  · have hlen : i < (packetsFrom p 0 (stamps.take st.handed.length)).length := by
      rw [← hpackets, List.length_map]
      exact hi
    obtain ⟨t, ht⟩ := packetsFrom_getElem p 0 i _ hlen
    refine ⟨t, ?_⟩
    rw [Nat.zero_add] at ht
    rw [← ht, ← List.getElem_map Handed.packet]
    · simp only [hpackets]
    · rw [List.length_map]
      exact hi
  · by_cases hnil : st.handed = []
    · exact ⟨[], hnil.symm⟩
    · exact ⟨standardTicks p (stamps.take st.handed.length) st.handed,
        standardLoop_sends (hinv.running hnil) (SendState.init p c) _ _ hpackets hpeer⟩

def oneByOne : Kernel where
  sendmmsg msgs := .sent ((msgs.take 1).map (fun msg => msg.1.length))
  bounded := by
    intro msgs lens h
    cases h
    rw [List.length_map]
    exact List.length_take_le' ..

/-- A test of four payload bytes to one peer, with two rounds of the sending loop: a batch of two
packets of which one is taken, then the other. -/
def smallTest : SendParams :=
  { loop := ⟨0, 10, 1000⟩
    bufferSize := 24
    bandwidth := none
    peer := .v4 #v[127, 0, 0, 1] 5201 }

def smallTicks : List BatchTick :=
  let stamp : Stamp := ⟨TimestampCache.new 0 0, ⟨0, 0, 0⟩⟩
  [⟨0, false, [⟨1, stamp⟩, ⟨2, stamp⟩], oneByOne, ⟨3, 3, 3, 3⟩⟩,
    ⟨4, false, [], oneByOne, ⟨5, 5, 5, 5⟩⟩]

theorem batched_refines_standard_small :
    ∃ hi : 1 < (runUdpSendBatched smallTest MeasurementsCollector.new smallTicks 6).handed.length,
      (∃ timestampUs,
        (runUdpSendBatched smallTest MeasurementsCollector.new smallTicks 6).handed[1].packet =
          packetBytes 0 1 timestampUs 4) ∧
      (runUdpSendBatched smallTest MeasurementsCollector.new smallTicks 6).handed[1].addr =
        smallTest.peer := by
  have hi : 1 <
      (runUdpSendBatched smallTest MeasurementsCollector.new smallTicks 6).handed.length := by
    decide
  exact ⟨hi, (batched_refines_standard smallTest MeasurementsCollector.new smallTicks 6).1 1 hi⟩

end Rperf3
