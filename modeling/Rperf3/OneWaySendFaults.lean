import Rperf3.ClientRun
import Rperf3.Library.Faults

/-!
# Faults of the one-way senders (`client.rs:839-886`, `1899-2214`)

The senders of `Rperf3.OneWaySend` with a buffer of any size and with what can go
wrong in them: a header written past the end of the buffer, and sums and products
that do not fit their type. A fault ends the run, also an overflow that a release
build lets wrap. Without a fault a sender is the one of `Rperf3.OneWaySend`.
-/

namespace Rperf3

open Faults

inductive SendFault where
  | sliceOutOfRange
  | seqOffsetOverflow
  | localPortOverflow
  | counterOverflow
  deriving DecidableEq

/-- `buffer[0..4]` and `buffer[4..8]` (`client.rs:1918-1920`, `2102-2103`). -/
def writeHeader (buffer : Bytes) (seq streamId : UInt32) : Except SendFault Bytes := do
  let buffer ← copyInto .sliceOutOfRange buffer 0 (toBeBytes seq)
  copyInto .sliceOutOfRange buffer 4 (toBeBytes streamId)

/-- `send_one_way`; the buffer keeps the last header. -/
def checkedSendLoop (start : Instant) (duration : Duration) :
    Bytes → OneWaySendState → List OneWaySendTick →
      Except SendFault (Option Error × OneWaySendState)
  | _, st, [] => .ok (none, st)
  | buffer, st, tick :: ticks =>
    if tick.now - start < duration then do
      let packet ← writeHeader buffer st.seq 0
      match tick.result with
      | .ok n =>
        let bytesSent ← below .counterOverflow (2 ^ 64) (st.bytesSent + n)
        let packetsSent ← below .counterOverflow (2 ^ 64) (st.packetsSent + 1)
        checkedSendLoop start duration packet
          { bytesSent := bytesSent
            packetsSent := packetsSent
            seq := st.seq + 1
            sent := st.sent ++ [packet] } ticks
      | .error e => .ok (some (.io e), { st with seq := st.seq + 1 })
    else .ok (none, st)

/-- The headers of a batch, and the number after them. -/
def writeHeaders (streamId : UInt32) :
    UInt32 → List Bytes → Except SendFault (UInt32 × List Bytes)
  | seq, [] => .ok (seq, [])
  | seq, buffer :: buffers => do
    let packet ← writeHeader buffer seq streamId
    let (seq, packets) ← writeHeaders streamId (seq + 1) buffers
    return (seq, packet :: packets)

/-- The thread of `send_one_way_with_offset`. -/
def checkedOffsetLoop (start : Instant) (duration : Duration) (payloadSize : ℕ)
    (streamId : UInt32) :
    List Bytes → OffsetState → List OffsetTick → Except SendFault OffsetState
  | _, st, [] => .ok st
  | buffers, st, tick :: ticks =>
    if offsetRunning start duration tick.now then do
      let (seq, packets) ← writeHeaders streamId st.seq buffers
      match tick.reply with
      | .sent count =>
        let totalPackets ← below .counterOverflow (2 ^ 64) (st.totalPackets + count)
        let bytes ← below .counterOverflow (2 ^ 64) (count * payloadSize)
        let totalBytes ← below .counterOverflow (2 ^ 64) (st.totalBytes + bytes)
        checkedOffsetLoop start duration payloadSize streamId packets
          { seq := seq
            totalBytes := totalBytes
            totalPackets := totalPackets
            accepted := st.accepted ++ packets.take count } ticks
      | .wouldBlock =>
        checkedOffsetLoop start duration payloadSize streamId packets { st with seq := seq } ticks
      | .failed _ => .ok st
    else .ok st

/-- `(stream_id as u64) * 10_000_000`. -/
def seqOffsetOf (streamId : ℕ) : Except SendFault ℕ :=
  below .seqOffsetOverflow (2 ^ 64) (streamId * 10000000)

/-- `5201 + stream_id as u16`; the first stream takes any port. -/
def localPortOf (streamId : ℕ) : Except SendFault ℕ :=
  if streamId = 0 then .ok 0 else below .localPortOverflow (2 ^ 16) (5201 + streamId % 2 ^ 16)

namespace Client

def zeroed (c : Client) : Bytes := List.replicate c.config.bufferSize 0

def sendOneWayRun (c : Client) (net : Network) :
    Except SendFault (Option Error × OneWaySendState) :=
  checkedSendLoop net.loopStart c.config.duration c.zeroed ⟨0, 0, 0, []⟩ net.oneWaySends

/-- One of several streams; none if it never sends. -/
def streamRun (c : Client) (net : Network) (streamId : ℕ) :
    Except SendFault (Option OffsetState) := do
  let seqOffset ← seqOffsetOf streamId
  let _localPort ← localPortOf streamId
  let s := net.streams streamId
  match s.bind with
  | .error _ => return none
  | .ok () =>
    if s.connected then
      let st ← checkedOffsetLoop s.start c.config.duration c.config.bufferSize
        (UInt32.ofNat streamId) (List.replicate batch c.zeroed)
        ⟨UInt32.ofNat seqOffset, 0, 0, []⟩ s.ticks
      return some st
    else return none

/-- No header outside the buffer and no overflow in any sender. -/
def SendsFaultless (c : Client) (net : Network) : Prop :=
  if c.config.parallel ≤ 1 then Fine (c.sendOneWayRun net)
  else ∀ streamId < c.config.parallel, Fine (c.streamRun net streamId)

end Client

/-! ### The inputs without a fault -/

/-- What the sends of a run return, up to its end or its first error. -/
def sentSizes (start : Instant) (duration : Duration) : List OneWaySendTick → List ℕ
  | [] => []
  | tick :: ticks =>
    if tick.now - start < duration then
      match tick.result with
      | .ok n => n :: sentSizes start duration ticks
      | .error _ => []
    else []

def takenCounts (start : Instant) (duration : Duration) (ticks : List OffsetTick) : List ℕ :=
  (repliesOf start duration ticks).map BatchReply.count

namespace Client

/-- A run that sends at all has room for a header, and its counters do not overflow. -/
structure SingleInBounds (c : Client) (net : Network) : Prop where
  room : (∃ tick ∈ net.oneWaySends.head?, tick.now - net.loopStart < c.config.duration) →
    8 ≤ c.config.bufferSize
  bytes : (sentSizes net.loopStart c.config.duration net.oneWaySends).sum < 2 ^ 64
  packets : (sentSizes net.loopStart c.config.duration net.oneWaySends).length < 2 ^ 64

structure StreamInBounds (c : Client) (s : OneWayStream) : Prop where
  room : (∃ tick ∈ s.ticks.head?, offsetRunning s.start c.config.duration tick.now) →
    8 ≤ c.config.bufferSize
  bytes : (takenCounts s.start c.config.duration s.ticks).sum * c.config.bufferSize < 2 ^ 64

/-- The last of 60335 streams takes port 65535. -/
def SendsInBounds (c : Client) (net : Network) : Prop :=
  if c.config.parallel ≤ 1 then c.SingleInBounds net
  else c.config.parallel ≤ 60335 ∧
    ∀ streamId < c.config.parallel, (net.streams streamId).bind = .ok () →
      (net.streams streamId).connected = true → c.StreamInBounds (net.streams streamId)

end Client

/-! ### Headers -/

/-- A buffer that differs from another in its header only. -/
structure SameBody (buffer : SendBuffer) (bytes : Bytes) : Prop where
  length : bytes.length = buffer.bytes.length
  body : bytes.drop 8 = buffer.bytes.drop 8

theorem sameBody_packet (buffer : SendBuffer) (seq streamId : UInt32) :
    SameBody buffer (oneWayPacket buffer seq streamId) where
  length := length_oneWayPacket buffer seq streamId
  body := by
    have hheader : (toBeBytes seq ++ toBeBytes streamId).length = 8 := by
      rw [List.length_append, length_toBeBytes, length_toBeBytes]
    rw [oneWayPacket, ← List.append_assoc, List.drop_left' hheader]

theorem writeHeader_eq {buffer : SendBuffer} {bytes : Bytes} (h : SameBody buffer bytes)
    (seq streamId : UInt32) :
    writeHeader bytes seq streamId = .ok (oneWayPacket buffer seq streamId) := by
  have hroom : 8 ≤ bytes.length := h.length ▸ buffer.room
  have hseq : 0 + (toBeBytes seq).length ≤ bytes.length := by
    rw [length_toBeBytes]
    omega
  have hid : 4 + (toBeBytes streamId).length ≤
      (bytes.take 0 ++ (toBeBytes seq ++ bytes.drop (0 + (toBeBytes seq).length))).length := by
    simp only [List.length_append, List.length_take, List.length_drop, length_toBeBytes]
    omega
  rw [writeHeader, copyInto_of_le hseq, ok_bind, copyInto_of_le hid]
  simp only [List.take_zero, List.nil_append, length_toBeBytes, Nat.zero_add]
  rw [List.take_left' (length_toBeBytes seq), ← List.drop_drop,
    List.drop_left' (length_toBeBytes seq), List.drop_drop, h.body, oneWayPacket]

theorem writeHeader_short {bytes : Bytes} (h : bytes.length < 8) (seq streamId : UInt32) :
    writeHeader bytes seq streamId = .error .sliceOutOfRange := by
  by_cases hseq : 0 + (toBeBytes seq).length ≤ bytes.length
  · have hid : (bytes.take 0 ++ (toBeBytes seq ++ bytes.drop (0 + (toBeBytes seq).length))).length
        < 4 + (toBeBytes streamId).length := by
      rw [length_toBeBytes] at hseq
      simp only [List.length_append, List.length_take, List.length_drop, length_toBeBytes]
      omega
    rw [writeHeader, copyInto_of_le hseq, ok_bind, copyInto_of_lt hid]
  · rw [writeHeader, copyInto_of_lt (by omega), error_bind]

theorem writeHeaders_eq {buffer : SendBuffer} {buffers : List Bytes}
    (h : ∀ bytes ∈ buffers, SameBody buffer bytes) (streamId seq : UInt32) :
    writeHeaders streamId seq buffers =
      .ok (seq + UInt32.ofNat buffers.length,
        (List.range buffers.length).map (numberedPacket buffer seq streamId)) := by
  induction buffers generalizing seq with
  | nil =>
    have hzero : seq + UInt32.ofNat 0 = seq := UInt32.add_zero seq
    rw [writeHeaders, List.length_nil, hzero, List.range_zero, List.map_nil]
  | cons bytes buffers ih =>
    obtain ⟨hbytes, hrest⟩ := List.forall_mem_cons.mp h
    have hshift : ∀ p, seq + 1 + UInt32.ofNat p = seq + UInt32.ofNat (p + 1) := by
      intro p
      rw [UInt32.ofNat_add, UInt32.add_assoc, UInt32.add_comm 1]
      rfl
    have hfirst : oneWayPacket buffer seq streamId = numberedPacket buffer seq streamId 0 :=
      congrArg (oneWayPacket buffer · streamId) (UInt32.add_zero seq).symm
    have hnumbers : (List.range buffers.length).map (numberedPacket buffer (seq + 1) streamId) =
        (List.range buffers.length).map (numberedPacket buffer seq streamId ∘ Nat.succ) :=
      List.map_congr_left (fun p _ => congrArg (oneWayPacket buffer · streamId) (hshift p))
    rw [writeHeaders, writeHeader_eq hbytes, ok_bind, ih hrest, ok_bind, hshift, hnumbers, hfirst,
      List.length_cons, List.range_succ_eq_map, List.map_cons, List.map_map]
    rfl

theorem exists_head_cons {α : Type} {p : α → Prop} (a : α) (as : List α) :
    (∃ b ∈ (a :: as).head?, p b) ↔ p a := by
  simp only [List.head?_cons, Option.mem_some_iff, exists_eq_left']

/-! ### One datagram at a time -/

section Single

variable {start : Instant} {duration : Duration}

theorem sentSizes_ok {tick : OneWaySendTick} {n : ℕ} (hnow : tick.now - start < duration)
    (hresult : tick.result = .ok n) (ticks : List OneWaySendTick) :
    sentSizes start duration (tick :: ticks) = n :: sentSizes start duration ticks := by
  rw [sentSizes, if_pos hnow, hresult]

theorem sentSizes_end {tick : OneWaySendTick}
    (h : ∀ n, tick.now - start < duration → tick.result ≠ .ok n) (ticks : List OneWaySendTick) :
    sentSizes start duration (tick :: ticks) = [] := by
  unfold sentSizes
  split
  · next hnow =>
    cases hresult : tick.result with
    | error e => rfl
    | ok n => exact absurd hresult (h n hnow)
  · rfl

/-- With room for the header, only a counter can overflow. -/
theorem checkedSendLoop_eq {buffer : SendBuffer} {bytes : Bytes} (h : SameBody buffer bytes)
    {st : OneWaySendState} (hbytes : st.bytesSent < 2 ^ 64) (hpackets : st.packetsSent < 2 ^ 64)
    (ticks : List OneWaySendTick) :
    checkedSendLoop start duration bytes st ticks =
      if st.bytesSent + (sentSizes start duration ticks).sum < 2 ^ 64 ∧
        st.packetsSent + (sentSizes start duration ticks).length < 2 ^ 64
      then .ok (oneWaySendLoop start duration buffer st ticks)
      else .error .counterOverflow := by
  induction ticks generalizing bytes st with
  | nil => exact (if_pos ⟨hbytes, hpackets⟩).symm
  | cons tick ticks ih =>
    rw [checkedSendLoop, oneWaySendLoop]
    by_cases hnow : tick.now - start < duration
    · rw [if_pos hnow, if_pos hnow, writeHeader_eq h, ok_bind]
      cases hresult : tick.result with
      | error e =>
        rw [sentSizes_end (fun n _ hok => nomatch hresult.symm.trans hok)]
        exact (if_pos ⟨hbytes, hpackets⟩).symm
      | ok n =>
        rw [sentSizes_ok hnow hresult, List.sum_cons, List.length_cons]
        dsimp only
        by_cases hsum : st.bytesSent + n < 2 ^ 64
        · rw [below_of_lt hsum, ok_bind]
          by_cases hcount : st.packetsSent + 1 < 2 ^ 64
          · rw [below_of_lt hcount, ok_bind, ih (sameBody_packet buffer st.seq 0) hsum hcount,
              Nat.add_assoc, Nat.add_assoc, Nat.add_comm 1]
          · rw [below_of_le (Nat.le_of_not_lt hcount), error_bind, if_neg (by omega)]
        · rw [below_of_le (Nat.le_of_not_lt hsum), error_bind, if_neg (by omega)]
    · rw [if_neg hnow, if_neg hnow, sentSizes_end (fun n hlt _ => hnow hlt)]
      exact (if_pos ⟨hbytes, hpackets⟩).symm

theorem checkedSendLoop_short {bytes : Bytes} (h : bytes.length < 8) (st : OneWaySendState)
    (ticks : List OneWaySendTick) :
    checkedSendLoop start duration bytes st ticks =
      if ∃ tick ∈ ticks.head?, tick.now - start < duration then .error .sliceOutOfRange
      else .ok (none, st) := by
  cases ticks with
  | nil => rfl
  | cons tick ticks =>
    simp only [exists_head_cons]
    unfold checkedSendLoop
    rw [writeHeader_short h, error_bind]

theorem sentSizes_of_not_running {ticks : List OneWaySendTick}
    (h : ¬ ∃ tick ∈ ticks.head?, tick.now - start < duration) :
    sentSizes start duration ticks = [] := by
  cases ticks with
  | nil => rfl
  | cons tick ticks =>
    rw [exists_head_cons] at h
    exact sentSizes_end (fun n hnow => absurd hnow h) ticks

end Single

/-! ### Batches of 64 -/

section Batches

variable {start : Instant} {duration : Duration}

theorem takenCounts_cons {tick : OffsetTick} (hnow : offsetRunning start duration tick.now)
    (hreply : ∀ kind, tick.reply ≠ .failed kind) (ticks : List OffsetTick) :
    takenCounts start duration (tick :: ticks) =
      tick.reply.count :: takenCounts start duration ticks := by
  rw [takenCounts, repliesOf, if_pos hnow]
  cases hcase : tick.reply with
  | failed kind => exact absurd hcase (hreply kind)
  | _ => rfl

theorem takenCounts_end {tick : OffsetTick}
    (h : offsetRunning start duration tick.now → ∃ kind, tick.reply = .failed kind)
    (ticks : List OffsetTick) : takenCounts start duration (tick :: ticks) = [] := by
  rw [takenCounts, repliesOf]
  by_cases hnow : offsetRunning start duration tick.now
  · obtain ⟨kind, hkind⟩ := h hnow
    rw [if_pos hnow, hkind]
    rfl
  · rw [if_neg hnow]
    rfl

theorem writeHeaders_batch {buffer : SendBuffer} {buffers : List Bytes}
    (hlen : buffers.length = batch) (h : ∀ bytes ∈ buffers, SameBody buffer bytes)
    (streamId seq : UInt32) :
    writeHeaders streamId seq buffers =
      .ok (seq + UInt32.ofNat batch, batchPackets buffer seq streamId) := by
  rw [writeHeaders_eq h, hlen, batchPackets]

theorem batchPackets_spec (buffer : SendBuffer) (seq streamId : UInt32) :
    (batchPackets buffer seq streamId).length = batch ∧
      ∀ bytes ∈ batchPackets buffer seq streamId, SameBody buffer bytes := by
  constructor
  · rw [batchPackets, List.length_map, List.length_range]
  · intro bytes hbytes
    obtain ⟨p, -, rfl⟩ := List.mem_map.mp hbytes
    exact sameBody_packet ..

theorem checkedOffsetLoop_eq {buffer : SendBuffer} {buffers : List Bytes} {payloadSize : ℕ}
    (hsize : payloadSize = buffer.bytes.length) (hlen : buffers.length = batch)
    (h : ∀ bytes ∈ buffers, SameBody buffer bytes) (streamId : UInt32) {st : OffsetState}
    (hbytes : st.totalBytes < 2 ^ 64) (hpackets : st.totalPackets < 2 ^ 64)
    (ticks : List OffsetTick) :
    checkedOffsetLoop start duration payloadSize streamId buffers st ticks =
      if st.totalBytes + (takenCounts start duration ticks).sum * payloadSize < 2 ^ 64 ∧
        st.totalPackets + (takenCounts start duration ticks).sum < 2 ^ 64
      then .ok (offsetLoop start duration buffer streamId st ticks)
      else .error .counterOverflow := by
  have hstop : ∀ st : OffsetState, st.totalBytes < 2 ^ 64 → st.totalPackets < 2 ^ 64 →
      st.totalBytes + ([] : List ℕ).sum * payloadSize < 2 ^ 64 ∧
        st.totalPackets + ([] : List ℕ).sum < 2 ^ 64 := by
    intro st hbytes hpackets
    rw [List.sum_nil, Nat.zero_mul]
    exact ⟨hbytes, hpackets⟩
  induction ticks generalizing buffers st with
  | nil => exact (if_pos (hstop st hbytes hpackets)).symm
  | cons tick ticks ih =>
    rw [checkedOffsetLoop, offsetLoop]
    by_cases hnow : offsetRunning start duration tick.now
    · obtain ⟨hlen', hbody'⟩ := batchPackets_spec buffer st.seq streamId
      rw [if_pos hnow, if_pos hnow, writeHeaders_batch hlen h, ok_bind]
      cases hreply : tick.reply with
      | failed kind =>
        rw [takenCounts_end (fun _ => ⟨kind, hreply⟩)]
        exact (if_pos (hstop st hbytes hpackets)).symm
      | wouldBlock =>
        have hcount : tick.reply.count = 0 := by rw [hreply]; rfl
        rw [takenCounts_cons hnow (fun kind hfailed => nomatch hreply.symm.trans hfailed), hcount,
          List.sum_cons, Nat.zero_add]
        exact ih hlen' hbody' hbytes hpackets
      | sent count =>
        have hcount : tick.reply.count = count := by rw [hreply]; rfl
        rw [takenCounts_cons hnow (fun kind hfailed => nomatch hreply.symm.trans hfailed), hcount,
          List.sum_cons, Nat.add_mul]
        dsimp only [OffsetState.round]
        by_cases hpacket : st.totalPackets + count < 2 ^ 64
        · rw [below_of_lt hpacket, ok_bind]
          by_cases hproduct : count * payloadSize < 2 ^ 64
          · rw [below_of_lt hproduct, ok_bind]
            by_cases hsum : st.totalBytes + count * payloadSize < 2 ^ 64
            · rw [below_of_lt hsum, ok_bind, ih hlen' hbody' hsum hpacket, hsize, Nat.add_assoc,
                Nat.add_assoc]
            · rw [below_of_le (Nat.le_of_not_lt hsum), error_bind, if_neg (by omega)]
          · rw [below_of_le (Nat.le_of_not_lt hproduct), error_bind, if_neg (by omega)]
        · rw [below_of_le (Nat.le_of_not_lt hpacket), error_bind, if_neg (by omega)]
    · rw [if_neg hnow, if_neg hnow, takenCounts_end (fun hrun => absurd hrun hnow)]
      exact (if_pos (hstop st hbytes hpackets)).symm

theorem checkedOffsetLoop_short {first : Bytes} {rest : List Bytes} {payloadSize : ℕ}
    (h : first.length < 8) (streamId : UInt32) (st : OffsetState) (ticks : List OffsetTick) :
    checkedOffsetLoop start duration payloadSize streamId (first :: rest) st ticks =
      if ∃ tick ∈ ticks.head?, offsetRunning start duration tick.now then .error .sliceOutOfRange
      else .ok st := by
  cases ticks with
  | nil => rfl
  | cons tick ticks =>
    simp only [exists_head_cons]
    unfold checkedOffsetLoop
    rw [writeHeaders, writeHeader_short h, error_bind, error_bind]

theorem takenCounts_of_not_running {ticks : List OffsetTick}
    (h : ¬ ∃ tick ∈ ticks.head?, offsetRunning start duration tick.now) :
    takenCounts start duration ticks = [] := by
  cases ticks with
  | nil => rfl
  | cons tick ticks =>
    rw [exists_head_cons] at h
    exact takenCounts_end (fun hrun => absurd hrun h) ticks

end Batches

/-! ### Streams and ports -/

theorem fine_localPortOf (streamId : ℕ) :
    Fine (localPortOf streamId) ↔ streamId = 0 ∨ 5201 + streamId % 2 ^ 16 < 2 ^ 16 := by
  unfold localPortOf
  by_cases h : streamId = 0
  · rw [if_pos h]
    exact iff_of_true (fine_ok 0) (.inl h)
  · rw [if_neg h, below, fine_ite]
    exact (or_iff_right h).symm

/-- Stream 60335 is the first one whose port does not fit. -/
theorem ports_fine_iff {parallel : ℕ} (h : 1 < parallel) :
    (∀ streamId < parallel, Fine (seqOffsetOf streamId) ∧ Fine (localPortOf streamId)) ↔
      parallel ≤ 60335 := by
  simp only [fine_localPortOf, seqOffsetOf, below, fine_ite]
  constructor
  · intro hall
    by_contra hcon
    have hport := (hall 60335 (by omega)).2
    omega
  · intro hle streamId hlt
    omega

example : localPortOf 60335 = .error .localPortOverflow := rfl

namespace Client

variable {c : Client} {net : Network}

theorem length_zeroed (c : Client) : c.zeroed.length = c.config.bufferSize :=
  List.length_replicate ..

theorem zeroed_short (h : ¬ 8 ≤ c.config.bufferSize) : c.zeroed.length < 8 := by
  rw [length_zeroed]
  omega

theorem sameBody_zeroed (h : 8 ≤ c.config.bufferSize) :
    SameBody (zeroBuffer c.config.bufferSize h) c.zeroed := ⟨rfl, rfl⟩

theorem sendOneWayRun_eq (h : 8 ≤ c.config.bufferSize) :
    c.sendOneWayRun net =
      if (sentSizes net.loopStart c.config.duration net.oneWaySends).sum < 2 ^ 64 ∧
        (sentSizes net.loopStart c.config.duration net.oneWaySends).length < 2 ^ 64
      then .ok (oneWaySendLoop net.loopStart c.config.duration (zeroBuffer c.config.bufferSize h)
        ⟨0, 0, 0, []⟩ net.oneWaySends)
      else .error .counterOverflow := by
  rw [sendOneWayRun, checkedSendLoop_eq (sameBody_zeroed h) (by decide) (by decide), Nat.zero_add,
    Nat.zero_add]

theorem fine_sendOneWayRun : Fine (c.sendOneWayRun net) ↔ c.SingleInBounds net := by
  by_cases h : 8 ≤ c.config.bufferSize
  · rw [sendOneWayRun_eq h, fine_ite]
    exact ⟨fun hfits => ⟨fun _ => h, hfits.1, hfits.2⟩, fun hin => ⟨hin.bytes, hin.packets⟩⟩
  · rw [sendOneWayRun, checkedSendLoop_short (zeroed_short h)]
    by_cases hrun : ∃ tick ∈ net.oneWaySends.head?, tick.now - net.loopStart < c.config.duration
    · rw [if_pos hrun]
      exact iff_of_false (not_fine_error _) (fun hin => h (hin.room hrun))
    · have hnone := sentSizes_of_not_running hrun
      rw [if_neg hrun]
      refine iff_of_true (fine_ok _) ⟨fun hnow => absurd hnow hrun, ?_, ?_⟩
      · rw [hnone]
        decide
      · rw [hnone]
        decide

def offsetStart (streamId : ℕ) : OffsetState :=
  ⟨UInt32.ofNat (streamId * 10000000), 0, 0, []⟩

theorem offsetRun_eq (h : 8 ≤ c.config.bufferSize) (s : OneWayStream) (streamId : ℕ) :
    checkedOffsetLoop s.start c.config.duration c.config.bufferSize (UInt32.ofNat streamId)
        (List.replicate batch c.zeroed) (offsetStart streamId) s.ticks =
      if (takenCounts s.start c.config.duration s.ticks).sum * c.config.bufferSize < 2 ^ 64
      then .ok (offsetLoop s.start c.config.duration (zeroBuffer c.config.bufferSize h)
        (UInt32.ofNat streamId) (offsetStart streamId) s.ticks)
      else .error .counterOverflow := by
  have hall : ∀ bytes ∈ List.replicate batch c.zeroed,
      SameBody (zeroBuffer c.config.bufferSize h) bytes := by
    intro bytes hbytes
    rw [List.eq_of_mem_replicate hbytes]
    exact sameBody_zeroed h
  -- a datagram has a byte at least, so that the packets fit if the bytes do
  have hless : (takenCounts s.start c.config.duration s.ticks).sum ≤
      (takenCounts s.start c.config.duration s.ticks).sum * c.config.bufferSize :=
    Nat.le_mul_of_pos_right _ (by omega)
  have hsize : c.config.bufferSize = (zeroBuffer c.config.bufferSize h).bytes.length :=
    c.length_zeroed.symm
  have hbytes : (offsetStart streamId).totalBytes = 0 := rfl
  have hpackets : (offsetStart streamId).totalPackets = 0 := rfl
  rw [checkedOffsetLoop_eq hsize (List.length_replicate ..) hall (UInt32.ofNat streamId)
    (by rw [hbytes]; decide) (by rw [hpackets]; decide), hbytes, hpackets, Nat.zero_add,
    Nat.zero_add]
  exact ite_congr (propext (and_iff_left_of_imp (Nat.lt_of_le_of_lt hless))) (fun _ => rfl)
    (fun _ => rfl)

theorem offsetRun_short (h : ¬ 8 ≤ c.config.bufferSize) (s : OneWayStream) (streamId : ℕ) :
    checkedOffsetLoop s.start c.config.duration c.config.bufferSize (UInt32.ofNat streamId)
        (List.replicate batch c.zeroed) (offsetStart streamId) s.ticks =
      if ∃ tick ∈ s.ticks.head?, offsetRunning s.start c.config.duration tick.now
      then .error .sliceOutOfRange
      else .ok (offsetStart streamId) := by
  have hbuffers : List.replicate batch c.zeroed =
      c.zeroed :: List.replicate (batch - 1) c.zeroed := rfl
  rw [hbuffers, checkedOffsetLoop_short (zeroed_short h)]

theorem fine_offsetRun (s : OneWayStream) (streamId : ℕ) :
    Fine (checkedOffsetLoop s.start c.config.duration c.config.bufferSize (UInt32.ofNat streamId)
      (List.replicate batch c.zeroed) (offsetStart streamId) s.ticks) ↔ c.StreamInBounds s := by
  by_cases h : 8 ≤ c.config.bufferSize
  · rw [offsetRun_eq h, fine_ite]
    exact ⟨fun hfits => ⟨fun _ => h, hfits⟩, fun hin => hin.bytes⟩
  · rw [offsetRun_short h]
    by_cases hrun : ∃ tick ∈ s.ticks.head?, offsetRunning s.start c.config.duration tick.now
    · rw [if_pos hrun]
      exact iff_of_false (not_fine_error _) (fun hin => h (hin.room hrun))
    · rw [if_neg hrun]
      refine iff_of_true (fine_ok _) ⟨fun hnow => absurd hnow hrun, ?_⟩
      rw [takenCounts_of_not_running hrun, List.sum_nil, Nat.zero_mul]
      decide

theorem streamRun_eq {streamId seqOffset localPort : ℕ}
    (hoffset : seqOffsetOf streamId = .ok seqOffset) (hport : localPortOf streamId = .ok localPort)
    (hbind : (net.streams streamId).bind = .ok ())
    (hconnected : (net.streams streamId).connected = true) :
    c.streamRun net streamId =
      (checkedOffsetLoop (net.streams streamId).start c.config.duration c.config.bufferSize
        (UInt32.ofNat streamId) (List.replicate batch c.zeroed) (offsetStart streamId)
        (net.streams streamId).ticks >>= fun st => .ok (some st)) := by
  have hvalue : seqOffset = streamId * 10000000 := by
    unfold seqOffsetOf below at hoffset
    split at hoffset
    · exact (Except.ok.inj hoffset).symm
    · exact nomatch hoffset
  rw [streamRun, hoffset, ok_bind, hport, ok_bind]
  simp only [hbind, if_pos hconnected, hvalue]
  rfl

theorem streamRun_none {streamId seqOffset localPort : ℕ}
    (hoffset : seqOffsetOf streamId = .ok seqOffset) (hport : localPortOf streamId = .ok localPort)
    (h : ¬ ((net.streams streamId).bind = .ok () ∧ (net.streams streamId).connected = true)) :
    c.streamRun net streamId = .ok none := by
  rw [streamRun, hoffset, ok_bind, hport, ok_bind]
  cases hbind : (net.streams streamId).bind with
  | error e => simp only [hbind]; rfl
  | ok u =>
    have hconnected : ¬ (net.streams streamId).connected = true := fun hconn => h ⟨hbind, hconn⟩
    simp only [hbind, if_neg hconnected]
    rfl

theorem fine_streamRun (streamId : ℕ) :
    Fine (c.streamRun net streamId) ↔
      (Fine (seqOffsetOf streamId) ∧ Fine (localPortOf streamId)) ∧
        ((net.streams streamId).bind = .ok () → (net.streams streamId).connected = true →
          c.StreamInBounds (net.streams streamId)) := by
  cases hoffset : seqOffsetOf streamId with
  | error e =>
    rw [streamRun, hoffset, error_bind]
    exact iff_of_false (not_fine_error e) (fun h => not_fine_error e h.1.1)
  | ok seqOffset =>
    cases hport : localPortOf streamId with
    | error e =>
      rw [streamRun, hoffset, ok_bind, hport, error_bind]
      exact iff_of_false (not_fine_error e) (fun h => not_fine_error e h.1.2)
    | ok localPort =>
      rw [and_iff_right ⟨fine_ok seqOffset, fine_ok localPort⟩]
      by_cases hsends : (net.streams streamId).bind = .ok () ∧
          (net.streams streamId).connected = true
      · rw [streamRun_eq hoffset hport hsends.1 hsends.2, fine_bind_ok, fine_offsetRun]
        exact ⟨fun hin _ _ => hin, fun hin => hin hsends.1 hsends.2⟩
      · rw [streamRun_none hoffset hport hsends]
        exact iff_of_true (fine_ok none) (fun hbind hconn => absurd ⟨hbind, hconn⟩ hsends)

/-! ### The same runs in `Rperf3.ClientRun` -/

def exitResult : Option Error → RunResult
  | none => .ok
  | some e => .err e

theorem runOneWaySingle_of_run {exit : Option Error} {st : OneWaySendState}
    (h : c.sendOneWayRun net = .ok (exit, st)) :
    c.runOneWaySingle net = c.unrecorded (exitResult exit) st.bytesSent 0 := by
  by_cases hroom : 8 ≤ c.config.bufferSize
  · rw [sendOneWayRun_eq hroom] at h
    split at h
    · have hloop := Except.ok.inj h
      rw [runOneWaySingle, dif_pos hroom]
      simp only [sendOneWay, OneWaySendRun.loop, hloop]
      cases exit with
      | none => rfl
      | some e => rfl
    · cases h
  · rw [sendOneWayRun, checkedSendLoop_short (zeroed_short hroom)] at h
    split at h
    · cases h
    · next hidle =>
      obtain ⟨rfl, rfl⟩ := Prod.mk.inj (Except.ok.inj h)
      rw [runOneWaySingle, dif_neg hroom]
      cases hticks : net.oneWaySends with
      | nil => rfl
      | cons tick ticks =>
        rw [hticks, exists_head_cons] at hidle
        simp only [if_neg hidle]
        rfl

theorem runOneWaySingle_of_slice (h : c.sendOneWayRun net = .error .sliceOutOfRange) :
    (c.runOneWaySingle net).result = .panicked := by
  by_cases hroom : 8 ≤ c.config.bufferSize
  · rw [sendOneWayRun_eq hroom] at h
    split at h
    · cases h
    · cases h
  · rw [sendOneWayRun, checkedSendLoop_short (zeroed_short hroom)] at h
    split at h
    · next hrun =>
      rw [runOneWaySingle, dif_neg hroom]
      cases hticks : net.oneWaySends with
      | nil =>
        rw [hticks] at hrun
        obtain ⟨tick, hmem, -⟩ := hrun
        cases hmem
      | cons tick ticks =>
        rw [hticks, exists_head_cons] at hrun
        simp only [if_pos hrun]
        rfl
    · cases h

def acceptedBytes : Option OffsetState → ℕ
  | none => 0
  | some st => (st.accepted.map List.length).sum

theorem streamSent_of_run {streamId : ℕ} {out : Option OffsetState}
    (h : c.streamRun net streamId = .ok out) :
    c.streamSent net streamId = acceptedBytes out := by
  obtain ⟨⟨⟨seqOffset, hoffset⟩, localPort, hport⟩, -⟩ := (fine_streamRun streamId).mp ⟨out, h⟩
  unfold streamSent
  cases hbind : (net.streams streamId).bind with
  | error e =>
    have hnone : ¬ ((net.streams streamId).bind = .ok () ∧
        (net.streams streamId).connected = true) := by
      rintro ⟨hok, -⟩
      cases hbind.symm.trans hok
    simp only [hbind]
    rw [streamRun_none hoffset hport hnone] at h
    cases h
    rfl
  | ok u =>
    by_cases hconnected : (net.streams streamId).connected = true
    · rw [streamRun_eq hoffset hport hbind hconnected] at h
      by_cases hroom : 8 ≤ c.config.bufferSize
      · rw [offsetRun_eq hroom] at h
        simp only [hbind, dif_pos hroom, if_pos hconnected]
        split at h
        · cases h
          rfl
        · cases h
      · rw [offsetRun_short hroom] at h
        simp only [hbind, dif_neg hroom]
        split at h
        · cases h
        · cases h
          rfl
    · rw [streamRun_none hoffset hport (fun hsends => hconnected hsends.2)] at h
      cases h
      simp only [hbind, if_neg hconnected, dite_eq_ite, ite_self]
      rfl

end Client

/-- Every header is written inside its buffer and nothing overflows exactly if there is room for a
header, there are at most 60335 streams and the counters do not reach their bound. -/
theorem sendsFaultless_iff (c : Client) (net : Network) :
    c.SendsFaultless net ↔ c.SendsInBounds net := by
  unfold Client.SendsFaultless Client.SendsInBounds
  by_cases h : c.config.parallel ≤ 1
  · rw [if_pos h, if_pos h]
    exact Client.fine_sendOneWayRun
  · rw [if_neg h, if_neg h, ← ports_fine_iff (Nat.lt_of_not_le h)]
    simp only [Client.fine_streamRun]
    exact ⟨fun hall => ⟨fun id hid => (hall id hid).1, fun id hid => (hall id hid).2⟩,
      fun hall id hid => ⟨hall.1 id hid, hall.2 id hid⟩⟩

def fourByteConfig : Config := ⟨.udp, Duration.fromSecs 1, none, 4, 1, false, .send, none⟩

/-- A buffer of four bytes has no room for the stream number. -/
theorem fourBytes_fault :
    ¬ ∀ (serverAddr : Option String) (config : Config) (interval : Duration) (c : Client)
      (net : Network), Client.new serverAddr config interval = .ok c →
      config.protocol = .udp → config.oneWay = .send → c.SendsFaultless net := by
  intro h
  have hfine := h (some "127.0.0.1") fourByteConfig (Duration.fromSecs 1) _ smallNetwork rfl rfl rfl
  unfold Client.SendsFaultless at hfine
  rw [if_pos (by decide), Client.sendOneWayRun,
    checkedSendLoop_short (Client.zeroed_short (by decide)), if_pos (by decide)] at hfine
  exact not_fine_error _ hfine

end Rperf3
