import Rperf3.OneWayReceive
import Mathlib.Data.List.Chain
import Mathlib.Data.List.Range

/-!
# One-way UDP send (`client.rs:1899-2214`)

`send_one_way` sends one datagram at a time from number 0 on.
`send_one_way_with_offset` runs in its own thread for each parallel stream; on
Linux it numbers 64 datagrams, hands all of them to `sendmmsg` and goes on with
the next 64, however many the kernel took. What the network is handed is kept in
the lists `sent` and `accepted`.
-/

namespace Rperf3

/-- The buffer of a sender; one shorter than eight bytes panics at the first datagram. -/
structure SendBuffer where
  bytes : Bytes
  room : 8 ≤ bytes.length

/-- The first eight bytes overwritten with the number and the stream (`client.rs:1918-1920`,
`2102-2103`). -/
def oneWayPacket (buffer : SendBuffer) (seq streamId : UInt32) : Bytes :=
  toBeBytes seq ++ (toBeBytes streamId ++ buffer.bytes.drop 8)

theorem length_oneWayPacket (buffer : SendBuffer) (seq streamId : UInt32) :
    (oneWayPacket buffer seq streamId).length = buffer.bytes.length := by
  have := buffer.room
  simp only [oneWayPacket, List.length_append, length_toBeBytes, List.length_drop]
  omega

theorem seqOf_oneWayPacket (buffer : SendBuffer) (seq streamId : UInt32) :
    seqOf (oneWayPacket buffer seq streamId) = seq := by
  rw [seqOf, oneWayPacket, List.take_left' (length_toBeBytes seq), fromBeBytes_toBeBytes]

theorem streamIdOf_oneWayPacket (buffer : SendBuffer) (seq streamId : UInt32) :
    streamIdOf (oneWayPacket buffer seq streamId) = streamId := by
  rw [streamIdOf, oneWayPacket, List.drop_left' (length_toBeBytes seq),
    List.take_left' (length_toBeBytes streamId), fromBeBytes_toBeBytes]

/-- `OneWaySendStats` (`measurements.rs:2262-2273`). -/
structure OneWaySendStats where
  bytesSent : ℕ
  packetsSent : ℕ
  duration : Duration

/-! ### One datagram at a time (`client.rs:1904-1946`) -/

structure OneWaySendState where
  bytesSent : ℕ
  packetsSent : ℕ
  seq : UInt32
  sent : List Bytes

structure OneWaySendTick where
  now : Instant
  result : Except ErrorKind ℕ

def oneWaySendLoop (start : Instant) (duration : Duration) (buffer : SendBuffer) :
    OneWaySendState → List OneWaySendTick → Option Error × OneWaySendState
  | st, [] => (none, st)
  | st, tick :: ticks =>
    if tick.now - start < duration then
      let packet := oneWayPacket buffer st.seq 0
      match tick.result with
      | .ok n =>
        oneWaySendLoop start duration buffer
          { bytesSent := st.bytesSent + n
            packetsSent := st.packetsSent + 1
            seq := st.seq + 1
            sent := st.sent ++ [packet] } ticks
      | .error e => (some (.io e), { st with seq := st.seq + 1 })
    else (none, st)

structure OneWaySendRun where
  start : Instant
  duration : Duration
  buffer : SendBuffer
  ticks : List OneWaySendTick
  finish : Instant

def OneWaySendRun.loop (r : OneWaySendRun) : Option Error × OneWaySendState :=
  oneWaySendLoop r.start r.duration r.buffer ⟨0, 0, 0, []⟩ r.ticks

/-- `send_one_way`. -/
def sendOneWay (r : OneWaySendRun) : Except Error OneWaySendStats :=
  match r.loop with
  | (some e, _) => .error e
  | (none, st) => .ok ⟨st.bytesSent, st.packetsSent, r.finish - r.start⟩

def numberedPacket (buffer : SendBuffer) (start streamId : UInt32) (p : ℕ) : Bytes :=
  oneWayPacket buffer (start + UInt32.ofNat p) streamId

theorem oneWaySendLoop_sent (start : Instant) (duration : Duration) (buffer : SendBuffer)
    (st : OneWaySendState) (ticks : List OneWaySendTick)
    (hseq : st.seq = UInt32.ofNat st.sent.length)
    (hsent : st.sent = (List.range st.sent.length).map (numberedPacket buffer 0 0)) :
    (oneWaySendLoop start duration buffer st ticks).2.sent =
      (List.range (oneWaySendLoop start duration buffer st ticks).2.sent.length).map
        (numberedPacket buffer 0 0) := by
  induction ticks generalizing st with
  | nil => exact hsent
  | cons tick ticks ih =>
    unfold oneWaySendLoop
    split
    · cases tick.result with
      | error e => exact hsent
      | ok n =>
        refine ih _ ?_ ?_
        · simp only [hseq, List.length_append, List.length_singleton, UInt32.ofNat_add]
          rfl
        · simp only [List.length_append, List.length_singleton, List.range_succ, List.map_append,
            List.map_cons, List.map_nil, ← hsent, numberedPacket, UInt32.zero_add, hseq]
    · exact hsent

/-- `send_one_way` numbers its datagrams one after the other from 0. -/
theorem sendOneWay_numbers (r : OneWaySendRun) :
    r.loop.2.sent = (List.range r.loop.2.sent.length).map (numberedPacket r.buffer 0 0) :=
  oneWaySendLoop_sent r.start r.duration r.buffer ⟨0, 0, 0, []⟩ r.ticks rfl rfl

/-! ### Batches of 64 (`client.rs:1953-2214`, Linux) -/

def batch : ℕ := 64

/-- What `sendmmsg` returns for a full batch: how many of its first messages it sent, or the
error. -/
inductive BatchReply where
  | sent (count : Fin (batch + 1))
  | wouldBlock
  | failed (kind : ErrorKind)

def BatchReply.count : BatchReply → ℕ
  | .sent count => count
  | .wouldBlock => 0
  | .failed _ => 0

structure OffsetState where
  seq : UInt32
  totalBytes : ℕ
  totalPackets : ℕ
  accepted : List Bytes

structure OffsetTick where
  now : Instant
  reply : BatchReply

/-- The datagrams written into the packet buffers, numbered from `seq` on. -/
def batchPackets (buffer : SendBuffer) (seq streamId : UInt32) : List Bytes :=
  (List.range batch).map (numberedPacket buffer seq streamId)

/-- One round of the loop (`client.rs:2098-2120`); none leaves it. -/
def OffsetState.round (st : OffsetState) (buffer : SendBuffer) (streamId : UInt32)
    (reply : BatchReply) : Option OffsetState :=
  let packets := batchPackets buffer st.seq streamId
  let seq := st.seq + UInt32.ofNat batch
  match reply with
  | .sent count =>
    some
      { seq := seq
        totalBytes := st.totalBytes + count * buffer.bytes.length
        totalPackets := st.totalPackets + count
        accepted := st.accepted ++ packets.take count }
  | .wouldBlock => some { st with seq := seq }
  | .failed _ => none

/-- The loop condition compares nanoseconds as `u64`. -/
def offsetRunning (start : Instant) (duration : Duration) (now : Instant) : Prop :=
  UInt64.ofNat (now - start) < UInt64.ofNat duration

instance (start : Instant) (duration : Duration) (now : Instant) :
    Decidable (offsetRunning start duration now) :=
  inferInstanceAs (Decidable (_ < _))

def offsetLoop (start : Instant) (duration : Duration) (buffer : SendBuffer) (streamId : UInt32) :
    OffsetState → List OffsetTick → OffsetState
  | st, [] => st
  | st, tick :: ticks =>
    if offsetRunning start duration tick.now then
      match st.round buffer streamId tick.reply with
      | some st => offsetLoop start duration buffer streamId st ticks
      | none => st
    else st

structure OffsetRun where
  /-- `socket` and `connect` have succeeded -/
  connected : Bool
  start : Instant
  duration : Duration
  buffer : SendBuffer
  seqOffset : UInt32
  streamId : UInt32
  ticks : List OffsetTick

namespace OffsetRun

def final (r : OffsetRun) : OffsetState :=
  offsetLoop r.start r.duration r.buffer r.streamId ⟨r.seqOffset, 0, 0, []⟩ r.ticks

def accepted (r : OffsetRun) : List Bytes := r.final.accepted

end OffsetRun

/-- `send_one_way_with_offset`: the totals the thread sends back, or an error when it ends without
sending them. -/
def sendOneWayWithOffset (r : OffsetRun) : Except Error OneWaySendStats :=
  if r.connected then .ok ⟨r.final.totalBytes, r.final.totalPackets, 0⟩
  else .error (.io .other)

/-! ### The positions of the datagrams the kernel took -/

def repliesOf (start : Instant) (duration : Duration) : List OffsetTick → List BatchReply
  | [] => []
  | tick :: ticks =>
    if offsetRunning start duration tick.now then
      match tick.reply with
      | .failed _ => []
      | reply => reply :: repliesOf start duration ticks
    else []

def OffsetRun.replies (r : OffsetRun) : List BatchReply := repliesOf r.start r.duration r.ticks

/-- The datagram at position `p` is the `p`-th that was numbered; of a batch the kernel takes the
first ones. -/
def takenFrom : ℕ → List BatchReply → List ℕ
  | _, [] => []
  | base, reply :: replies =>
    (List.range reply.count).map (base + ·) ++ takenFrom (base + batch) replies

def OffsetRun.taken (r : OffsetRun) : List ℕ := takenFrom 0 r.replies

theorem count_le_batch (reply : BatchReply) : reply.count ≤ batch := by
  cases reply with
  | sent count => exact Nat.le_of_lt_succ count.isLt
  | wouldBlock => exact Nat.zero_le _
  | failed kind => exact Nat.zero_le _

theorem takenFrom_bounds {base p : ℕ} {replies : List BatchReply}
    (h : p ∈ takenFrom base replies) : base ≤ p ∧ p < base + batch * replies.length := by
  induction replies generalizing base with
  | nil => exact absurd h List.not_mem_nil
  | cons reply replies ih =>
    have hcount := count_le_batch reply
    rw [List.length_cons, Nat.mul_succ]
    rcases List.mem_append.mp h with h | h
    · obtain ⟨i, hi, rfl⟩ := List.mem_map.mp h
      rw [List.mem_range] at hi
      omega
    · have := ih h
      omega

theorem takenFrom_increasing (base : ℕ) (replies : List BatchReply) :
    (takenFrom base replies).IsChain (· < ·) := by
  rw [List.isChain_iff_pairwise]
  induction replies generalizing base with
  | nil => exact .nil
  | cons reply replies ih =>
    have hcount := count_le_batch reply
    rw [takenFrom, List.pairwise_append]
    refine ⟨?_, ih (base + batch), ?_⟩
    · rw [List.pairwise_map]
      exact List.pairwise_lt_range.imp (fun h => Nat.add_lt_add_left h base)
    · intro p hp q hq
      obtain ⟨i, hi, rfl⟩ := List.mem_map.mp hp
      rw [List.mem_range] at hi
      have := (takenFrom_bounds hq).1
      omega

theorem batchPackets_take (buffer : SendBuffer) (start streamId : UInt32) (base : ℕ) {n : ℕ}
    (hn : n ≤ batch) :
    (batchPackets buffer (start + UInt32.ofNat base) streamId).take n =
      ((List.range n).map (base + ·)).map (numberedPacket buffer start streamId) := by
  rw [batchPackets, ← List.map_take, List.take_range, Nat.min_eq_left hn, List.map_map]
  refine List.map_congr_left (fun i _ => ?_)
  simp only [Function.comp_apply, numberedPacket, UInt32.ofNat_add, UInt32.add_assoc]

theorem offsetLoop_accepted (start : Instant) (duration : Duration) (buffer : SendBuffer)
    (seqOffset streamId : UInt32) (st : OffsetState) (ticks : List OffsetTick) (base : ℕ)
    (hseq : st.seq = seqOffset + UInt32.ofNat base) :
    (offsetLoop start duration buffer streamId st ticks).accepted =
      st.accepted ++ (takenFrom base (repliesOf start duration ticks)).map
        (numberedPacket buffer seqOffset streamId) ∧
    (offsetLoop start duration buffer streamId st ticks).totalPackets =
      st.totalPackets + (takenFrom base (repliesOf start duration ticks)).length := by
  induction ticks generalizing st base with
  | nil => exact ⟨(List.append_nil _).symm, rfl⟩
  | cons tick ticks ih =>
    have hnext : st.seq + UInt32.ofNat batch = seqOffset + UInt32.ofNat (base + batch) := by
      rw [hseq, UInt32.ofNat_add, UInt32.add_assoc]
    unfold offsetLoop repliesOf
    by_cases hrun : offsetRunning start duration tick.now
    · rw [if_pos hrun, if_pos hrun]
      cases hreply : tick.reply with
      | sent count =>
        obtain ⟨haccepted, hpackets⟩ := ih
          { seq := st.seq + UInt32.ofNat batch
            totalBytes := st.totalBytes + count * buffer.bytes.length
            totalPackets := st.totalPackets + count
            accepted := st.accepted ++ (batchPackets buffer st.seq streamId).take count }
          (base + batch) hnext
        simp only [OffsetState.round, takenFrom, BatchReply.count]
        rw [haccepted, hpackets, hseq,
          batchPackets_take buffer seqOffset streamId base (Nat.le_of_lt_succ count.isLt)]
        simp only [List.map_append, List.append_assoc, List.length_append, List.length_map,
          List.length_range, Nat.add_assoc, and_self]
      | wouldBlock =>
        exact ih { st with seq := st.seq + UInt32.ofNat batch } (base + batch) hnext
      | failed kind => exact ⟨(List.append_nil _).symm, rfl⟩
    · rw [if_neg hrun, if_neg hrun]
      exact ⟨(List.append_nil _).symm, rfl⟩

/-- The kernel takes the datagrams at the positions `taken`, and as many are reported as sent. -/
theorem OffsetRun.accepted_eq (r : OffsetRun) :
    r.accepted = r.taken.map (numberedPacket r.buffer r.seqOffset r.streamId) ∧
      r.final.totalPackets = r.taken.length := by
  have hzero : r.seqOffset = r.seqOffset + UInt32.ofNat 0 := (UInt32.add_zero _).symm
  obtain ⟨haccepted, hpackets⟩ := offsetLoop_accepted r.start r.duration r.buffer r.seqOffset
    r.streamId ⟨r.seqOffset, 0, 0, []⟩ r.ticks 0 hzero
  exact ⟨haccepted.trans (List.nil_append _), hpackets.trans (Nat.zero_add _)⟩

end Rperf3
