import Rperf3.Library.SeqGap
import Rperf3.Primitive
import Mathlib.Algebra.BigOperators.Pi
import Mathlib.Algebra.Order.BigOperators.Group.List

/-!
# One-way UDP receive on the server (`server.rs:1609-1760`)

`recv_one_way_server_with_socket` receives until the test ends and keeps, for
every stream identifier, the sequence number it expects next. All streams add to
the same four counters. The trackers are shown to be independent machines
(`foldl_onDatagram`), and each of them to be the gap counter of `SeqGap` as long
as the number `u32::MAX` does not occur (`track_simulates`).
-/

namespace Rperf3
open KeyedFold

/-- Per-stream sequence state (`server.rs:1610-1620`). -/
structure StreamState where
  expectedSeq : UInt32
  deriving DecidableEq, Repr

def StreamState.new (initialSeq : UInt32) : StreamState := ⟨initialSeq⟩

inductive Arrival where
  | gap (lost : ℕ)
  | late
  | inOrder

/-- The comparison and update of `server.rs:1702-1711`. -/
def StreamState.observe (s : StreamState) (seq : UInt32) : Arrival × StreamState :=
  if seq > s.expectedSeq then (.gap (seq - s.expectedSeq).toNat, ⟨seq + 1⟩)
  else if seq < s.expectedSeq then (.late, s)
  else (.inOrder, ⟨s.expectedSeq + 1⟩)

def seqOf (buf : Bytes) : UInt32 := fromBeBytes (buf.take 4)

def streamIdOf (buf : Bytes) : UInt32 := fromBeBytes ((buf.drop 4).take 4)

/-- The counters and the per-stream states (`server.rs:1630-1637`). These counters are exact; the
program's are `u64` and count modulo `2 ^ 64` (`Counters`). -/
structure Tally where
  bytesReceived : ℕ
  packetsReceived : ℕ
  outOfOrder : ℕ
  packetsLost : ℕ
  streamStates : UInt32 → Option StreamState

def Tally.new : Tally := ⟨0, 0, 0, 0, fun _ => none⟩

/-- The treatment of one datagram of `buf.length` bytes (`server.rs:1685-1713`). -/
def Tally.onDatagram (t : Tally) (buf : Bytes) : Tally :=
  let t := { t with
    bytesReceived := t.bytesReceived + buf.length
    packetsReceived := t.packetsReceived + 1 }
  if buf.length ≥ 8 then
    let seq := seqOf buf
    let streamId := streamIdOf buf
    let streamState := (t.streamStates streamId).getD (StreamState.new seq)
    match streamState.observe seq with
    | (.gap lost, s) =>
      { t with
        packetsLost := t.packetsLost + lost
        streamStates := Function.update t.streamStates streamId (some s) }
    | (.late, s) =>
      { t with
        outOfOrder := t.outOfOrder + 1
        streamStates := Function.update t.streamStates streamId (some s) }
    | (.inOrder, s) =>
      { t with streamStates := Function.update t.streamStates streamId (some s) }
  else t

/-- The counters as the program has them. In a build with overflow checks it stops where these
wrap. -/
structure Counters where
  bytesReceived : UInt64
  packetsReceived : UInt64
  outOfOrder : UInt64
  packetsLost : UInt64
  streamStates : UInt32 → Option StreamState

def Counters.new : Counters := ⟨0, 0, 0, 0, fun _ => none⟩

def Counters.onDatagram (c : Counters) (buf : Bytes) : Counters :=
  let c := { c with
    bytesReceived := c.bytesReceived + .ofNat buf.length
    packetsReceived := c.packetsReceived + 1 }
  if buf.length ≥ 8 then
    let seq := seqOf buf
    let streamId := streamIdOf buf
    let streamState := (c.streamStates streamId).getD (StreamState.new seq)
    match streamState.observe seq with
    | (.gap lost, s) =>
      { c with
        packetsLost := c.packetsLost + .ofNat lost
        streamStates := Function.update c.streamStates streamId (some s) }
    | (.late, s) =>
      { c with
        outOfOrder := c.outOfOrder + 1
        streamStates := Function.update c.streamStates streamId (some s) }
    | (.inOrder, s) =>
      { c with streamStates := Function.update c.streamStates streamId (some s) }
  else c

def Tally.counters (t : Tally) : Counters :=
  { bytesReceived := .ofNat t.bytesReceived
    packetsReceived := .ofNat t.packetsReceived
    outOfOrder := .ofNat t.outOfOrder
    packetsLost := .ofNat t.packetsLost
    streamStates := t.streamStates }

theorem counters_onDatagram (t : Tally) (buf : Bytes) :
    (t.onDatagram buf).counters = t.counters.onDatagram buf := by
  unfold Tally.onDatagram Counters.onDatagram
  simp only [Tally.counters]
  split
  · rcases ((t.streamStates (streamIdOf buf)).getD (StreamState.new (seqOf buf))).observe
      (seqOf buf) with ⟨_ | _ | _, s⟩ <;> simp only [UInt64.ofNat_add] <;> rfl
  · simp only [UInt64.ofNat_add]
    rfl

theorem counters_foldl (t : Tally) (bufs : List Bytes) :
    (bufs.foldl Tally.onDatagram t).counters = bufs.foldl Counters.onDatagram t.counters := by
  induction bufs generalizing t with
  | nil => rfl
  | cons buf bufs ih => rw [List.foldl_cons, List.foldl_cons, ih, counters_onDatagram]

/-- `packets_lost` as a percentage of what was sent (`server.rs:1666-1671`, `1725-1730`). -/
def Tally.lossPct (t : Tally) : Option F64 :=
  let totalSent := t.packetsReceived + t.packetsLost
  if totalSent > 0 then some ((t.packetsLost : F64) / totalSent * 100) else none

/-- A line printed for an interval (`server.rs:1673-1681`). -/
structure IntervalLine where
  time : Duration
  bytesInInterval : ℕ
  rateGbps : F64
  packets : ℕ
  bytes : ℕ
  lost : ℕ
  lossPct : F64

structure RecvState where
  tally : Tally
  intervalBytes : ℕ
  intervalStart : Instant
  prevIntervalEnd : Instant
  printed : List IntervalLine

def RecvState.new (start : Instant) : RecvState := ⟨Tally.new, 0, start, start, []⟩

/-- The report made when a second has passed (`server.rs:1663-1686`); `clock` is read by
`interval_start.elapsed()`. -/
def RecvState.report (st : RecvState) (start current clock : Instant) : RecvState :=
  if current - st.prevIntervalEnd ≥ Duration.fromSecs 1 then
    let elapsed := Duration.asSecsF64 (clock - st.intervalStart)
    { st with
      intervalBytes := 0
      intervalStart := current
      prevIntervalEnd := current
      printed := st.printed ++
        [{ time := current - start
           bytesInInterval := st.intervalBytes
           rateGbps := (st.intervalBytes : F64) * 8 / (elapsed * 1000000000)
           packets := st.tally.packetsReceived
           bytes := st.tally.bytesReceived
           lost := st.tally.packetsLost
           lossPct := st.tally.lossPct.getD 0 }] }
  else st

def RecvState.onDatagram (st : RecvState) (buf : Bytes) : RecvState :=
  { st with
    tally := st.tally.onDatagram buf
    intervalBytes := st.intervalBytes + buf.length }

inductive RecvResult where
  | datagram (payload : Bytes)
  | error (kind : ErrorKind)
  | timeout

structure Tick where
  now : Instant
  recv : RecvResult
  current : Instant
  clock : Instant

/-- The receive loop (`server.rs:1646-1722`) with its early return, if any. A datagram longer than
the buffer is cut. A list of ticks that ends before the test does is a run still going on. -/
def recvLoop (start testEnd : Instant) (bufferSize : ℕ) :
    RecvState → List Tick → Option Error × RecvState
  | st, [] => (none, st)
  | st, tick :: ticks =>
    if tick.now ≥ testEnd then (none, st)
    else
      let st := st.report start tick.current tick.clock
      match tick.recv with
      | .datagram payload =>
        recvLoop start testEnd bufferSize (st.onDatagram (payload.take bufferSize)) ticks
      | .error e => (some (.io e), st)
      | .timeout => recvLoop start testEnd bufferSize st ticks

/-- `ServerOneWayStats` (`measurements.rs:2301-2315`). -/
structure ServerOneWayStats where
  bytesReceived : ℕ
  packetsReceived : ℕ
  outOfOrder : ℕ
  packetsLost : ℕ
  packetLoss : Option F64
  duration : Duration

structure OneWayRun where
  start : Instant
  duration : Duration
  bufferSize : ℕ
  ticks : List Tick
  finish : Instant

namespace OneWayRun

def loop (r : OneWayRun) : Option Error × RecvState :=
  recvLoop r.start (r.start + r.duration) r.bufferSize (RecvState.new r.start) r.ticks

def tally (r : OneWayRun) : Tally := r.loop.2.tally

def stats (r : OneWayRun) : ServerOneWayStats :=
  { bytesReceived := r.tally.bytesReceived
    packetsReceived := r.tally.packetsReceived
    outOfOrder := r.tally.outOfOrder
    packetsLost := r.tally.packetsLost
    packetLoss := r.tally.lossPct
    duration := r.finish - r.start }

end OneWayRun

/-- `recv_one_way_server_with_socket` (`server.rs:1623-1760`). -/
def recvOneWayServerWithSocket (r : OneWayRun) : Except Error ServerOneWayStats :=
  match r.loop.1 with
  | some e => .error e
  | none => .ok r.stats

def arrivals (testEnd : Instant) (bufferSize : ℕ) : List Tick → List Bytes
  | [] => []
  | tick :: ticks =>
    if tick.now ≥ testEnd then []
    else
      match tick.recv with
      | .datagram payload => payload.take bufferSize :: arrivals testEnd bufferSize ticks
      | .error _ => []
      | .timeout => arrivals testEnd bufferSize ticks

def OneWayRun.arrivals (r : OneWayRun) : List Bytes :=
  Rperf3.arrivals (r.start + r.duration) r.bufferSize r.ticks

/-! ### The loop is a fold over the arrivals -/

@[simp] theorem report_tally (st : RecvState) (start current clock : Instant) :
    (st.report start current clock).tally = st.tally := by
  unfold RecvState.report
  split <;> rfl

/-- What the loop reports interval by interval, and what is still to be reported. -/
def RecvState.reportedBytes (st : RecvState) : ℕ :=
  (st.printed.map IntervalLine.bytesInInterval).sum + st.intervalBytes

theorem report_reportedBytes (st : RecvState) (start current clock : Instant) :
    (st.report start current clock).reportedBytes = st.reportedBytes := by
  unfold RecvState.report
  split
  · simp only [RecvState.reportedBytes, List.map_append, List.map_cons, List.map_nil,
      List.sum_append, List.sum_cons, List.sum_nil, Nat.add_zero]
  · rfl

theorem onDatagram_bytes (t : Tally) (buf : Bytes) :
    (t.onDatagram buf).bytesReceived = t.bytesReceived + buf.length := by
  unfold Tally.onDatagram
  split
  · simp only
    split <;> rfl
  · rfl

theorem recvLoop_tally (start testEnd : Instant) (bufferSize : ℕ) (st : RecvState)
    (ticks : List Tick) :
    (recvLoop start testEnd bufferSize st ticks).2.tally =
      (arrivals testEnd bufferSize ticks).foldl Tally.onDatagram st.tally := by
  induction ticks generalizing st with
  | nil => rfl
  | cons tick ticks ih =>
    unfold recvLoop arrivals
    by_cases hend : tick.now ≥ testEnd
    · rw [if_pos hend, if_pos hend]
      rfl
    · rw [if_neg hend, if_neg hend]
      cases hrecv : tick.recv with
      | datagram payload =>
        simp only [ih, RecvState.onDatagram, report_tally, List.foldl_cons]
      | error e => simp only [report_tally, List.foldl_nil]
      | timeout => simp only [ih, report_tally]

/-- No byte is missing from the interval lines and none is in two of them. -/
theorem recvLoop_reportedBytes (start testEnd : Instant) (bufferSize : ℕ) (st : RecvState)
    (ticks : List Tick) (h : st.reportedBytes = st.tally.bytesReceived) :
    (recvLoop start testEnd bufferSize st ticks).2.reportedBytes =
      (recvLoop start testEnd bufferSize st ticks).2.tally.bytesReceived := by
  induction ticks generalizing st with
  | nil => exact h
  | cons tick ticks ih =>
    have hrep := report_reportedBytes st start tick.current tick.clock
    unfold recvLoop
    split
    · exact h
    · cases hrecv : tick.recv with
      | datagram payload =>
        refine ih _ ?_
        simp only [RecvState.reportedBytes, RecvState.onDatagram, report_tally,
          onDatagram_bytes] at hrep h ⊢
        omega
      | error e =>
        simp only [report_tally]
        exact hrep.trans h
      | timeout =>
        refine ih _ ?_
        rw [report_tally]
        exact hrep.trans h

theorem OneWayRun.tally_eq (r : OneWayRun) :
    r.tally = r.arrivals.foldl Tally.onDatagram Tally.new :=
  recvLoop_tally ..

theorem stats_of_ok {r : OneWayRun} {stats : ServerOneWayStats}
    (h : recvOneWayServerWithSocket r = .ok stats) : stats = r.stats := by
  unfold recvOneWayServerWithSocket at h
  cases hexit : r.loop.1 with
  | none =>
    rw [hexit] at h
    exact (Except.ok.inj h).symm
  | some e =>
    rw [hexit] at h
    exact nomatch h

/-- The same with the counters in `u64`. -/
def recvOneWayCounters (r : OneWayRun) : Except Error Counters :=
  match r.loop.1 with
  | some e => .error e
  | none => .ok (r.arrivals.foldl Counters.onDatagram Counters.new)

theorem counters_of_ok {r : OneWayRun} {counters : Counters}
    (h : recvOneWayCounters r = .ok counters) : counters = r.tally.counters := by
  rw [r.tally_eq, counters_foldl]
  unfold recvOneWayCounters at h
  cases hexit : r.loop.1 with
  | none =>
    rw [hexit] at h
    exact (Except.ok.inj h).symm
  | some e =>
    rw [hexit] at h
    exact nomatch h

def OneWayRun.deliver (bufs : List Bytes) : OneWayRun :=
  { start := 0
    duration := 1
    bufferSize := (bufs.map List.length).sum
    ticks := bufs.map (fun buf => ⟨0, .datagram buf, 0, 0⟩)
    finish := 1 }

theorem arrivals_datagrams (bufferSize : ℕ) (bufs : List Bytes)
    (h : ∀ buf ∈ bufs, buf.length ≤ bufferSize) :
    arrivals 1 bufferSize (bufs.map (fun buf => ⟨0, .datagram buf, 0, 0⟩)) = bufs := by
  induction bufs with
  | nil => rfl
  | cons buf bufs ih =>
    have hlen := h buf (List.mem_cons_self ..)
    have hrest := ih (fun b hb => h b (List.mem_cons_of_mem _ hb))
    rw [List.map_cons, arrivals, if_neg (Nat.not_le.mpr Nat.one_pos)]
    simp only [List.take_of_length_le hlen, hrest]

theorem arrivals_deliver (bufs : List Bytes) : (OneWayRun.deliver bufs).arrivals = bufs :=
  arrivals_datagrams _ bufs
    (fun _ hbuf => List.single_le_sum (fun _ _ => Nat.zero_le _) _ (List.mem_map_of_mem hbuf))

theorem recvLoop_datagrams (start testEnd : Instant) (bufferSize : ℕ) (st : RecvState)
    (bufs : List Bytes) :
    (recvLoop start testEnd bufferSize st
      (bufs.map (fun buf => ⟨0, .datagram buf, 0, 0⟩))).1 = none := by
  induction bufs generalizing st with
  | nil => rfl
  | cons buf bufs ih =>
    rw [List.map_cons, recvLoop]
    split
    · rfl
    · exact ih _

theorem recv_deliver (bufs : List Bytes) :
    recvOneWayServerWithSocket (OneWayRun.deliver bufs) = .ok (OneWayRun.deliver bufs).stats := by
  have h : (OneWayRun.deliver bufs).loop.1 = none := recvLoop_datagrams ..
  simp only [recvOneWayServerWithSocket, h]

theorem recvCounters_deliver (bufs : List Bytes) :
    recvOneWayCounters (OneWayRun.deliver bufs) = .ok (OneWayRun.deliver bufs).tally.counters := by
  have h : (OneWayRun.deliver bufs).loop.1 = none := recvLoop_datagrams ..
  rw [OneWayRun.tally_eq, counters_foldl]
  simp only [recvOneWayCounters, h]
  rfl

/-! ### The streams are independent machines -/

def Arrival.counts : Arrival → ℕ × ℕ
  | .gap lost => (0, lost)
  | .late => (1, 0)
  | .inOrder => (0, 0)

def track : Machine Bytes StreamState (ℕ × ℕ) := fun s buf =>
  let r := (s.getD (StreamState.new (seqOf buf))).observe (seqOf buf)
  (r.2, r.1.counts)

def numbered (bufs : List Bytes) : List Bytes := bufs.filter (fun buf => 8 ≤ buf.length)

theorem numbered_eq_self {bufs : List Bytes} (h : ∀ buf ∈ bufs, 8 ≤ buf.length) :
    numbered bufs = bufs :=
  List.filter_eq_self.mpr (fun buf hbuf => decide_eq_true (h buf hbuf))

def Tally.addNumbered (t : Tally) (bufs : List Bytes) : Tally :=
  let r := runKeyed streamIdOf track t.streamStates (numbered bufs)
  { bytesReceived := t.bytesReceived + (bufs.map List.length).sum
    packetsReceived := t.packetsReceived + bufs.length
    outOfOrder := t.outOfOrder + r.2.1
    packetsLost := t.packetsLost + r.2.2
    streamStates := r.1 }

theorem onDatagram_short (t : Tally) (buf : Bytes) (h : ¬ 8 ≤ buf.length) :
    t.onDatagram buf = { t with
      bytesReceived := t.bytesReceived + buf.length
      packetsReceived := t.packetsReceived + 1 } := by
  simp only [Tally.onDatagram, ge_iff_le, if_neg h]

theorem onDatagram_numbered (t : Tally) (buf : Bytes) (h : 8 ≤ buf.length) :
    t.onDatagram buf =
      { bytesReceived := t.bytesReceived + buf.length
        packetsReceived := t.packetsReceived + 1
        outOfOrder := t.outOfOrder + (track (t.streamStates (streamIdOf buf)) buf).2.1
        packetsLost := t.packetsLost + (track (t.streamStates (streamIdOf buf)) buf).2.2
        streamStates := Function.update t.streamStates (streamIdOf buf)
          (some (track (t.streamStates (streamIdOf buf)) buf).1) } := by
  simp only [Tally.onDatagram, ge_iff_le, if_pos h, track]
  rcases ((t.streamStates (streamIdOf buf)).getD (StreamState.new (seqOf buf))).observe
    (seqOf buf) with ⟨_ | _ | _, s⟩ <;> rfl

theorem foldl_onDatagram (t : Tally) (bufs : List Bytes) :
    bufs.foldl Tally.onDatagram t = t.addNumbered bufs := by
  induction bufs generalizing t with
  | nil => rfl
  | cons buf bufs ih =>
    rw [List.foldl_cons, ih]
    by_cases h : 8 ≤ buf.length
    · rw [onDatagram_numbered t buf h]
      simp only [Tally.addNumbered, numbered, List.filter_cons, h, decide_true, ite_true,
        runKeyed, List.map_cons, List.sum_cons, List.length_cons, Prod.fst_add, Prod.snd_add,
        Nat.add_assoc, Nat.add_comm 1]
    · rw [onDatagram_short t buf h]
      simp only [Tally.addNumbered, numbered, List.filter_cons, h, decide_false,
        Bool.false_eq_true, ite_false, List.map_cons, List.sum_cons, List.length_cons,
        Nat.add_assoc, Nat.add_comm 1]

theorem OneWayRun.tally_eq_addNumbered (r : OneWayRun) :
    r.tally = Tally.new.addNumbered r.arrivals := by
  rw [r.tally_eq, foldl_onDatagram]

def streams (bufs : List Bytes) : Finset UInt32 := ((numbered bufs).map streamIdOf).toFinset

theorem streamIdOf_mem_streams {bufs : List Bytes} {buf : Bytes} (h : buf ∈ numbered bufs) :
    streamIdOf buf ∈ streams bufs :=
  List.mem_toFinset.mpr (List.mem_map_of_mem h)

def seqsOf (k : UInt32) (bufs : List Bytes) : List ℕ :=
  (eventsOf streamIdOf k (numbered bufs)).map (fun buf => (seqOf buf).toNat)

theorem seqsOf_ne_nil {k : UInt32} {bufs : List Bytes} : seqsOf k bufs ≠ [] ↔ k ∈ streams bufs := by
  rw [seqsOf, ne_eq, List.map_eq_nil_iff, streams, List.mem_toFinset, List.mem_map]
  constructor
  · intro h
    obtain ⟨buf, hbuf⟩ := List.exists_mem_of_ne_nil _ h
    exact ⟨buf, mem_eventsOf.mp hbuf⟩
  · rintro ⟨buf, hbuf, rfl⟩
    exact List.ne_nil_of_mem (mem_eventsOf.mpr ⟨hbuf, rfl⟩)

/-! ### One tracker counts gaps -/

def maxSeq : UInt32 := 4294967295

/-- As long as the number after the arrived one does not wrap, the tracker counts gaps of
natural numbers. -/
theorem track_simulates (s : Option StreamState) (buf : Bytes) (h : seqOf buf ≠ maxSeq) :
    SeqGap.step (s.map (fun s => s.expectedSeq.toNat)) (seqOf buf).toNat =
      ((track s buf).1.expectedSeq.toNat, (track s buf).2) := by
  have hmax : (seqOf buf).toNat + 1 < 4294967296 := by
    have hlt := (seqOf buf).toNat_lt
    have hne : (seqOf buf).toNat ≠ 4294967295 := fun h' => h (UInt32.toNat_inj.mp h')
    omega
  have hsucc : (seqOf buf + 1).toNat = (seqOf buf).toNat + 1 := by
    rw [UInt32.toNat_add]
    exact Nat.mod_eq_of_lt hmax
  have hget : (s.map (fun s => s.expectedSeq.toNat)).getD (seqOf buf).toNat =
      (s.getD (StreamState.new (seqOf buf))).expectedSeq.toNat := by
    cases s <;> rfl
  simp only [SeqGap.step, track, hget]
  generalize s.getD (StreamState.new (seqOf buf)) = state
  simp only [StreamState.observe, gt_iff_lt, UInt32.lt_iff_toNat_lt]
  by_cases hgap : state.expectedSeq.toNat < (seqOf buf).toNat
  · rw [if_pos hgap, if_pos hgap, UInt32.toNat_sub_of_le _ _ (UInt32.le_iff_toNat_le.mpr hgap.le),
      hsucc]
    rfl
  · rw [if_neg hgap, if_neg hgap]
    by_cases hlate : (seqOf buf).toNat < state.expectedSeq.toNat
    · rw [if_pos hlate, if_pos hlate]
      rfl
    · have heq : state.expectedSeq = seqOf buf := UInt32.toNat_inj.mp (by omega)
      rw [if_neg hlate, if_neg hlate, heq, hsucc]
      rfl

section NoWrap

variable {bufs : List Bytes} (hmax : ∀ buf ∈ numbered bufs, seqOf buf ≠ maxSeq)
include hmax

theorem run_track (k : UInt32) :
    run SeqGap.step none (seqsOf k bufs) =
      ((run track none (eventsOf streamIdOf k (numbered bufs))).1.map
        (fun s => s.expectedSeq.toNat),
       (run track none (eventsOf streamIdOf k (numbered bufs))).2) :=
  run_simulation (fun buf => seqOf buf ≠ maxSeq) track_simulates none _
    (fun buf hbuf => hmax buf (mem_eventsOf.mp hbuf).1)

theorem totals_eq_sum :
    (Tally.new.addNumbered bufs).outOfOrder = ∑ k ∈ streams bufs, SeqGap.late (seqsOf k bufs) ∧
    (Tally.new.addNumbered bufs).packetsLost = ∑ k ∈ streams bufs, SeqGap.lost (seqsOf k bufs) := by
  have h := runKeyed_total streamIdOf track Tally.new.streamStates
    (numbered bufs) (streams bufs) (fun _ hbuf => streamIdOf_mem_streams hbuf)
  simp only [Tally.addNumbered, Tally.new, Nat.zero_add] at h ⊢
  rw [h, Prod.fst_sum, Prod.snd_sum]
  constructor
  · refine Finset.sum_congr rfl (fun k _ => ?_)
    rw [SeqGap.late, run_track hmax]
  · refine Finset.sum_congr rfl (fun k _ => ?_)
    rw [SeqGap.lost, run_track hmax]

theorem expectedSeq_eq (k : UInt32) :
    ((Tally.new.addNumbered bufs).streamStates k).map (fun s => s.expectedSeq.toNat) =
      (run SeqGap.step none (seqsOf k bufs)).1 := by
  rw [run_track hmax]
  simp only [Tally.addNumbered, runKeyed_state, Tally.new]

end NoWrap

end Rperf3
