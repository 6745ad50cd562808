import Rperf3.OneWayReceive

/-!
# The two one-way receivers (`server.rs:1549-1607`, `1685-1713`)

`recv_one_way_receiver` serves one socket of several and adds to shared counters.
It compares sequence numbers as `recv_one_way_server_with_socket` does, but expects
the number 0 at the start, where the other takes the first number it sees. After
one numbered datagram both expect the same (`Behind`), and what is left of the
difference is the number of that datagram, counted as losses.
-/

namespace Rperf3

/-- A receiver: the number it expects, and what it has added to the shared counters. -/
structure ReceiverState where
  expectedSeq : UInt32
  bytesReceived : ℕ
  packetsReceived : ℕ
  outOfOrder : ℕ
  packetsLost : ℕ

namespace ReceiverState

def new : ReceiverState := ⟨0, 0, 0, 0, 0⟩

/-- The treatment of one datagram (`server.rs:1571-1595`). -/
def onDatagram (r : ReceiverState) (buf : Bytes) : ReceiverState :=
  let r := { r with
    bytesReceived := r.bytesReceived + buf.length
    packetsReceived := r.packetsReceived + 1 }
  if buf.length ≥ 8 then
    let seq := seqOf buf
    if seq > r.expectedSeq then
      { r with
        packetsLost := r.packetsLost + (seq.toNat - r.expectedSeq.toNat)
        expectedSeq := seq + 1 }
    else if seq < r.expectedSeq then { r with outOfOrder := r.outOfOrder + 1 }
    else { r with expectedSeq := r.expectedSeq + 1 }
  else r

end ReceiverState

structure ReceiverTick where
  now : Instant
  recv : RecvResult

/-- The loop of `recv_one_way_receiver`: errors are logged and it goes on. -/
def receiverLoop (testEnd : Instant) (bufferSize : ℕ) :
    ReceiverState → List ReceiverTick → ReceiverState
  | r, [] => r
  | r, tick :: ticks =>
    if tick.now ≥ testEnd then r
    else
      match tick.recv with
      | .datagram payload =>
        receiverLoop testEnd bufferSize (r.onDatagram (payload.take bufferSize)) ticks
      | .error _ => receiverLoop testEnd bufferSize r ticks
      | .timeout => receiverLoop testEnd bufferSize r ticks

def receiverArrivals (testEnd : Instant) (bufferSize : ℕ) : List ReceiverTick → List Bytes
  | [] => []
  | tick :: ticks =>
    if tick.now ≥ testEnd then []
    else
      match tick.recv with
      | .datagram payload => payload.take bufferSize :: receiverArrivals testEnd bufferSize ticks
      | .error _ => receiverArrivals testEnd bufferSize ticks
      | .timeout => receiverArrivals testEnd bufferSize ticks

theorem receiverLoop_eq (testEnd : Instant) (bufferSize : ℕ) (r : ReceiverState)
    (ticks : List ReceiverTick) :
    receiverLoop testEnd bufferSize r ticks =
      (receiverArrivals testEnd bufferSize ticks).foldl ReceiverState.onDatagram r := by
  induction ticks generalizing r with
  | nil => rfl
  | cons tick ticks ih =>
    unfold receiverLoop receiverArrivals
    by_cases hend : tick.now ≥ testEnd
    · rw [if_pos hend, if_pos hend]
      rfl
    · rw [if_neg hend, if_neg hend]
      cases tick.recv with
      | datagram payload => exact ih _
      | error e => exact ih r
      | timeout => exact ih r

structure CountersAgree (t : Tally) (r : ReceiverState) : Prop where
  bytes : r.bytesReceived = t.bytesReceived
  packets : r.packetsReceived = t.packetsReceived
  outOfOrder : r.outOfOrder = t.outOfOrder
  lost : r.packetsLost = t.packetsLost

/-! ### One datagram -/

theorem receiver_short (r : ReceiverState) (buf : Bytes) (h : ¬ 8 ≤ buf.length) :
    r.onDatagram buf = { r with
      bytesReceived := r.bytesReceived + buf.length
      packetsReceived := r.packetsReceived + 1 } := by
  simp only [ReceiverState.onDatagram, ge_iff_le, if_neg h]

/-- On a numbered datagram a receiver does what a tracker with its expected number does. -/
theorem receiver_numbered (r : ReceiverState) (buf : Bytes) (h : 8 ≤ buf.length) :
    r.onDatagram buf =
      { expectedSeq := (track (some ⟨r.expectedSeq⟩) buf).1.expectedSeq
        bytesReceived := r.bytesReceived + buf.length
        packetsReceived := r.packetsReceived + 1
        outOfOrder := r.outOfOrder + (track (some ⟨r.expectedSeq⟩) buf).2.1
        packetsLost := r.packetsLost + (track (some ⟨r.expectedSeq⟩) buf).2.2 } := by
  simp only [ReceiverState.onDatagram, ge_iff_le, if_pos h, track, Option.getD_some,
    StreamState.observe]
  by_cases hgap : seqOf buf > r.expectedSeq
  · have hle : r.expectedSeq ≤ seqOf buf := UInt32.le_of_lt hgap
    simp only [if_pos hgap, Arrival.counts, UInt32.toNat_sub_of_le _ _ hle, Nat.add_zero]
  · by_cases hlate : seqOf buf < r.expectedSeq
    · simp only [if_neg hgap, if_pos hlate, Arrival.counts, Nat.add_zero]
    · simp only [if_neg hgap, if_neg hlate, Arrival.counts, Nat.add_zero]

theorem observe_self (s : StreamState) :
    s.observe s.expectedSeq = (.inOrder, ⟨s.expectedSeq + 1⟩) := by
  unfold StreamState.observe
  rw [if_neg (UInt32.lt_irrefl _), if_neg (UInt32.lt_irrefl _)]

/-! ### Both receivers side by side -/

/-- The receivers expect the same number of stream `k`, and differ by `lost` losses. -/
structure Behind (k : UInt32) (lost : ℕ) (t : Tally) (r : ReceiverState) : Prop where
  expected : t.streamStates k = some ⟨r.expectedSeq⟩
  bytes : r.bytesReceived = t.bytesReceived
  packets : r.packetsReceived = t.packetsReceived
  outOfOrder : r.outOfOrder = t.outOfOrder
  lost : r.packetsLost = t.packetsLost + lost

structure Unseen (k : UInt32) (t : Tally) (r : ReceiverState) : Prop where
  tracker : t.streamStates k = none
  expected : r.expectedSeq = 0
  agree : CountersAgree t r

def OneStream (k : UInt32) (bufs : List Bytes) : Prop :=
  ∀ buf ∈ bufs, 8 ≤ buf.length → streamIdOf buf = k

section SideBySide

variable {k : UInt32} {lost : ℕ} {t : Tally} {r : ReceiverState} {buf : Bytes}

theorem Behind.onDatagram (h : Behind k lost t r)
    (hstream : 8 ≤ buf.length → streamIdOf buf = k) :
    Behind k lost (t.onDatagram buf) (r.onDatagram buf) := by
  have hbytes := h.bytes
  have hpackets := h.packets
  have houtOfOrder := h.outOfOrder
  have hlost := h.lost
  by_cases hnumbered : 8 ≤ buf.length
  · rw [onDatagram_numbered t buf hnumbered, receiver_numbered r buf hnumbered,
      hstream hnumbered, h.expected]
    constructor
    · exact Function.update_self ..
    all_goals simp only; omega
  · rw [onDatagram_short t buf hnumbered, receiver_short r buf hnumbered]
    exact ⟨h.expected, by simp only [hbytes], by simp only [hpackets], houtOfOrder, hlost⟩

theorem Unseen.short (h : Unseen k t r) (hshort : ¬ 8 ≤ buf.length) :
    Unseen k (t.onDatagram buf) (r.onDatagram buf) := by
  rw [onDatagram_short t buf hshort, receiver_short r buf hshort]
  exact ⟨h.tracker, h.expected, by simp only [h.agree.bytes], by simp only [h.agree.packets],
    h.agree.outOfOrder, h.agree.lost⟩

/-- The first numbered datagram: one receiver starts with its number, the other expects 0. -/
theorem Unseen.numbered (h : Unseen k t r) (hnumbered : 8 ≤ buf.length)
    (hstream : streamIdOf buf = k) :
    Behind k (seqOf buf).toNat (t.onDatagram buf) (r.onDatagram buf) := by
  have hbytes := h.agree.bytes
  have hpackets := h.agree.packets
  have houtOfOrder := h.agree.outOfOrder
  have hlost := h.agree.lost
  have htracker : track none buf = (⟨seqOf buf + 1⟩, (0, 0)) := by
    have hself : (StreamState.new (seqOf buf)).observe (seqOf buf) = (.inOrder, ⟨seqOf buf + 1⟩) :=
      observe_self (StreamState.new (seqOf buf))
    unfold track
    rw [Option.getD_none, hself]
    rfl
  have hreceiver : track (some ⟨0⟩) buf = (⟨seqOf buf + 1⟩, (0, (seqOf buf).toNat)) := by
    simp only [track, Option.getD_some, StreamState.observe]
    by_cases hpos : seqOf buf > 0
    · simp only [if_pos hpos, Arrival.counts, UInt32.sub_zero]
    · have hzero : seqOf buf = 0 := by
        have hnat : ¬ 0 < (seqOf buf).toNat := fun h => hpos (UInt32.lt_iff_toNat_lt.mpr h)
        exact UInt32.toNat_inj.mp (Nat.le_zero.mp (Nat.le_of_not_lt hnat))
      rw [hzero]
      rfl
  rw [onDatagram_numbered t buf hnumbered, receiver_numbered r buf hnumbered, hstream, h.tracker,
    h.expected, htracker, hreceiver]
  constructor
  · exact Function.update_self ..
  all_goals simp only; omega

theorem Behind.foldl (bufs : List Bytes) (h : Behind k lost t r) (hstream : OneStream k bufs) :
    Behind k lost (bufs.foldl Tally.onDatagram t) (bufs.foldl ReceiverState.onDatagram r) := by
  induction bufs generalizing t r with
  | nil => exact h
  | cons buf bufs ih =>
    obtain ⟨hfirst, hrest⟩ := List.forall_mem_cons.mp hstream
    exact ih (h.onDatagram hfirst) hrest

/-- What the receivers differ by after datagrams of one stream. -/
def firstSeq (bufs : List Bytes) : ℕ :=
  ((numbered bufs).head?.map (fun buf => (seqOf buf).toNat)).getD 0

theorem Unseen.foldl (bufs : List Bytes) (h : Unseen k t r) (hstream : OneStream k bufs) :
    CountersAgree
      { bufs.foldl Tally.onDatagram t with
        packetsLost := (bufs.foldl Tally.onDatagram t).packetsLost + firstSeq bufs }
      (bufs.foldl ReceiverState.onDatagram r) := by
  induction bufs generalizing t r with
  | nil => exact h.agree
  | cons buf bufs ih =>
    obtain ⟨hfirst, hrest⟩ := List.forall_mem_cons.mp hstream
    by_cases hnumbered : 8 ≤ buf.length
    · have hbehind := (h.numbered hnumbered (hfirst hnumbered)).foldl bufs hrest
      have hseq : firstSeq (buf :: bufs) = (seqOf buf).toNat := by
        simp [firstSeq, Rperf3.numbered, hnumbered]
      rw [hseq]
      exact ⟨hbehind.bytes, hbehind.packets, hbehind.outOfOrder, hbehind.lost⟩
    · have hseq : firstSeq (buf :: bufs) = firstSeq bufs := by
        simp [firstSeq, Rperf3.numbered, hnumbered]
      rw [hseq]
      exact ih (h.short hnumbered) hrest

end SideBySide

theorem unseen_new (k : UInt32) : Unseen k Tally.new ReceiverState.new :=
  ⟨rfl, rfl, rfl, rfl, rfl, rfl⟩

/-- Given the same datagrams of one stream, the receivers agree unless the first numbered one has
a number above 0. -/
theorem receivers_agree_iff (run : OneWayRun) (testEnd : Instant) (bufferSize : ℕ)
    (ticks : List ReceiverTick) (k : UInt32)
    (hsame : receiverArrivals testEnd bufferSize ticks = run.arrivals)
    (hstream : OneStream k run.arrivals) :
    CountersAgree run.tally (receiverLoop testEnd bufferSize ReceiverState.new ticks) ↔
      ∀ buf ∈ (numbered run.arrivals).head?, seqOf buf = 0 := by
  have hagree := (unseen_new k).foldl run.arrivals hstream
  rw [← run.tally_eq, ← hsame, ← receiverLoop_eq, hsame] at hagree
  have hzero : firstSeq run.arrivals = 0 ↔
      ∀ buf ∈ (numbered run.arrivals).head?, seqOf buf = 0 := by
    unfold firstSeq
    cases (numbered run.arrivals).head? with
    | none => exact ⟨fun _ buf hbuf => (nomatch hbuf), fun _ => rfl⟩
    | some buf =>
      simp only [Option.map_some, Option.getD_some, Option.mem_def, Option.some.injEq,
        forall_eq']
      exact ⟨fun h => UInt32.toNat_inj.mp h, fun h => by rw [h]; rfl⟩
  have hlost := hagree.lost
  simp only at hlost
  rw [← hzero]
  constructor
  · intro h
    have hsamelost := h.lost
    omega
  · intro h
    exact ⟨hagree.bytes, hagree.packets, hagree.outOfOrder, by omega⟩

/-- Datagrams of four zero bytes after the header of a stream 1. -/
def numberedFrom (seqs : List UInt32) : List Bytes :=
  seqs.map (fun seq => toBeBytes seq ++ toBeBytes 1 ++ List.replicate 4 0)

def receiverTicks (bufs : List Bytes) : List ReceiverTick :=
  bufs.map (fun buf => ⟨0, .datagram buf⟩)

theorem receivers_agree_fromZero :
    CountersAgree (OneWayRun.deliver (numberedFrom [0, 1, 3])).tally
      (receiverLoop 1 100 ReceiverState.new (receiverTicks (numberedFrom [0, 1, 3]))) :=
  (receivers_agree_iff (OneWayRun.deliver (numberedFrom [0, 1, 3])) 1 100
    (receiverTicks (numberedFrom [0, 1, 3])) 1
    (by rw [arrivals_deliver]; decide)
    (by rw [arrivals_deliver]; unfold OneStream; decide)).mpr
    (by rw [arrivals_deliver]; decide)

/-- A stream whose datagram 0 is lost: a loss for one receiver, none for the other. -/
theorem receivers_agree_fromOne :
    ¬ ∀ (run : OneWayRun) (testEnd : Instant) (bufferSize : ℕ) (ticks : List ReceiverTick)
      (k : UInt32), receiverArrivals testEnd bufferSize ticks = run.arrivals →
      OneStream k run.arrivals →
      CountersAgree run.tally (receiverLoop testEnd bufferSize ReceiverState.new ticks) := by
  intro h
  have hagree := h (OneWayRun.deliver (numberedFrom [1, 2])) 1 100
    (receiverTicks (numberedFrom [1, 2])) 1 (by rw [arrivals_deliver]; decide)
    (by rw [arrivals_deliver]; unfold OneStream; decide)
  exact absurd hagree.lost (by decide)

end Rperf3
