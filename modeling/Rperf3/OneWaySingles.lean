import Rperf3.OneWaySend

/-!
# `send_one_way_with_offset` without `sendmmsg` (`client.rs:2092-2131`, macOS)

There the loop numbers and sends 64 datagrams one by one. A refused datagram has
used up its number; an error that is not "would block" ends the round and not the
loop, and the next round goes on behind the number that failed. What Linux does
in a round, macOS does too when the first datagrams are taken and the others
refused.
-/

namespace Rperf3

/-- One `send` of the loop: the state after it, and whether the round goes on. -/
def OffsetState.send (st : OffsetState) (buffer : SendBuffer) (streamId : UInt32) :
    Except ErrorKind ℕ → OffsetState × Bool
  | .ok n =>
    if n > 0 then
      ({ seq := st.seq + 1
         totalBytes := st.totalBytes + n
         totalPackets := st.totalPackets + 1
         accepted := st.accepted ++ [oneWayPacket buffer st.seq streamId] }, true)
    else ({ st with seq := st.seq + 1 }, true)
  | .error kind => ({ st with seq := st.seq + 1 }, kind = .wouldBlock)

def OffsetState.sends (buffer : SendBuffer) (streamId : UInt32) :
    OffsetState → List (Except ErrorKind ℕ) → OffsetState
  | st, [] => st
  | st, reply :: replies =>
    match st.send buffer streamId reply with
    | (st, true) => st.sends buffer streamId replies
    | (st, false) => st

structure SinglesTick where
  now : Instant
  replies : Fin batch → Except ErrorKind ℕ

def singlesLoop (start : Instant) (duration : Duration) (buffer : SendBuffer)
    (streamId : UInt32) : OffsetState → List SinglesTick → OffsetState
  | st, [] => st
  | st, tick :: ticks =>
    if offsetRunning start duration tick.now then
      singlesLoop start duration buffer streamId
        (st.sends buffer streamId (List.ofFn tick.replies)) ticks
    else st

/-! ### What the sender counts -/

section Accounting

variable {buffer : SendBuffer} {seqOffset streamId : UInt32}

/-- `numbered` datagrams have been numbered from `seqOffset` on; those at `positions` were taken,
with `bytes` in all. -/
structure Numbered (buffer : SendBuffer) (seqOffset streamId : UInt32) (numbered bytes : ℕ)
    (positions : List ℕ) (st : OffsetState) : Prop where
  seq : st.seq = seqOffset + UInt32.ofNat numbered
  increasing : positions.IsChain (· < ·)
  below : ∀ p ∈ positions, p < numbered
  accepted : st.accepted = positions.map (numberedPacket buffer seqOffset streamId)
  packets : st.totalPackets = positions.length
  bytes : st.totalBytes = bytes

theorem numbered_start : Numbered buffer seqOffset streamId 0 0 [] ⟨seqOffset, 0, 0, []⟩ where
  seq := (UInt32.add_zero _).symm
  increasing := .nil
  below _ hp := absurd hp List.not_mem_nil
  accepted := rfl
  packets := rfl
  bytes := rfl

def repliedBytes : Except ErrorKind ℕ → ℕ
  | .ok n => n
  | .error _ => 0

variable {numbered bytes : ℕ} {positions : List ℕ} {st : OffsetState}

theorem Numbered.next (h : Numbered buffer seqOffset streamId numbered bytes positions st) :
    Numbered buffer seqOffset streamId (numbered + 1) bytes positions
      { st with seq := st.seq + 1 } :=
  { h with
    seq := by
      rw [h.seq, UInt32.ofNat_add, UInt32.add_assoc]
      rfl
    below := fun p hp => Nat.lt_succ_of_lt (h.below p hp) }

theorem Numbered.send (h : Numbered buffer seqOffset streamId numbered bytes positions st)
    (reply : Except ErrorKind ℕ) :
    ∃ positions', Numbered buffer seqOffset streamId (numbered + 1) (bytes + repliedBytes reply)
      positions' (st.send buffer streamId reply).1 := by
  unfold OffsetState.send
  cases reply with
  | error kind => exact ⟨positions, h.next⟩
  | ok n =>
    by_cases hn : n > 0
    · simp only [if_pos hn]
      refine ⟨positions ++ [numbered], ?_⟩
      have hnext := h.next
      refine
        { hnext with
          increasing := ?_
          below := ?_
          accepted := ?_
          packets := ?_
          bytes := congrArg (· + n) h.bytes }
      · rw [List.isChain_iff_pairwise, List.pairwise_append]
        refine ⟨List.isChain_iff_pairwise.mp h.increasing, List.pairwise_singleton _ _, ?_⟩
        intro p hp q hq
        rw [List.mem_singleton.mp hq]
        exact h.below p hp
      · intro p hp
        rcases List.mem_append.mp hp with hp | hp
        · exact Nat.lt_succ_of_lt (h.below p hp)
        · rw [List.mem_singleton.mp hp]
          exact Nat.lt_succ_self numbered
      · rw [h.accepted, List.map_append, h.seq]
        rfl
      · rw [h.packets, List.length_append]
        rfl
    · simp only [if_neg hn]
      have hzero : n = 0 := by omega
      subst hzero
      exact ⟨positions, h.next⟩

def goesOn : Except ErrorKind ℕ → Bool
  | .ok _ => true
  | .error kind => kind = .wouldBlock

def answered : List (Except ErrorKind ℕ) → List (Except ErrorKind ℕ)
  | [] => []
  | reply :: replies => reply :: if goesOn reply then answered replies else []

def answeredIn (start : Instant) (duration : Duration) :
    List SinglesTick → List (Except ErrorKind ℕ)
  | [] => []
  | tick :: ticks =>
    if offsetRunning start duration tick.now then
      answered (List.ofFn tick.replies) ++ answeredIn start duration ticks
    else []

def OffsetState.after (buffer : SendBuffer) (streamId : UInt32) (st : OffsetState)
    (replies : List (Except ErrorKind ℕ)) : OffsetState :=
  replies.foldl (fun st reply => (st.send buffer streamId reply).1) st

theorem send_goesOn (st : OffsetState) (reply : Except ErrorKind ℕ) :
    (st.send buffer streamId reply).2 = goesOn reply := by
  unfold OffsetState.send
  cases reply with
  | error kind => rfl
  | ok n =>
    dsimp only
    split <;> rfl

theorem sends_eq_after (st : OffsetState) (replies : List (Except ErrorKind ℕ)) :
    st.sends buffer streamId replies = st.after buffer streamId (answered replies) := by
  induction replies generalizing st with
  | nil => rfl
  | cons reply replies ih =>
    have hon : (st.send buffer streamId reply).2 = goesOn reply := send_goesOn st reply
    unfold OffsetState.sends answered OffsetState.after
    rw [List.foldl_cons]
    rcases hsend : st.send buffer streamId reply with ⟨st', on⟩
    rw [hsend] at hon
    cases on with
    | true =>
      rw [if_pos hon.symm]
      exact ih st'
    | false =>
      rw [if_neg (by rw [← hon]; exact Bool.false_ne_true)]
      rfl

theorem singlesLoop_eq_after (start : Instant) (duration : Duration) (st : OffsetState)
    (ticks : List SinglesTick) :
    singlesLoop start duration buffer streamId st ticks =
      st.after buffer streamId (answeredIn start duration ticks) := by
  induction ticks generalizing st with
  | nil => rfl
  | cons tick ticks ih =>
    unfold singlesLoop answeredIn
    by_cases hrun : offsetRunning start duration tick.now
    · rw [if_pos hrun, if_pos hrun, ih, sends_eq_after, OffsetState.after, OffsetState.after,
        OffsetState.after, List.foldl_append]
    · rw [if_neg hrun, if_neg hrun]
      rfl

theorem Numbered.after (h : Numbered buffer seqOffset streamId numbered bytes positions st)
    (replies : List (Except ErrorKind ℕ)) :
    ∃ positions', Numbered buffer seqOffset streamId (numbered + replies.length)
      (bytes + (replies.map repliedBytes).sum) positions'
      (st.after buffer streamId replies) := by
  induction replies generalizing st numbered bytes positions with
  | nil => exact ⟨positions, h⟩
  | cons reply replies ih =>
    obtain ⟨positions', h'⟩ := h.send reply
    obtain ⟨positions'', h''⟩ := ih h'
    refine ⟨positions'', ?_⟩
    rw [List.length_cons, List.map_cons, List.sum_cons, Nat.add_comm replies.length,
      ← Nat.add_assoc, ← Nat.add_assoc]
    exact h''

end Accounting

/-- The numbers used up are the answers the run came to, taken or not, and the datagrams taken
went out under increasing ones; the bytes are the kernel's. -/
theorem singles_accounted (start : Instant) (duration : Duration) (buffer : SendBuffer)
    (seqOffset streamId : UInt32) (ticks : List SinglesTick) :
    ∃ positions, Numbered buffer seqOffset streamId (answeredIn start duration ticks).length
      ((answeredIn start duration ticks).map repliedBytes).sum positions
      (singlesLoop start duration buffer streamId ⟨seqOffset, 0, 0, []⟩ ticks) := by
  rw [singlesLoop_eq_after]
  have hstart : Numbered buffer seqOffset streamId 0 0 [] ⟨seqOffset, 0, 0, []⟩ := numbered_start
  obtain ⟨positions, h⟩ := hstart.after (answeredIn start duration ticks)
  rw [Nat.zero_add, Nat.zero_add] at h
  exact ⟨positions, h⟩

/-! ### A batch, one datagram at a time -/

/-- The round of `sendmmsg` as single sends: the first ones taken whole, the others refused. -/
def OffsetTick.singly (len : ℕ) (tick : OffsetTick) : SinglesTick where
  now := tick.now
  replies i := if i < tick.reply.count then .ok len else .error .wouldBlock

def BatchReply.leaves : BatchReply → Bool
  | .failed _ => true
  | _ => false

section Singly

variable (buffer : SendBuffer) (streamId : UInt32)

theorem sends_refused (st : OffsetState) (k : ℕ) :
    st.sends buffer streamId (List.replicate k (.error .wouldBlock)) =
      { st with seq := st.seq + UInt32.ofNat k } := by
  induction k generalizing st with
  | zero =>
    rw [List.replicate_zero, OffsetState.sends]
    exact congrArg (fun seq => { st with seq := seq }) (UInt32.add_zero _).symm
  | succ k ih =>
    have hsend : st.send buffer streamId (.error .wouldBlock) =
        ({ st with seq := st.seq + 1 }, true) := rfl
    rw [List.replicate_succ, OffsetState.sends, hsend]
    simp only [ih]
    rw [Nat.add_comm k 1, UInt32.ofNat_add, ← UInt32.add_assoc]
    rfl

theorem sends_taken (st : OffsetState) (k : ℕ) (rest : List (Except ErrorKind ℕ)) :
    st.sends buffer streamId (List.replicate k (.ok buffer.bytes.length) ++ rest) =
      OffsetState.sends buffer streamId
        { seq := st.seq + UInt32.ofNat k
          totalBytes := st.totalBytes + k * buffer.bytes.length
          totalPackets := st.totalPackets + k
          accepted := st.accepted ++
            (List.range k).map (numberedPacket buffer st.seq streamId) } rest := by
  induction k generalizing st with
  | zero =>
    rw [List.replicate_zero, List.nil_append, Nat.zero_mul, List.range_zero, List.map_nil,
      List.append_nil]
    exact congrArg (fun seq => OffsetState.sends buffer streamId { st with seq := seq } rest)
      (UInt32.add_zero _).symm
  | succ k ih =>
    have hpos : buffer.bytes.length > 0 := by
      have := buffer.room
      omega
    have hsend : st.send buffer streamId (.ok buffer.bytes.length) =
        ({ seq := st.seq + 1
           totalBytes := st.totalBytes + buffer.bytes.length
           totalPackets := st.totalPackets + 1
           accepted := st.accepted ++ [oneWayPacket buffer st.seq streamId] }, true) :=
      if_pos hpos
    have hseq : st.seq + 1 + UInt32.ofNat k = st.seq + UInt32.ofNat (k + 1) := by
      rw [Nat.add_comm k 1, UInt32.ofNat_add, ← UInt32.add_assoc]
      rfl
    have hpackets : (List.range (k + 1)).map (numberedPacket buffer st.seq streamId) =
        oneWayPacket buffer st.seq streamId ::
          (List.range k).map (numberedPacket buffer (st.seq + 1) streamId) := by
      rw [List.range_succ_eq_map, List.map_cons, List.map_map]
      refine congrArg₂ List.cons ?_ (List.map_congr_left fun p _ => ?_)
      · exact congrArg (oneWayPacket buffer · streamId) (UInt32.add_zero _)
      · rw [Function.comp_apply, numberedPacket, numberedPacket, Nat.succ_eq_add_one,
          Nat.add_comm p 1, UInt32.ofNat_add, ← UInt32.add_assoc]
        rfl
    rw [List.replicate_succ, List.cons_append, OffsetState.sends, hsend]
    simp only [ih, hseq, hpackets]
    rw [Nat.succ_mul, List.append_assoc, List.singleton_append, Nat.add_assoc, Nat.add_assoc,
      Nat.add_comm 1 k, Nat.add_comm buffer.bytes.length]

theorem replies_singly (len : ℕ) (tick : OffsetTick) :
    List.ofFn (tick.singly len).replies =
      List.replicate tick.reply.count (.ok len) ++
        List.replicate (batch - tick.reply.count) (.error .wouldBlock) := by
  have hcount := count_le_batch tick.reply
  refine List.ext_getElem ?_ (fun i hi _ => ?_)
  · rw [List.length_ofFn, List.length_append, List.length_replicate, List.length_replicate]
    omega
  · rw [List.getElem_ofFn, List.getElem_append]
    by_cases hlt : i < tick.reply.count
    · simp [OffsetTick.singly, hlt]
    · simp [OffsetTick.singly, hlt]

theorem round_singly (st : OffsetState) (tick : OffsetTick) (hstays : ¬tick.reply.leaves) :
    st.round buffer streamId tick.reply =
      some (st.sends buffer streamId
        (List.ofFn (tick.singly buffer.bytes.length).replies)) := by
  have hbatch : st.seq + UInt32.ofNat tick.reply.count +
      UInt32.ofNat (batch - tick.reply.count) = st.seq + UInt32.ofNat batch := by
    rw [UInt32.add_assoc, ← UInt32.ofNat_add, Nat.add_sub_cancel' (count_le_batch tick.reply)]
  rw [replies_singly, sends_taken, sends_refused]
  simp only [hbatch]
  unfold OffsetState.round
  cases hreply : tick.reply with
  | sent count =>
    have hle : (count : ℕ) ≤ batch := Nat.le_of_lt_succ count.isLt
    simp only [BatchReply.count, batchPackets]
    rw [← List.map_take, List.take_range, Nat.min_eq_left hle]
  | wouldBlock =>
    simp only [BatchReply.count, Nat.zero_mul, Nat.add_zero, List.range_zero, List.map_nil,
      List.append_nil]
  | failed kind => exact absurd (by rw [hreply]; rfl) hstays

end Singly

/-- Up to the failure that leaves the loop, Linux does what macOS does under the same answers:
same numbers, same datagrams, same totals. -/
theorem offsetLoop_singly (start : Instant) (duration : Duration) (buffer : SendBuffer)
    (streamId : UInt32) (st : OffsetState) (ticks : List OffsetTick) :
    offsetLoop start duration buffer streamId st ticks =
      singlesLoop start duration buffer streamId st
        ((ticks.takeWhile fun tick => !tick.reply.leaves).map
          (·.singly buffer.bytes.length)) := by
  induction ticks generalizing st with
  | nil => rfl
  | cons tick ticks ih =>
    rw [List.takeWhile_cons, offsetLoop]
    cases hleaves : tick.reply.leaves with
    | true =>
      have hround : st.round buffer streamId tick.reply = none := by
        cases hreply : tick.reply with
        | failed kind => rfl
        | sent count => rw [hreply] at hleaves; exact absurd hleaves Bool.false_ne_true
        | wouldBlock => rw [hreply] at hleaves; exact absurd hleaves Bool.false_ne_true
      rw [hround, ite_self]
      rfl
    | false =>
      have hround := round_singly buffer streamId st tick
        (by rw [hleaves]; exact Bool.false_ne_true)
      simp only [Bool.not_false, if_true, List.map_cons]
      rw [hround, singlesLoop, ← ih]
      rfl

end Rperf3
