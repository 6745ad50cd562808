import Rperf3.Library.SeqWrap
import Rperf3.OneWayAccounting
import Rperf3.OneWaySend

/-!
# One-way send, from the sender's numbers to the receiver's losses

The numbers of the senders wrap at `2 ^ 32` (`seq.wrapping_add(1)`), and so does
the number a tracker expects, but the tracker compares plain magnitudes. The
trackers are the receiver of `SeqWrap` (`track_wraps`), for every arrival.
-/

namespace Rperf3
open KeyedFold

/-! ### One tracker -/

theorem toNat_add_one (n : UInt32) : (n + 1).toNat = (n.toNat + 1) % 2 ^ 32 := UInt32.toNat_add n 1

theorem track_wraps (s : Option StreamState) (buf : Bytes) :
    SeqWrap.step (2 ^ 32) (s.map (fun s => s.expectedSeq.toNat)) (seqOf buf).toNat =
      ((track s buf).1.expectedSeq.toNat, (track s buf).2) := by
  have hget : (s.map (fun s => s.expectedSeq.toNat)).getD (seqOf buf).toNat =
      (s.getD (StreamState.new (seqOf buf))).expectedSeq.toNat := by
    cases s <;> rfl
  simp only [SeqWrap.step, track, hget]
  generalize s.getD (StreamState.new (seqOf buf)) = state
  simp only [StreamState.observe, gt_iff_lt, UInt32.lt_iff_toNat_lt]
  by_cases hgap : state.expectedSeq.toNat < (seqOf buf).toNat
  · rw [if_pos hgap, if_pos hgap, UInt32.toNat_sub_of_le _ _ (UInt32.le_iff_toNat_le.mpr hgap.le),
      toNat_add_one]
    rfl
  · rw [if_neg hgap, if_neg hgap]
    by_cases hlate : (seqOf buf).toNat < state.expectedSeq.toNat
    · rw [if_pos hlate, if_pos hlate]
      rfl
    · rw [if_neg hlate, if_neg hlate, toNat_add_one]
      rfl

theorem run_track_wraps (k : UInt32) (bufs : List Bytes) :
    run (SeqWrap.step (2 ^ 32)) none (seqsOf k bufs) =
      ((run track none (eventsOf streamIdOf k (numbered bufs))).1.map
        (fun s => s.expectedSeq.toNat),
       (run track none (eventsOf streamIdOf k (numbered bufs))).2) :=
  run_simulation (fun _ => True) (fun s buf _ => track_wraps s buf) none _ (fun _ _ => trivial)

theorem tally_eq_sum (r : OneWayRun) :
    r.tally.outOfOrder = ∑ k ∈ streams r.arrivals, SeqWrap.late (2 ^ 32) (seqsOf k r.arrivals) ∧
    r.tally.packetsLost = ∑ k ∈ streams r.arrivals, SeqWrap.lost (2 ^ 32) (seqsOf k r.arrivals) := by
  have h := runKeyed_total streamIdOf track Tally.new.streamStates
    (numbered r.arrivals) (streams r.arrivals) (fun _ hbuf => streamIdOf_mem_streams hbuf)
  rw [r.tally_eq_addNumbered]
  simp only [Tally.addNumbered, Tally.new, Nat.zero_add] at h ⊢
  rw [h, Prod.fst_sum, Prod.snd_sum]
  constructor
  · refine Finset.sum_congr rfl (fun k _ => ?_)
    rw [SeqWrap.late, run_track_wraps]
  · refine Finset.sum_congr rfl (fun k _ => ?_)
    rw [SeqWrap.lost, run_track_wraps]

/-! ### Streams numbered one after the other -/

theorem toNat_add_ofNat (start : UInt32) (p : ℕ) :
    (start + UInt32.ofNat p).toNat = (start.toNat + p) % 2 ^ 32 := by
  rw [UInt32.toNat_add, UInt32.toNat_ofNat', Nat.add_mod_mod]

/-- Where the numbers of a stream are those of a sender, at the positions `ps`. -/
theorem seqsOf_eq_numbers {bufs : List Bytes} (hlen : ∀ buf ∈ bufs, 8 ≤ buf.length)
    {k start : UInt32} {ps : List ℕ}
    (hnum : (eventsOf streamIdOf k bufs).map seqOf = ps.map (fun p => start + UInt32.ofNat p)) :
    seqsOf k bufs = SeqWrap.numbers (2 ^ 32) start.toNat ps := by
  have h := congrArg (List.map UInt32.toNat) hnum
  simp only [List.map_map, Function.comp_def, toNat_add_ofNat] at h
  rw [seqsOf, numbered_eq_self hlen, SeqWrap.numbers]
  exact h

/-! ### One sender -/

theorem eventsOf_eq_self {bufs : List Bytes} {k : UInt32} (h : ∀ buf ∈ bufs, streamIdOf buf = k) :
    eventsOf streamIdOf k bufs = bufs :=
  List.filter_eq_self.mpr (fun buf hbuf => decide_eq_true (h buf hbuf))

theorem streams_subset_singleton {bufs : List Bytes} {k : UInt32}
    (h : ∀ buf ∈ bufs, streamIdOf buf = k) : streams bufs ⊆ {k} := by
  intro j hj
  obtain ⟨buf, hbuf, rfl⟩ := List.mem_map.mp (List.mem_toFinset.mp hj)
  exact Finset.mem_singleton.mpr (h buf (List.mem_of_mem_filter hbuf))

section OneSender

variable {bufs : List Bytes} {buffer : SendBuffer} {start streamId : UInt32} {ps : List ℕ}

theorem streamIdOf_numbered (h : bufs = ps.map (numberedPacket buffer start streamId)) :
    ∀ buf ∈ bufs, streamIdOf buf = streamId := by
  rw [h]
  intro buf hbuf
  obtain ⟨p, -, rfl⟩ := List.mem_map.mp hbuf
  exact streamIdOf_oneWayPacket ..

theorem length_of_numbered (h : bufs = ps.map (numberedPacket buffer start streamId)) :
    ∀ buf ∈ bufs, 8 ≤ buf.length := by
  rw [h]
  intro buf hbuf
  obtain ⟨p, -, rfl⟩ := List.mem_map.mp hbuf
  exact (length_oneWayPacket ..).symm ▸ buffer.room

theorem seqOf_numbered (h : bufs = ps.map (numberedPacket buffer start streamId)) :
    (eventsOf streamIdOf streamId bufs).map seqOf = ps.map (fun p => start + UInt32.ofNat p) := by
  rw [eventsOf_eq_self (streamIdOf_numbered h), h, List.map_map]
  exact List.map_congr_left (fun p _ => seqOf_oneWayPacket ..)

theorem seqOf_numbered_streams (h : bufs = ps.map (numberedPacket buffer start streamId)) :
    ∀ k ∈ streams bufs, (eventsOf streamIdOf k bufs).map seqOf =
      ps.map (fun p => start + UInt32.ofNat p) := by
  intro k hk
  rw [Finset.mem_singleton.mp (streams_subset_singleton (streamIdOf_numbered h) hk)]
  exact seqOf_numbered h

end OneSender

/-! ### Across the wrap -/

/-- What a receiver of consecutively numbered streams returns: on every stream `k` the datagrams
at the positions `ps k` arrive in order. The losses are the datagrams missing between the first
and the last one, and nothing is out of order, exactly when no missing run reaches across a
multiple of `2 ^ 32`. -/
theorem lost_across_wrap_iff (r : OneWayRun) (stats : ServerOneWayStats)
    (hok : recvOneWayServerWithSocket r = .ok stats)
    (hlen : ∀ buf ∈ r.arrivals, 8 ≤ buf.length)
    (start : UInt32 → UInt32) (ps : UInt32 → List ℕ)
    (hnum : ∀ k ∈ streams r.arrivals, (eventsOf streamIdOf k r.arrivals).map seqOf =
      (ps k).map (fun p => start k + UInt32.ofNat p))
    (hinc : ∀ k ∈ streams r.arrivals, (ps k).IsChain (· < ·))
    (hgap : ∀ k ∈ streams r.arrivals, (ps k).IsChain (fun p q => q - (p + 1) < 2 ^ 31)) :
    (stats.packetsLost = ∑ k ∈ streams r.arrivals, SeqGap.neverArrived (ps k) ∧
      stats.outOfOrder = 0) ↔
      ∀ k ∈ streams r.arrivals, (ps k).IsChain (SeqWrap.SameRound (2 ^ 32) (start k).toNat) := by
  obtain ⟨hlate, hlost⟩ := tally_eq_sum r
  have hseqs : ∀ k ∈ streams r.arrivals,
      seqsOf k r.arrivals = SeqWrap.numbers (2 ^ 32) (start k).toNat (ps k) :=
    fun k hk => seqsOf_eq_numbers hlen (hnum k hk)
  have hwide : ∀ k ∈ streams r.arrivals, (ps k).IsChain (fun p q => q < p + 1 + 2 ^ 32) :=
    fun k hk => (hgap k hk).imp (fun p q h => by omega)
  have hstats : stats.packetsLost = r.tally.packetsLost ∧ stats.outOfOrder = r.tally.outOfOrder := by
    rw [stats_of_ok hok]
    exact ⟨rfl, rfl⟩
  rw [hstats.1, hstats.2, hlost, hlate]
  constructor
  · rintro ⟨-, hzero⟩ k hk
    have hk0 := (Finset.sum_eq_zero_iff.mp hzero) k hk
    rw [hseqs k hk] at hk0
    exact (SeqWrap.late_eq_zero_iff (hinc k hk) (hwide k hk)).mp hk0
  · intro h
    constructor
    · refine Finset.sum_congr rfl (fun k hk => ?_)
      rw [hseqs k hk]
      exact (SeqWrap.counts_sameRound (hinc k hk) (h k hk)).2
    · refine Finset.sum_eq_zero (fun k hk => ?_)
      rw [hseqs k hk]
      exact (SeqWrap.counts_sameRound (hinc k hk) (h k hk)).1

def eightBytes : SendBuffer := ⟨List.replicate 8 0, by decide⟩

/-- A stream that starts two numbers before the wrap. -/
def beforeWrap : UInt32 := 4294967294

/-- Positions 0, 2 and 4 of that stream: the numbers missing are 4294967295 and 1. -/
def acrossWrap : List Bytes := [0, 2, 4].map (numberedPacket eightBytes beforeWrap 0)

/-- Positions 0, 1 and 4: the numbers missing are 0 and 1. -/
def afterWrap : List Bytes := [0, 1, 4].map (numberedPacket eightBytes beforeWrap 0)

theorem lost_across_wrap_iff_afterWrap :
    ((OneWayRun.deliver afterWrap).stats.packetsLost =
        ∑ _k ∈ streams (OneWayRun.deliver afterWrap).arrivals, SeqGap.neverArrived [0, 1, 4] ∧
      (OneWayRun.deliver afterWrap).stats.outOfOrder = 0) ↔
      ∀ _ ∈ streams (OneWayRun.deliver afterWrap).arrivals,
        [0, 1, 4].IsChain (SeqWrap.SameRound (2 ^ 32) beforeWrap.toNat) :=
  lost_across_wrap_iff _ _ (recv_deliver afterWrap)
    (length_of_numbered (arrivals_deliver afterWrap)) (fun _ => beforeWrap) (fun _ => [0, 1, 4])
    (seqOf_numbered_streams (arrivals_deliver afterWrap)) (fun _ _ => by decide)
    (fun _ _ => by decide)

/-- The missing number before the wrap makes everything after it late. -/
theorem acrossWrap_late :
    ¬ ∀ (r : OneWayRun) (stats : ServerOneWayStats), recvOneWayServerWithSocket r = .ok stats →
      (∀ buf ∈ r.arrivals, 8 ≤ buf.length) → ∀ (start : UInt32 → UInt32) (ps : UInt32 → List ℕ),
      (∀ k ∈ streams r.arrivals, (eventsOf streamIdOf k r.arrivals).map seqOf =
        (ps k).map (fun p => start k + UInt32.ofNat p)) →
      (∀ k ∈ streams r.arrivals, (ps k).IsChain (· < ·)) →
      (∀ k ∈ streams r.arrivals, (ps k).IsChain (fun p q => q - (p + 1) < 2 ^ 31)) →
      stats.packetsLost = ∑ k ∈ streams r.arrivals, SeqGap.neverArrived (ps k) ∧
        stats.outOfOrder = 0 := by
  intro h
  have hone := h _ _ (recv_deliver acrossWrap) (length_of_numbered (arrivals_deliver acrossWrap))
    (fun _ => beforeWrap) (fun _ => [0, 2, 4])
    (seqOf_numbered_streams (arrivals_deliver acrossWrap)) (fun _ _ => by decide)
    (fun _ _ => by decide)
  exact absurd hone.2 (by decide)

/-! ### The parallel sender and the receiver -/

theorem lost_of_stream {r : OneWayRun} {k : UInt32} (h : ∀ buf ∈ r.arrivals, streamIdOf buf = k) :
    r.tally.packetsLost = SeqWrap.lost (2 ^ 32) (seqsOf k r.arrivals) := by
  rw [(tally_eq_sum r).2]
  refine (Finset.sum_subset (streams_subset_singleton h) (fun j _ hj => ?_)).trans
    (Finset.sum_singleton ..)
  rw [not_not.mp (fun hne => hj (seqsOf_ne_nil.mp hne))]
  rfl

/-- The datagrams a sender of one stream hands over, if they all arrive once and in order, are
counted without a loss exactly when the kernel skipped none of them between two it took, or the
first run it skipped reaches across a multiple of `2 ^ 32`. -/
theorem noPhantomLoss_iff (s : OffsetRun) (sent : OneWaySendStats)
    (hsent : sendOneWayWithOffset s = .ok sent) (hused : batch * s.replies.length < 2 ^ 32)
    (r : OneWayRun) (stats : ServerOneWayStats) (hok : recvOneWayServerWithSocket r = .ok stats)
    (hdelivered : r.arrivals = s.accepted) :
    (stats.packetsLost = 0 ∧ stats.packetsReceived = sent.packetsSent) ↔
      ∀ a b, SeqWrap.firstSkip s.taken = some (a, b) →
        (s.seqOffset.toNat + a) / 2 ^ 32 ≠ (s.seqOffset.toNat + b) / 2 ^ 32 := by
  obtain ⟨haccepted, hpackets⟩ := s.accepted_eq
  rw [haccepted] at hdelivered
  have hlen := length_of_numbered hdelivered
  have hnum := seqOf_numbered hdelivered
  have hbound : ∀ p ∈ s.taken, p < 2 ^ 32 := by
    intro p hp
    have := (takenFrom_bounds hp).2
    omega
  have hreceived : stats.packetsReceived = sent.packetsSent := by
    have hsum : sent.packetsSent = s.final.totalPackets := by
      unfold sendOneWayWithOffset at hsent
      split at hsent
      · exact (congrArg OneWaySendStats.packetsSent (Except.ok.inj hsent)).symm
      · exact nomatch hsent
    rw [stats_of_ok hok, hsum, hpackets]
    exact (packetsReceived_eq_length r).trans (by rw [hdelivered, List.length_map])
  have hlost : stats.packetsLost =
      SeqWrap.lost (2 ^ 32) (SeqWrap.numbers (2 ^ 32) s.seqOffset.toNat s.taken) := by
    rw [stats_of_ok hok, ← seqsOf_eq_numbers hlen hnum]
    exact lost_of_stream (streamIdOf_numbered hdelivered)
  rw [and_iff_left hreceived, hlost]
  exact SeqWrap.lost_eq_zero_iff (takenFrom_increasing 0 s.replies) hbound

/-- A sender whose kernel answers with these replies. -/
def offsetRun (replies : List BatchReply) : OffsetRun :=
  { connected := true
    start := 0
    duration := 1
    buffer := eightBytes
    seqOffset := 10000000
    streamId := 1
    ticks := replies.map (fun reply => ⟨0, reply⟩) }

theorem noPhantomLoss_iff_short :
    ((OneWayRun.deliver (offsetRun [.sent 2, .wouldBlock]).accepted).stats.packetsLost = 0 ∧
      (OneWayRun.deliver (offsetRun [.sent 2, .wouldBlock]).accepted).stats.packetsReceived =
        (offsetRun [.sent 2, .wouldBlock]).final.totalPackets) ↔
      ∀ a b, SeqWrap.firstSkip (offsetRun [.sent 2, .wouldBlock]).taken = some (a, b) →
        ((offsetRun [.sent 2, .wouldBlock]).seqOffset.toNat + a) / 2 ^ 32 ≠
          ((offsetRun [.sent 2, .wouldBlock]).seqOffset.toNat + b) / 2 ^ 32 :=
  noPhantomLoss_iff (offsetRun [.sent 2, .wouldBlock]) _ rfl (by decide) _ _ (recv_deliver _)
    (arrivals_deliver _)

/-- A batch of which one datagram is taken, then another: 63 are reported as lost that were never
sent. -/
theorem partialBatch_phantomLoss :
    ¬ ∀ (s : OffsetRun) (sent : OneWaySendStats), sendOneWayWithOffset s = .ok sent →
      batch * s.replies.length < 2 ^ 32 → ∀ (r : OneWayRun) (stats : ServerOneWayStats),
      recvOneWayServerWithSocket r = .ok stats → r.arrivals = s.accepted →
      stats.packetsLost = 0 ∧ stats.packetsReceived = sent.packetsSent := by
  intro h
  have hone := h (offsetRun [.sent 1, .sent 1]) _ rfl (by decide) _ _ (recv_deliver _)
    (arrivals_deliver _)
  exact absurd hone.1 (by decide)

end Rperf3
