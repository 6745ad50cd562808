import Rperf3.OneWayReceive
import Mathlib.Algebra.BigOperators.Ring.Finset
import Mathlib.Algebra.Order.BigOperators.Group.Finset

/-!
# Accounting of the one-way receiver

What the counters of `recv_one_way_server_with_socket` say about the datagrams
that arrived: the identity between arrivals, losses and progress of the trackers,
the independence of the streams, and when the losses are the numbers that never
arrived.
-/

namespace Rperf3
open KeyedFold

namespace OneWayRun

def short (r : OneWayRun) : ℕ := (r.arrivals.filter (fun buf => ¬ 8 ≤ buf.length)).length

def firstSeq (r : OneWayRun) (k : UInt32) : ℕ := SeqGap.first (seqsOf k r.arrivals)
def highestSeq (r : OneWayRun) (k : UInt32) : ℕ := SeqGap.highest (seqsOf k r.arrivals)

def expectedSeq (r : OneWayRun) (k : UInt32) : Option ℕ :=
  (r.tally.streamStates k).map (fun s => s.expectedSeq.toNat)

end OneWayRun

def datagram (seq streamId : UInt32) : Bytes := toBeBytes seq ++ toBeBytes streamId

/-! ### The accounting identity -/

theorem length_numbered (r : OneWayRun) :
    r.arrivals.length = (numbered r.arrivals).length + r.short := by
  have h := List.length_eq_length_filter_add (l := r.arrivals) (fun buf => decide (8 ≤ buf.length))
  simpa only [numbered, OneWayRun.short, decide_not] using h

theorem packetsReceived_eq (r : OneWayRun) :
    r.tally.packetsReceived = (numbered r.arrivals).length + r.short := by
  rw [← length_numbered, r.tally_eq_addNumbered]
  exact Nat.zero_add _

theorem packetsReceived_eq_length (r : OneWayRun) :
    r.tally.packetsReceived = r.arrivals.length := by
  rw [packetsReceived_eq, ← length_numbered]

/-- A stream has a tracker as soon as one of its datagrams has arrived, and the tracker expects
the number after the highest one. -/
theorem expectedSeq_seen (r : OneWayRun) (hmax : ∀ buf ∈ numbered r.arrivals, seqOf buf ≠ maxSeq)
    {k : UInt32} (hk : k ∈ streams r.arrivals) : r.expectedSeq k = some (r.highestSeq k + 1) := by
  rw [OneWayRun.expectedSeq, r.tally_eq_addNumbered, expectedSeq_eq hmax, OneWayRun.highestSeq]
  cases hs : seqsOf k r.arrivals with
  | nil => exact absurd hs (seqsOf_ne_nil.mpr hk)
  | cons f rest => exact SeqGap.run_none_state f rest

theorem expectedSeq_unseen (r : OneWayRun)
    (hmax : ∀ buf ∈ numbered r.arrivals, seqOf buf ≠ maxSeq) {k : UInt32}
    (hk : k ∉ streams r.arrivals) : r.expectedSeq k = none := by
  have hs : seqsOf k r.arrivals = [] := not_not.mp (fun h => hk (seqsOf_ne_nil.mp h))
  rw [OneWayRun.expectedSeq, r.tally_eq_addNumbered, expectedSeq_eq hmax, hs]
  rfl

theorem length_numbered_eq_sum (bufs : List Bytes) :
    (numbered bufs).length = ∑ k ∈ streams bufs, (seqsOf k bufs).length := by
  rw [length_eq_sum_eventsOf streamIdOf (numbered bufs) (streams bufs)
    (fun _ hbuf => streamIdOf_mem_streams hbuf)]
  exact Finset.sum_congr rfl (fun k _ => (List.length_map _).symm)

/-- Datagrams that carry a number, less the late ones, plus the losses, is the distance each
tracker has come since its stream's first number. -/
theorem accounting_identity (r : OneWayRun)
    (hmax : ∀ buf ∈ numbered r.arrivals, seqOf buf ≠ maxSeq) :
    (r.tally.packetsReceived : ℤ) - r.short - r.tally.outOfOrder + r.tally.packetsLost =
      ∑ k ∈ streams r.arrivals, (((r.expectedSeq k).getD 0 : ℤ) - r.firstSeq k) ∧
    (∀ k ∈ streams r.arrivals, r.expectedSeq k = some (r.highestSeq k + 1)) ∧
    ∀ k ∉ streams r.arrivals, r.expectedSeq k = none := by
  refine ⟨?_, fun k hk => expectedSeq_seen r hmax hk, fun k hk => expectedSeq_unseen r hmax hk⟩
  obtain ⟨hlate, hlost⟩ := totals_eq_sum hmax
  rw [← r.tally_eq_addNumbered] at hlate hlost
  have hone : ∀ k ∈ streams r.arrivals,
      (((r.expectedSeq k).getD 0 : ℤ) - r.firstSeq k) =
        ((seqsOf k r.arrivals).length : ℤ) - SeqGap.late (seqsOf k r.arrivals) +
          SeqGap.lost (seqsOf k r.arrivals) := by
    intro k hk
    have hid := SeqGap.run_identity (seqsOf k r.arrivals)
    rw [SeqGap.expected_eq (seqsOf_ne_nil.mpr hk)] at hid
    rw [expectedSeq_seen r hmax hk, Option.getD_some, OneWayRun.highestSeq, OneWayRun.firstSeq]
    omega
  rw [Finset.sum_congr rfl hone, Finset.sum_add_distrib, Finset.sum_sub_distrib, hlate, hlost,
    packetsReceived_eq, length_numbered_eq_sum]
  push_cast
  omega

/-- Two streams, one late arrival, one loss, and a datagram too short to carry a number. -/
def twoStreams : List Bytes := [datagram 5 0, datagram 1 1, datagram 7 0, datagram 4 0, [0, 1]]

theorem accounting_identity_twoStreams :
    ((OneWayRun.deliver twoStreams).tally.packetsReceived : ℤ) -
        (OneWayRun.deliver twoStreams).short - (OneWayRun.deliver twoStreams).tally.outOfOrder +
        (OneWayRun.deliver twoStreams).tally.packetsLost =
      ∑ k ∈ streams (OneWayRun.deliver twoStreams).arrivals,
        ((((OneWayRun.deliver twoStreams).expectedSeq k).getD 0 : ℤ) -
          (OneWayRun.deliver twoStreams).firstSeq k) ∧
    (∀ k ∈ streams (OneWayRun.deliver twoStreams).arrivals,
      (OneWayRun.deliver twoStreams).expectedSeq k =
        some ((OneWayRun.deliver twoStreams).highestSeq k + 1)) ∧
    ∀ k ∉ streams (OneWayRun.deliver twoStreams).arrivals,
      (OneWayRun.deliver twoStreams).expectedSeq k = none :=
  accounting_identity (OneWayRun.deliver twoStreams) (by
    rw [arrivals_deliver]
    decide)

/-! ### Independence of the streams -/

theorem numbered_eventsOf {bufs : List Bytes} (hlen : ∀ buf ∈ bufs, 8 ≤ buf.length)
    (k : UInt32) : numbered (eventsOf streamIdOf k bufs) = eventsOf streamIdOf k bufs :=
  numbered_eq_self (fun buf hbuf => hlen buf (mem_eventsOf.mp hbuf).1)

theorem addNumbered_alone {bufs : List Bytes} (hlen : ∀ buf ∈ bufs, 8 ≤ buf.length)
    (k : UInt32) :
    (Tally.new.addNumbered (eventsOf streamIdOf k bufs)).outOfOrder =
      (run track none (eventsOf streamIdOf k bufs)).2.1 ∧
    (Tally.new.addNumbered (eventsOf streamIdOf k bufs)).packetsLost =
      (run track none (eventsOf streamIdOf k bufs)).2.2 := by
  have hself : eventsOf streamIdOf k (eventsOf streamIdOf k bufs) =
      eventsOf streamIdOf k bufs :=
    List.filter_eq_self.mpr (fun buf hbuf => decide_eq_true (mem_eventsOf.mp hbuf).2)
  have h := runKeyed_total streamIdOf track Tally.new.streamStates
    (eventsOf streamIdOf k bufs) {k}
    (fun buf hbuf => Finset.mem_singleton.mpr (mem_eventsOf.mp hbuf).2)
  rw [Finset.sum_singleton, hself] at h
  simp only [Tally.addNumbered, numbered_eventsOf hlen, Tally.new, Nat.zero_add] at h ⊢
  rw [h]
  exact ⟨rfl, rfl⟩

theorem addNumbered_eq_sum_alone {bufs : List Bytes} (hlen : ∀ buf ∈ bufs, 8 ≤ buf.length) :
    (Tally.new.addNumbered bufs).outOfOrder = ∑ k ∈ streams bufs,
      (Tally.new.addNumbered (eventsOf streamIdOf k bufs)).outOfOrder ∧
    (Tally.new.addNumbered bufs).packetsLost = ∑ k ∈ streams bufs,
      (Tally.new.addNumbered (eventsOf streamIdOf k bufs)).packetsLost := by
  have h := runKeyed_total streamIdOf track Tally.new.streamStates bufs
    (streams bufs)
    (fun buf hbuf => streamIdOf_mem_streams ((numbered_eq_self hlen).symm ▸ hbuf))
  rw [Finset.sum_congr rfl (fun k _ => (addNumbered_alone hlen k).1),
    Finset.sum_congr rfl (fun k _ => (addNumbered_alone hlen k).2)]
  simp only [Tally.addNumbered, numbered_eq_self hlen, Tally.new, Nat.zero_add] at h ⊢
  rw [h, Prod.fst_sum, Prod.snd_sum]
  exact ⟨rfl, rfl⟩

theorem addNumbered_congr {bufs bufs' : List Bytes}
    (h : ∀ k, eventsOf streamIdOf k bufs = eventsOf streamIdOf k bufs') :
    Tally.new.addNumbered bufs = Tally.new.addNumbered bufs' := by
  have hperm : bufs.Perm bufs' := perm_of_eventsOf bufs bufs' h
  have hnum : ∀ k, eventsOf streamIdOf k (numbered bufs) =
      eventsOf streamIdOf k (numbered bufs') := by
    intro k
    have hcomm : ∀ as : List Bytes,
        eventsOf streamIdOf k (numbered as) = numbered (eventsOf streamIdOf k as) :=
      fun as => List.filter_comm ..
    rw [hcomm, hcomm, h]
  simp only [Tally.addNumbered, runKeyed_congr Tally.new.streamStates _ _ hnum,
    (hperm.map List.length).sum_eq, hperm.length_eq]

/-- Streams do not influence each other: the late and lost counts, which are `u64`, are the sums of
what a run of each stream alone returns, and the order between streams changes no counter. -/
theorem streams_independent :
    (∀ (r : OneWayRun) (counters : Counters) (alone : UInt32 → OneWayRun)
      (aloneCounters : UInt32 → Counters),
      (∀ buf ∈ r.arrivals, 8 ≤ buf.length) →
      recvOneWayCounters r = .ok counters →
      (∀ k ∈ streams r.arrivals, (alone k).arrivals = eventsOf streamIdOf k r.arrivals ∧
        recvOneWayCounters (alone k) = .ok (aloneCounters k)) →
      counters.packetsLost.toNat =
        (∑ k ∈ streams r.arrivals, (aloneCounters k).packetsLost.toNat) % 2 ^ 64 ∧
      counters.outOfOrder.toNat =
        (∑ k ∈ streams r.arrivals, (aloneCounters k).outOfOrder.toNat) % 2 ^ 64) ∧
    ∀ (r r' : OneWayRun) (counters counters' : Counters),
      recvOneWayCounters r = .ok counters → recvOneWayCounters r' = .ok counters' →
      (∀ k, eventsOf streamIdOf k r.arrivals = eventsOf streamIdOf k r'.arrivals) →
      counters.bytesReceived = counters'.bytesReceived ∧
      counters.packetsReceived = counters'.packetsReceived ∧
      counters.packetsLost = counters'.packetsLost ∧
      counters.outOfOrder = counters'.outOfOrder := by
  constructor
  · intro r counters alone aloneCounters hlen hok halone
    obtain ⟨hlate, hlost⟩ := addNumbered_eq_sum_alone hlen
    have hk : ∀ k ∈ streams r.arrivals, (aloneCounters k).packetsLost.toNat =
        (Tally.new.addNumbered (eventsOf streamIdOf k r.arrivals)).packetsLost % 2 ^ 64 ∧
        (aloneCounters k).outOfOrder.toNat =
        (Tally.new.addNumbered (eventsOf streamIdOf k r.arrivals)).outOfOrder % 2 ^ 64 := by
      intro k hk
      obtain ⟨harr, hcounters⟩ := halone k hk
      rw [counters_of_ok hcounters, ← harr, ← (alone k).tally_eq_addNumbered]
      exact ⟨UInt64.toNat_ofNat', UInt64.toNat_ofNat'⟩
    rw [Finset.sum_congr rfl (fun k h => (hk k h).1), Finset.sum_congr rfl (fun k h => (hk k h).2),
      ← Finset.sum_nat_mod, ← Finset.sum_nat_mod, ← hlate, ← hlost, ← r.tally_eq_addNumbered,
      counters_of_ok hok]
    exact ⟨UInt64.toNat_ofNat', UInt64.toNat_ofNat'⟩
  · intro r r' counters counters' hok hok' h
    have ht : r.tally = r'.tally := by
      rw [r.tally_eq_addNumbered, r'.tally_eq_addNumbered, addNumbered_congr h]
    rw [counters_of_ok hok, counters_of_ok hok', ht]
    exact ⟨rfl, rfl, rfl, rfl⟩

/-- Stream 0 is hit by a datagram numbered `u32::MAX`, after which its tracker begins again. -/
def mergedStreams : List Bytes :=
  [datagram 0 0, datagram 9 1, datagram maxSeq 0, datagram 5 0, datagram 8 1, datagram 12 1]

theorem streams_independent_merged :
    (OneWayRun.deliver mergedStreams).tally.counters.packetsLost.toNat =
      (∑ k ∈ streams (OneWayRun.deliver mergedStreams).arrivals,
        (OneWayRun.deliver
          (eventsOf streamIdOf k mergedStreams)).tally.counters.packetsLost.toNat) % 2 ^ 64 ∧
    (OneWayRun.deliver [datagram 0 0, datagram 9 1]).tally.counters.packetsLost =
      (OneWayRun.deliver [datagram 9 1, datagram 0 0]).tally.counters.packetsLost := by
  refine ⟨?_, ?_⟩
  · refine (streams_independent.1 _ _
      (fun k => OneWayRun.deliver (eventsOf streamIdOf k mergedStreams)) _ ?_
      (recvCounters_deliver _) ?_).1
    · rw [arrivals_deliver]
      decide
    · intro k _
      exact ⟨by rw [arrivals_deliver, arrivals_deliver], recvCounters_deliver _⟩
  · refine (streams_independent.2 _ _ _ _ (recvCounters_deliver _) (recvCounters_deliver _)
      ?_).2.2.1
    intro k
    rw [arrivals_deliver, arrivals_deliver]
    exact eventsOf_swap (by decide) []

/-! ### Exactness of the loss count -/

theorem seqsOf_nodup {bufs : List Bytes}
    (h : (bufs.map (fun buf => (streamIdOf buf, seqOf buf))).Nodup) (k : UInt32) :
    (seqsOf k bufs).Nodup := by
  have hsub : (eventsOf streamIdOf k (numbered bufs)).Sublist bufs :=
    List.filter_sublist.trans List.filter_sublist
  have hpairs := h.sublist (hsub.map (fun buf => (streamIdOf buf, seqOf buf)))
  refine List.Nodup.map_on ?_ hpairs.of_map
  intro a ha b hb hseq
  have hkey : streamIdOf a = streamIdOf b :=
    (mem_eventsOf.mp ha).2.trans (mem_eventsOf.mp hb).2.symm
  exact List.inj_on_of_nodup_map hpairs ha hb (Prod.ext hkey (UInt32.toNat_inj.mp hseq))

/-- The losses returned are the numbers that never arrived exactly when, on every stream, no
number above the first-arrived one is overtaken by a higher one. -/
theorem packetsLost_eq_neverArrived_iff (r : OneWayRun) (stats : ServerOneWayStats)
    (hok : recvOneWayServerWithSocket r = .ok stats)
    (hlen : ∀ buf ∈ r.arrivals, 8 ≤ buf.length)
    (hdistinct : (r.arrivals.map (fun buf => (streamIdOf buf, seqOf buf))).Nodup)
    (hmax : ∀ buf ∈ r.arrivals, seqOf buf ≠ maxSeq) :
    stats.packetsLost = ∑ k ∈ streams r.arrivals, SeqGap.neverArrived (seqsOf k r.arrivals) ↔
      ∀ k ∈ streams r.arrivals, SeqGap.NoOvertaking (seqsOf k r.arrivals) := by
  have hnum : ∀ buf ∈ numbered r.arrivals, seqOf buf ≠ maxSeq :=
    fun buf hbuf => hmax buf ((numbered_eq_self hlen) ▸ hbuf)
  have hlost : stats.packetsLost = ∑ k ∈ streams r.arrivals, SeqGap.lost (seqsOf k r.arrivals) := by
    rw [stats_of_ok hok, ← (totals_eq_sum hnum).2, ← r.tally_eq_addNumbered]
    rfl
  have hle : ∀ k ∈ streams r.arrivals,
      SeqGap.neverArrived (seqsOf k r.arrivals) ≤ SeqGap.lost (seqsOf k r.arrivals) :=
    fun k _ => SeqGap.neverArrived_le_lost (seqsOf_nodup hdistinct k)
  rw [hlost, eq_comm, Finset.sum_eq_sum_iff_of_le hle]
  refine forall₂_congr (fun k _ => ?_)
  rw [eq_comm]
  exact SeqGap.lost_eq_neverArrived_iff (seqsOf_nodup hdistinct k)

theorem packetsLost_eq_neverArrived_iff_inOrder :
    (OneWayRun.deliver [datagram 0 0, datagram 2 0]).stats.packetsLost =
        ∑ k ∈ streams (OneWayRun.deliver [datagram 0 0, datagram 2 0]).arrivals,
          SeqGap.neverArrived (seqsOf k (OneWayRun.deliver [datagram 0 0, datagram 2 0]).arrivals) ↔
      ∀ k ∈ streams (OneWayRun.deliver [datagram 0 0, datagram 2 0]).arrivals,
        SeqGap.NoOvertaking
          (seqsOf k (OneWayRun.deliver [datagram 0 0, datagram 2 0]).arrivals) :=
  packetsLost_eq_neverArrived_iff _ _ (recv_deliver _)
    (by rw [arrivals_deliver]; decide) (by rw [arrivals_deliver]; decide)
    (by rw [arrivals_deliver]; decide)

/-- Numbers 0, 2, 1 on one stream: one loss is counted and all three arrived. -/
theorem packetsLost_overtaken :
    ¬ ∀ (r : OneWayRun) (stats : ServerOneWayStats), recvOneWayServerWithSocket r = .ok stats →
      (∀ buf ∈ r.arrivals, 8 ≤ buf.length) →
      (r.arrivals.map (fun buf => (streamIdOf buf, seqOf buf))).Nodup →
      (∀ buf ∈ r.arrivals, seqOf buf ≠ maxSeq) →
      stats.packetsLost =
        ∑ k ∈ streams r.arrivals, SeqGap.neverArrived (seqsOf k r.arrivals) := by
  intro h
  have hlost := h (OneWayRun.deliver [datagram 0 0, datagram 2 0, datagram 1 0]) _
    (recv_deliver _) (by rw [arrivals_deliver]; decide) (by rw [arrivals_deliver]; decide)
    (by rw [arrivals_deliver]; decide)
  have hone : (OneWayRun.deliver [datagram 0 0, datagram 2 0, datagram 1 0]).stats.packetsLost =
      1 := by decide
  have hzero : ∑ k ∈ streams [datagram 0 0, datagram 2 0, datagram 1 0],
      SeqGap.neverArrived (seqsOf k [datagram 0 0, datagram 2 0, datagram 1 0]) = 0 := by decide
  rw [arrivals_deliver, hone, hzero] at hlost
  exact absurd hlost (by decide)

end Rperf3
