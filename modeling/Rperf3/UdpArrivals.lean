import Rperf3.Library.Arrivals
import Rperf3.Measurements
import Mathlib.Algebra.Ring.Int.Defs

/-!
# Loss and order of received packets (`measurements.rs:1073-1159`)

The collector keeps of the packets received the highest number, the last number
and a count. Its loss is the span of numbers less the count, so that a repeated
packet hides a lost one; its order is the number of drops, so that only the first
of several late packets is sure to be counted.
-/

namespace Rperf3

/-- A call of `record_udp_packet_received`. -/
structure UdpArrival where
  sequence : UInt64
  sendTimestampUs : UInt64
  recvTimestampUs : UInt64

namespace MeasurementsCollector

def recordArrival (c : MeasurementsCollector) (a : UdpArrival) : MeasurementsCollector :=
  c.recordUdpPacketReceived a.sequence a.sendTimestampUs a.recvTimestampUs

def recordArrivals (c : MeasurementsCollector) (as : List UdpArrival) : MeasurementsCollector :=
  as.foldl recordArrival c

theorem recordArrivals_append_singleton (c : MeasurementsCollector) (as : List UdpArrival)
    (a : UdpArrival) : c.recordArrivals (as ++ [a]) = (c.recordArrivals as).recordArrival a := by
  rw [recordArrivals, recordArrivals, List.foldl_append, List.foldl_cons, List.foldl_nil]

end MeasurementsCollector

def InRange32 (as : List UdpArrival) : Prop := ∀ a ∈ as, a.sequence.toNat < 2 ^ 32

/-- The numbers that arrived, latest first. -/
def history (as : List UdpArrival) : List ℕ := as.reverse.map (fun a => a.sequence.toNat)

/-! ### What the collector keeps -/

theorem history_append_singleton (as : List UdpArrival) (a : UdpArrival) :
    history (as ++ [a]) = a.sequence.toNat :: history as := by
  rw [history, history, List.reverse_append, List.reverse_singleton, List.singleton_append,
    List.map_cons]

theorem length_history (as : List UdpArrival) : (history as).length = as.length := by
  rw [history, List.length_map, List.length_reverse]

/-- The state of a new collector after some arrivals. -/
structure Tracked (as : List UdpArrival) (c : MeasurementsCollector) : Prop where
  last : c.udpState.lastSequence.map UInt64.toNat = (history as).head?
  max : (c.udpState.maxSequence.map (fun m => m.toNat + 1)).getD 0 = Arrivals.expected (history as)
  count : c.udpState.receivedCount = UInt64.ofNat as.length
  order : c.inner.outOfOrderPackets = UInt64.ofNat (Arrivals.drops (history as))

theorem isLate_eq (state : UdpPacketState) (sequence : UInt64) :
    state.isLate sequence =
      (state.lastSequence.map UInt64.toNat).elim false (fun last => sequence.toNat < last) := by
  unfold UdpPacketState.isLate
  cases state.lastSequence with
  | none => rfl
  | some last => exact decide_eq_decide.mpr UInt64.lt_iff_toNat_lt

theorem nextMax_eq (state : UdpPacketState) (sequence : UInt64) :
    (state.nextMax sequence).toNat + 1 =
      max (sequence.toNat + 1) ((state.maxSequence.map (fun m => m.toNat + 1)).getD 0) := by
  unfold UdpPacketState.nextMax
  cases state.maxSequence with
  | none => rfl
  | some highest =>
    simp only [Option.map_some, Option.getD_some, gt_iff_lt, UInt64.lt_iff_toNat_lt]
    split
    · exact (max_eq_left (by omega)).symm
    · exact (max_eq_right (by omega)).symm

theorem drops_cons (n : ℕ) (earlier : List ℕ) :
    Arrivals.drops (n :: earlier) = Arrivals.drops earlier +
      if earlier.head?.elim false (fun last => n < last) then 1 else 0 := by
  cases earlier with
  | nil => rfl
  | cons last earlier =>
    rw [Arrivals.drops, List.head?_cons, Option.elim_some]
    simp only [decide_eq_true_eq]

theorem tracked_new : Tracked [] MeasurementsCollector.new := ⟨rfl, rfl, rfl, rfl⟩

theorem Tracked.record {as : List UdpArrival} {c : MeasurementsCollector} {a : UdpArrival}
    (h : Tracked as c) (hrange : a.sequence.toNat < 2 ^ 32) :
    Tracked (as ++ [a]) (c.recordArrival a) := by
  have hcounted : a.sequence ≠ u64Max := by
    rintro heq
    rw [heq] at hrange
    exact absurd hrange (by decide)
  have hlate : c.udpState.isLate a.sequence =
      (history as).head?.elim false (fun last => a.sequence.toNat < last) := by
    rw [isLate_eq, h.last]
  unfold MeasurementsCollector.recordArrival MeasurementsCollector.recordUdpPacketReceived
  rw [if_neg hcounted]
  refine ⟨?_, ?_, ?_, ?_⟩
  · rw [history_append_singleton]
    rfl
  · rw [history_append_singleton, Arrivals.expected, ← h.max]
    exact nextMax_eq c.udpState a.sequence
  · rw [List.length_append, List.length_singleton, UInt64.ofNat_add, ← h.count]
    rfl
  · rw [history_append_singleton, drops_cons]
    simp only [hlate, h.order]
    split
    · rw [UInt64.ofNat_add]
      rfl
    · rw [Nat.add_zero]

theorem tracked {as : List UdpArrival} (h : InRange32 as) :
    Tracked as (MeasurementsCollector.new.recordArrivals as) := by
  induction as using List.reverseRecOn with
  | nil => exact tracked_new
  | append_singleton as a ih =>
    rw [MeasurementsCollector.recordArrivals_append_singleton]
    have hlast : a.sequence.toNat < 2 ^ 32 := h a List.mem_concat_self
    exact (ih (fun x hx => h x (List.mem_append_left _ hx))).record hlast

/-! ### Loss -/

theorem toNat_saturatingSub (a b : UInt64) :
    (saturatingSub a b).toNat = a.toNat - b.toNat := by
  unfold saturatingSub
  split
  · next hle => exact UInt64.toNat_sub_of_le a b hle
  · next hlt =>
    have hlt' : a.toNat < b.toNat := UInt64.lt_iff_toNat_lt.mp (UInt64.not_le.mp hlt)
    rw [Nat.sub_eq_zero_of_le hlt'.le]
    rfl

theorem expected_le {as : List UdpArrival} (h : InRange32 as) :
    Arrivals.expected (history as) ≤ 2 ^ 32 := by
  by_cases hempty : history as = []
  · rw [hempty]
    exact Nat.zero_le _
  · obtain ⟨n, hn, hexpected⟩ := Arrivals.exists_expected hempty
    obtain ⟨a, ha, rfl⟩ := List.mem_map.mp hn
    rw [hexpected]
    exact h a (List.mem_reverse.mp ha)

/-- What `calculate_udp_loss` returns: the span of the numbers less the count of arrivals, which
is kept to 64 bits, and the span. -/
theorem calculateUdpLoss_eq {as : List UdpArrival} (h : InRange32 as) :
    (MeasurementsCollector.new.recordArrivals as).calculateUdpLoss.1.toNat =
        Arrivals.expected (history as) - as.length % 2 ^ 64 ∧
      (MeasurementsCollector.new.recordArrivals as).calculateUdpLoss.2.toNat =
        Arrivals.expected (history as) := by
  have htracked := tracked h
  have hle := expected_le h
  have hmax := htracked.max
  unfold MeasurementsCollector.calculateUdpLoss
  cases hhighest : (MeasurementsCollector.new.recordArrivals as).udpState.maxSequence with
  | none =>
    rw [hhighest] at hmax
    rw [← hmax]
    exact ⟨(Nat.zero_sub _).symm, rfl⟩
  | some highest =>
    rw [hhighest, Option.map_some, Option.getD_some] at hmax
    have hexpected : (highest + 1).toNat = Arrivals.expected (history as) := by
      have hone : (1 : UInt64).toNat = 1 := rfl
      rw [UInt64.toNat_add, hone, hmax]
      exact Nat.mod_eq_of_lt (by omega)
    simp only [toNat_saturatingSub, hexpected, htracked.count, UInt64.toNat_ofNat', and_self]

/-- The result is the number of missing packets and the highest number plus one. -/
def LossExact (as : List UdpArrival) : Prop :=
  (MeasurementsCollector.new.recordArrivals as).calculateUdpLoss.1.toNat =
      (Arrivals.missing (history as)).card ∧
    (MeasurementsCollector.new.recordArrivals as).calculateUdpLoss.2.toNat =
      Arrivals.expected (history as)

theorem lossExact_iff_sub {as : List UdpArrival} (h : InRange32 as) :
    LossExact as ↔ Arrivals.expected (history as) - as.length % 2 ^ 64 =
      (Arrivals.missing (history as)).card := by
  obtain ⟨hlost, hexpected⟩ := calculateUdpLoss_eq h
  rw [LossExact, hlost, and_iff_left hexpected]

theorem lossExact_iff_nodup {as : List UdpArrival} (h : InRange32 as)
    (hlength : as.length < 2 ^ 64) :
    LossExact as ↔ (history as).Nodup ∨ Arrivals.missing (history as) = ∅ := by
  have hcard := Arrivals.card_missing (history as)
  have hle : (history as).toFinset.card ≤ (history as).length := List.toFinset_card_le _
  rw [lossExact_iff_sub h, Arrivals.sub_eq_card_missing_iff, Nat.mod_eq_of_lt hlength,
    ← Arrivals.card_toFinset_eq_length_iff, ← Finset.card_eq_zero, length_history] at *
  omega

/-- The arrivals for which the loss is exact. -/
theorem calculateUdpLoss_exact_iff {as : List UdpArrival} (h : InRange32 as) :
    LossExact as ↔ as.length % 2 ^ 64 = (history as).toFinset.card ∨
      Arrivals.missing (history as) = ∅ ∧
        Arrivals.expected (history as) ≤ as.length % 2 ^ 64 :=
  (lossExact_iff_sub h).trans (Arrivals.sub_eq_card_missing_iff _)

/-- Packets with these numbers, each received 100 microseconds after it was sent. -/
def arrivalsOf (ns : List UInt64) : List UdpArrival :=
  ns.map (fun n => ⟨n, 1000000 + n * 1000, 1000100 + n * 1000⟩)

theorem calculateUdpLoss_exact_gaps : LossExact (arrivalsOf [0, 1, 3, 5]) :=
  (calculateUdpLoss_exact_iff (by unfold InRange32; decide)).mpr (.inl (by decide))

theorem calculateUdpLoss_duplicate : ¬ ∀ as : List UdpArrival, InRange32 as → LossExact as := by
  intro h
  have hexact := (h (arrivalsOf [0, 0, 2]) (by unfold InRange32; decide)).1
  exact absurd hexact (by decide)

/-! ### Order -/

theorem get_outOfOrderPackets (c : MeasurementsCollector) :
    c.get.outOfOrderPackets = c.inner.outOfOrderPackets := by
  unfold MeasurementsCollector.get
  simp only
  split <;> rfl

theorem length_history_le {as : List UdpArrival} (h : InRange32 as) (hnodup : (history as).Nodup) :
    (history as).length ≤ 2 ^ 32 := by
  have hcard := Arrivals.card_missing (history as)
  have hlength := Arrivals.card_toFinset_eq_length_iff.mpr hnodup
  have hle := expected_le h
  omega

theorem outOfOrderPackets_eq {as : List UdpArrival} (h : InRange32 as)
    (hnodup : (history as).Nodup) :
    (MeasurementsCollector.new.recordArrivals as).get.outOfOrderPackets.toNat =
      Arrivals.drops (history as) := by
  have hdrops := (Arrivals.drops_le_overtaken (history as)).trans
    ((Arrivals.overtaken_le_length _).trans (length_history_le h hnodup))
  rw [get_outOfOrderPackets, (tracked h).order, UInt64.toNat_ofNat']
  exact Nat.mod_eq_of_lt (lt_of_le_of_lt hdrops (by decide))

/-- The duplicate-free arrivals for which the reordering count is that of the packets overtaken by
a later one. -/
theorem outOfOrderPackets_exact_iff {as : List UdpArrival} (h : InRange32 as)
    (hnodup : (history as).Nodup) :
    (MeasurementsCollector.new.recordArrivals as).get.outOfOrderPackets.toNat =
      Arrivals.overtaken (history as) ↔ Arrivals.LateInTurn (history as) := by
  rw [outOfOrderPackets_eq h hnodup]
  exact Arrivals.drops_eq_overtaken_iff _

theorem outOfOrderPackets_exact_pairs :
    (MeasurementsCollector.new.recordArrivals (arrivalsOf [0, 2, 1])).get.outOfOrderPackets.toNat =
      Arrivals.overtaken (history (arrivalsOf [0, 2, 1])) := by
  refine (outOfOrderPackets_exact_iff (by unfold InRange32; decide) (by decide)).mpr ?_
  exact (Arrivals.drops_eq_overtaken_iff _).mp (by decide)

/-- Two late packets in their order after an early one: only the first of them is counted. -/
theorem outOfOrderPackets_twoLate : ¬ ∀ as : List UdpArrival, InRange32 as → (history as).Nodup →
    (MeasurementsCollector.new.recordArrivals as).get.outOfOrderPackets.toNat =
      Arrivals.overtaken (history as) := by
  intro h
  have hcount := h (arrivalsOf [0, 3, 1, 2]) (by unfold InRange32; decide) (by decide)
  exact absurd hcount (by decide)

end Rperf3
