import Rperf3.UdpArrivals
import Mathlib.Data.List.Chain

/-!
# The jitter of received packets (`measurements.rs:1105-1127`)

The jitter filter is fed with the differences of transit times of successive
packets. The collector takes transit times by a subtraction that saturates at
zero, so that a packet received before it was sent by the sender's clock has no
transit time at all; the law takes them as integers.
-/

namespace Rperf3

/-! ### What the filter is fed with -/

/-- The transit difference at a packet; there is none at the first one. -/
def UdpPacketState.transitDelta (state : UdpPacketState)
    (sendTimestampUs recvTimestampUs : UInt64) : Option UInt64 :=
  match state.lastArrivalUs, state.lastSendTimestampUs with
  | some lastArrival, some lastSend =>
    some (absDiff (saturatingSub recvTimestampUs sendTimestampUs)
      (saturatingSub lastArrival lastSend))
  | _, _ => none

def jitterFilter (jitter : F64) (delta : ℕ) : F64 := jitter + ((delta : F64) - jitter) / 16

theorem nextJitter_eq (state : UdpPacketState) (sendTimestampUs recvTimestampUs : UInt64) :
    state.nextJitter sendTimestampUs recvTimestampUs =
      (state.transitDelta sendTimestampUs recvTimestampUs).map
        (fun delta => jitterFilter state.jitterMs delta.toNat) := by
  unfold UdpPacketState.nextJitter UdpPacketState.transitDelta
  cases state.lastArrivalUs with
  | none => rfl
  | some lastArrival =>
    cases state.lastSendTimestampUs with
    | none => rfl
    | some lastSend => rfl

def packets (as : List UdpArrival) : List UdpArrival := as.filter (fun a => a.sequence ≠ u64Max)

namespace MeasurementsCollector

/-- The transit differences that the arrivals feed to the filter. -/
def transitDeltas (c : MeasurementsCollector) : List UdpArrival → List ℕ
  | [] => []
  | a :: as =>
    if a.sequence = u64Max then (c.recordArrival a).transitDeltas as
    else
      ((c.udpState.transitDelta a.sendTimestampUs a.recvTimestampUs).map UInt64.toNat).toList ++
        (c.recordArrival a).transitDeltas as

theorem recordArrival_initialization {c : MeasurementsCollector} {a : UdpArrival}
    (h : a.sequence = u64Max) : c.recordArrival a = c :=
  if_pos h

theorem recordArrival_packet {c : MeasurementsCollector} {a : UdpArrival}
    (h : a.sequence ≠ u64Max) :
    (c.recordArrival a).udpState.lastArrivalUs = some a.recvTimestampUs ∧
      (c.recordArrival a).udpState.lastSendTimestampUs = some a.sendTimestampUs ∧
      (c.recordArrival a).udpState.jitterMs = List.foldl jitterFilter c.udpState.jitterMs
        ((c.udpState.transitDelta a.sendTimestampUs a.recvTimestampUs).map
          UInt64.toNat).toList := by
  have hjitter := nextJitter_eq c.udpState a.sendTimestampUs a.recvTimestampUs
  unfold recordArrival recordUdpPacketReceived
  rw [if_neg h]
  refine ⟨rfl, rfl, ?_⟩
  simp only [hjitter]
  cases c.udpState.transitDelta a.sendTimestampUs a.recvTimestampUs with
  | none => rfl
  | some delta => rfl

/-- The jitter is the filter run over the transit differences. -/
theorem jitter_recordArrivals (c : MeasurementsCollector) (as : List UdpArrival) :
    (c.recordArrivals as).udpState.jitterMs =
      (c.transitDeltas as).foldl jitterFilter c.udpState.jitterMs := by
  induction as generalizing c with
  | nil => rfl
  | cons a as ih =>
    refine (ih (c.recordArrival a)).trans ?_
    rw [transitDeltas]
    by_cases hinit : a.sequence = u64Max
    · rw [if_pos hinit, recordArrival_initialization hinit]
    · rw [if_neg hinit, List.foldl_append, (recordArrival_packet hinit).2.2]

end MeasurementsCollector

/-! ### The law -/

def UdpArrival.transit (a : UdpArrival) : ℤ := a.recvTimestampUs.toNat - a.sendTimestampUs.toNat

/-- `|(R_i - R_(i-1)) - (S_i - S_(i-1))|`. -/
def rfcDelta (previous a : UdpArrival) : ℕ :=
  ((a.recvTimestampUs.toNat - previous.recvTimestampUs.toNat : ℤ) -
    (a.sendTimestampUs.toNat - previous.sendTimestampUs.toNat)).natAbs

def rfcDeltas (as : List UdpArrival) : List ℕ :=
  List.zipWith rfcDelta (packets as) (packets as).tail

/-- No packet is received before it was sent. -/
def Ordered (as : List UdpArrival) : Prop :=
  ∀ a ∈ packets as, a.sendTimestampUs.toNat ≤ a.recvTimestampUs.toNat

def SameTransit (as : List UdpArrival) : Prop :=
  ∀ a ∈ packets as, ∀ b ∈ packets as, a.transit = b.transit

/-- The same packet, with its receive time moved by `k`. -/
structure Shifted (k : ℤ) (a a' : UdpArrival) : Prop where
  sequence : a'.sequence = a.sequence
  sent : a'.sendTimestampUs = a.sendTimestampUs
  received : (a'.recvTimestampUs.toNat : ℤ) = a.recvTimestampUs.toNat + k

def collectorDelta (previous a : UdpArrival) : ℕ :=
  (max a.transit 0 - max previous.transit 0).natAbs

theorem toNat_absDiff (a b : UInt64) : (absDiff a b).toNat = (a.toNat - b.toNat : ℤ).natAbs := by
  unfold absDiff
  split
  · next hle =>
    have hle' : b.toNat ≤ a.toNat := UInt64.le_iff_toNat_le.mp hle
    rw [UInt64.toNat_sub_of_le a b hle]
    omega
  · next hlt =>
    have hlt' := UInt64.not_le.mp hlt
    have hnat : a.toNat < b.toNat := UInt64.lt_iff_toNat_lt.mp hlt'
    rw [UInt64.toNat_sub_of_le b a (UInt64.le_of_lt hlt')]
    omega

theorem transitDelta_eq {state : UdpPacketState} {previous : UdpArrival} (a : UdpArrival)
    (harrival : state.lastArrivalUs = some previous.recvTimestampUs)
    (hsend : state.lastSendTimestampUs = some previous.sendTimestampUs) :
    (state.transitDelta a.sendTimestampUs a.recvTimestampUs).map UInt64.toNat =
      some (collectorDelta previous a) := by
  unfold UdpPacketState.transitDelta
  rw [harrival, hsend, Option.map_some, toNat_absDiff, toNat_saturatingSub, toNat_saturatingSub,
    collectorDelta, UdpArrival.transit, UdpArrival.transit]
  congr 2
  omega

theorem packets_cons_of_ne {a : UdpArrival} (as : List UdpArrival) (h : a.sequence ≠ u64Max) :
    packets (a :: as) = a :: packets as :=
  List.filter_cons_of_pos (decide_eq_true h)

theorem packets_cons_of_eq {a : UdpArrival} (as : List UdpArrival) (h : a.sequence = u64Max) :
    packets (a :: as) = packets as :=
  List.filter_cons_of_neg (by simpa using h)

open MeasurementsCollector in
theorem transitDeltas_of_last {c : MeasurementsCollector} {previous : UdpArrival}
    (as : List UdpArrival)
    (harrival : c.udpState.lastArrivalUs = some previous.recvTimestampUs)
    (hsend : c.udpState.lastSendTimestampUs = some previous.sendTimestampUs) :
    c.transitDeltas as = List.zipWith collectorDelta (previous :: packets as) (packets as) := by
  induction as generalizing c previous with
  | nil => rfl
  | cons a as ih =>
    rw [transitDeltas]
    by_cases hinit : a.sequence = u64Max
    · rw [if_pos hinit, recordArrival_initialization hinit, packets_cons_of_eq as hinit]
      exact ih harrival hsend
    · obtain ⟨harrival', hsend', -⟩ := recordArrival_packet (c := c) hinit
      rw [if_neg hinit, transitDelta_eq a harrival hsend, packets_cons_of_ne as hinit,
        ih harrival' hsend']
      rfl

open MeasurementsCollector in
theorem transitDeltas_new (as : List UdpArrival) :
    MeasurementsCollector.new.transitDeltas as =
      List.zipWith collectorDelta (packets as) (packets as).tail := by
  induction as with
  | nil => rfl
  | cons a as ih =>
    rw [transitDeltas]
    by_cases hinit : a.sequence = u64Max
    · rw [if_pos hinit, recordArrival_initialization hinit, packets_cons_of_eq as hinit]
      exact ih
    · obtain ⟨harrival, hsend, -⟩ :=
        recordArrival_packet (c := MeasurementsCollector.new) hinit
      rw [if_neg hinit, packets_cons_of_ne as hinit, transitDeltas_of_last as harrival hsend]
      rfl

/-! ### Where the two agree -/

theorem zipWith_tail_eq_iff {α β : Type} (f g : α → α → β) (l : List α) :
    List.zipWith f l l.tail = List.zipWith g l l.tail ↔ l.IsChain (fun a b => f a b = g a b) := by
  induction l with
  | nil => exact iff_of_true rfl List.isChain_nil
  | cons a l ih =>
    cases l with
    | nil => exact iff_of_true rfl (List.isChain_singleton a)
    | cons b l =>
      rw [List.isChain_cons_cons, ← ih]
      exact List.cons_eq_cons

/-- Clipping two transit times at zero keeps their distance if none of them is clipped, or if they
are equal. -/
theorem clipped_eq_iff (s t : ℤ) :
    (max t 0 - max s 0).natAbs = (t - s).natAbs ↔ 0 ≤ s ∧ 0 ≤ t ∨ s = t := by
  omega

theorem isChain_clipped_iff (l : List ℤ) :
    l.IsChain (fun s t => 0 ≤ s ∧ 0 ≤ t ∨ s = t) ↔
      (∀ t ∈ l, 0 ≤ t) ∨ ∀ s ∈ l, ∀ t ∈ l, s = t := by
  induction l with
  | nil => exact iff_of_true List.isChain_nil (.inl (fun t ht => absurd ht List.not_mem_nil))
  | cons r l ih =>
    cases l with
    | nil =>
      refine iff_of_true (List.isChain_singleton r) (.inr (fun s hs t ht => ?_))
      exact (List.mem_singleton.mp hs).trans (List.mem_singleton.mp ht).symm
    | cons s l =>
      rw [List.isChain_cons_cons, ih]
      have hs : s ∈ s :: l := List.mem_cons_self ..
      constructor
      · rintro ⟨⟨hr, hpos⟩ | rfl, hall | hsame⟩
        · exact .inl (List.forall_mem_cons.mpr ⟨hr, hall⟩)
        · refine .inl (List.forall_mem_cons.mpr ⟨hr, fun t ht => ?_⟩)
          exact (hsame s hs t ht) ▸ hpos
        · exact .inl (List.forall_mem_cons.mpr ⟨hall r hs, hall⟩)
        · refine .inr (fun s' hs' t' ht' => ?_)
          have hfirst : ∀ t ∈ r :: r :: l, t = r :=
            List.forall_mem_cons.mpr ⟨rfl, fun t ht => hsame t ht r hs⟩
          exact (hfirst s' hs').trans (hfirst t' ht').symm
      · rintro (hall | hsame)
        · obtain ⟨hr, hrest⟩ := List.forall_mem_cons.mp hall
          exact ⟨.inl ⟨hr, hrest s hs⟩, .inl hrest⟩
        · have hr : r ∈ r :: s :: l := List.mem_cons_self ..
          refine ⟨.inr (hsame r hr s (List.mem_cons_of_mem _ hs)), .inr (fun s' hs' t' ht' => ?_)⟩
          exact hsame s' (List.mem_cons_of_mem _ hs') t' (List.mem_cons_of_mem _ ht')

theorem transit_nonneg (a : UdpArrival) :
    0 ≤ a.transit ↔ a.sendTimestampUs.toNat ≤ a.recvTimestampUs.toNat := by
  rw [UdpArrival.transit, sub_nonneg, Nat.cast_le]

theorem ordered_iff (as : List UdpArrival) : Ordered as ↔ ∀ a ∈ packets as, 0 ≤ a.transit :=
  forall₂_congr (fun a _ => (transit_nonneg a).symm)

theorem rfcDelta_eq (previous a : UdpArrival) :
    rfcDelta previous a = (a.transit - previous.transit).natAbs := by
  unfold rfcDelta UdpArrival.transit
  congr 1
  omega

/-- The collector follows the law if no packet is received before it was sent, or if all packets
have the same transit time. -/
theorem transitDeltas_eq_rfcDeltas_iff (as : List UdpArrival) :
    MeasurementsCollector.new.transitDeltas as = rfcDeltas as ↔ Ordered as ∨ SameTransit as := by
  rw [transitDeltas_new, rfcDeltas, zipWith_tail_eq_iff]
  have hchain := isChain_clipped_iff ((packets as).map UdpArrival.transit)
  rw [List.isChain_map] at hchain
  simp only [List.forall_mem_map] at hchain
  simp only [collectorDelta, rfcDelta_eq, clipped_eq_iff]
  rw [ordered_iff]
  exact hchain

/-! ### The clock of the receiver -/

def transits (as : List UdpArrival) : List ℤ := (packets as).map UdpArrival.transit

def distances (ts : List ℤ) : List ℕ := List.zipWith (fun s t => (t - s).natAbs) ts ts.tail

theorem rfcDeltas_eq_distances (as : List UdpArrival) : rfcDeltas as = distances (transits as) := by
  rw [rfcDeltas, distances, transits, ← List.map_tail, List.zipWith_map]
  congr 1
  funext previous a
  exact rfcDelta_eq previous a

theorem distances_map_add (ts : List ℤ) (k : ℤ) : distances (ts.map (· + k)) = distances ts := by
  rw [distances, distances, ← List.map_tail, List.zipWith_map]
  congr 1
  funext s t
  congr 1
  omega

theorem sameTransit_iff (as : List UdpArrival) :
    SameTransit as ↔ ∀ s ∈ transits as, ∀ t ∈ transits as, s = t := by
  simp only [transits, List.forall_mem_map]
  rfl

section Shift

variable {k : ℤ} {as as' : List UdpArrival}

theorem Shifted.transit {a a' : UdpArrival} (h : Shifted k a a') : a'.transit = a.transit + k := by
  unfold UdpArrival.transit
  rw [h.received, h.sent]
  omega

theorem transits_shifted (h : List.Forall₂ (Shifted k) as as') :
    transits as' = (transits as).map (· + k) := by
  induction h with
  | nil => rfl
  | cons hhead _ ih =>
    rename_i a a' l l' _
    unfold transits at ih ⊢
    by_cases hinit : a.sequence = u64Max
    · rw [packets_cons_of_eq _ hinit, packets_cons_of_eq _ (hhead.sequence.trans hinit)]
      exact ih
    · rw [packets_cons_of_ne _ hinit, packets_cons_of_ne _ (hhead.sequence ▸ hinit), List.map_cons,
        List.map_cons, List.map_cons, ih, hhead.transit]

theorem rfcDeltas_shifted (h : List.Forall₂ (Shifted k) as as') : rfcDeltas as' = rfcDeltas as := by
  rw [rfcDeltas_eq_distances, rfcDeltas_eq_distances, transits_shifted h, distances_map_add]

theorem sameTransit_shifted (h : List.Forall₂ (Shifted k) as as') :
    SameTransit as' ↔ SameTransit as := by
  rw [sameTransit_iff, sameTransit_iff, transits_shifted h]
  simp only [List.forall_mem_map, add_left_inj]

end Shift

/-- The arrivals, and the shifts of their receive times, for which the transit differences follow
the law and are those of the shifted arrivals. -/
theorem transitDeltas_shift_iff {k : ℤ} {as as' : List UdpArrival}
    (h : List.Forall₂ (Shifted k) as as') :
    MeasurementsCollector.new.transitDeltas as = rfcDeltas as ∧
        MeasurementsCollector.new.transitDeltas as' = MeasurementsCollector.new.transitDeltas as ↔
      Ordered as ∧ Ordered as' ∨ SameTransit as := by
  have hlaw := transitDeltas_eq_rfcDeltas_iff as
  have hlaw' := transitDeltas_eq_rfcDeltas_iff as'
  rw [rfcDeltas_shifted h, sameTransit_shifted h] at hlaw'
  constructor
  · rintro ⟨hdeltas, hsame⟩
    rcases hlaw.mp hdeltas with hordered | htransit
    · rcases hlaw'.mp (hsame.trans hdeltas) with hordered' | htransit
      · exact .inl ⟨hordered, hordered'⟩
      · exact .inr htransit
    · exact .inr htransit
  · rintro (⟨hordered, hordered'⟩ | htransit)
    · have hdeltas := hlaw.mpr (.inl hordered)
      exact ⟨hdeltas, (hlaw'.mpr (.inl hordered')).trans hdeltas.symm⟩
    · have hdeltas := hlaw.mpr (.inr htransit)
      exact ⟨hdeltas, (hlaw'.mpr (.inr htransit)).trans hdeltas.symm⟩

def twoArrivals (first : UInt64) : List UdpArrival := [⟨0, 10, first⟩, ⟨1, 20, first + 20⟩]

theorem transitDeltas_shift_ahead :
    MeasurementsCollector.new.transitDeltas (twoArrivals 30) = rfcDeltas (twoArrivals 30) ∧
      MeasurementsCollector.new.transitDeltas (twoArrivals 130) =
        MeasurementsCollector.new.transitDeltas (twoArrivals 30) := by
  have hshift : List.Forall₂ (Shifted 100) (twoArrivals 30) (twoArrivals 130) :=
    .cons ⟨rfl, rfl, rfl⟩ (.cons ⟨rfl, rfl, rfl⟩ .nil)
  refine (transitDeltas_shift_iff hshift).mpr (.inl ⟨?_, ?_⟩)
  · unfold Ordered
    decide
  · unfold Ordered
    decide

/-- A receiver whose clock is behind that of the sender. -/
theorem transitDeltas_shift_behind :
    ¬ ∀ (k : ℤ) (as as' : List UdpArrival), List.Forall₂ (Shifted k) as as' →
      MeasurementsCollector.new.transitDeltas as = rfcDeltas as ∧
        MeasurementsCollector.new.transitDeltas as' =
          MeasurementsCollector.new.transitDeltas as := by
  intro h
  have hshift : List.Forall₂ (Shifted (-25)) (twoArrivals 30) (twoArrivals 5) :=
    .cons ⟨rfl, rfl, rfl⟩ (.cons ⟨rfl, rfl, rfl⟩ .nil)
  exact absurd (h (-25) _ _ hshift).2 (by decide)

end Rperf3
