import Rperf3.Library.Smoothing
import Rperf3.OneWayClient
import Rperf3.UdpJitter
import Mathlib.Algebra.Order.BigOperators.Group.List

/-!
# The jitter of one-way receive mode (`client.rs:2254-2287`)

`recv_one_way` feeds its filter with the time from one arrival to the next, where
`record_udp_packet_received` feeds its own with the change of the transit time. On
evenly spaced datagrams that one stays at zero, and this one climbs towards the gap.
-/

namespace Rperf3

/-! ### The samples of a run -/

def jitterStep (currJitter transit : F64) : F64 := currJitter + |transit - currJitter| / 16

def arrivalTimes (start : Instant) (duration : Duration) : List OneWayRecvTick → List Instant
  | [] => []
  | tick :: ticks =>
    if tick.now - start < duration then
      match tick.recv with
      | .ok _ => tick.arrival :: arrivalTimes start duration ticks
      | .error _ => []
    else []

def OneWayRecvRun.arrivals (r : OneWayRecvRun) : List Instant :=
  arrivalTimes r.start r.duration r.ticks

def spacings (arrivals : List Instant) : List F64 :=
  List.zipWith (fun prev now => Duration.asSecsF64 (now - prev)) arrivals arrivals.tail

theorem onDatagram_jitter (st : OneWayRecvState) (buf : Bytes) (now : Instant) :
    (st.onDatagram buf now).lastArrivalTime = some now ∧
      (st.onDatagram buf now).jitterSamples =
        match st.lastArrivalTime with
        | none => st.jitterSamples
        | some prev =>
          st.jitterSamples ++
            [jitterStep (st.jitterSamples.getLastD 0) (Duration.asSecsF64 (now - prev))] := by
  unfold OneWayRecvState.onDatagram OneWayRecvState.onArrival
  by_cases hseq : buf.length ≥ 4
  · simp only [if_pos hseq]
    cases st.lastArrivalTime with
    | none => exact ⟨rfl, rfl⟩
    | some prev => exact ⟨rfl, rfl⟩
  · simp only [if_neg hseq]
    cases st.lastArrivalTime with
    | none => exact ⟨rfl, rfl⟩
    | some prev => exact ⟨rfl, rfl⟩

theorem samples_of_last {start : Instant} {duration : Duration} {bufferSize : ℕ}
    {st : OneWayRecvState} {prev : Instant} (ticks : List OneWayRecvTick)
    (hlast : st.lastArrivalTime = some prev) :
    (oneWayRecvLoop start duration bufferSize st ticks).2.jitterSamples =
      st.jitterSamples ++ Smoothing.trace jitterStep (st.jitterSamples.getLastD 0)
        (spacings (prev :: arrivalTimes start duration ticks)) := by
  induction ticks generalizing st prev with
  | nil => exact (List.append_nil _).symm
  | cons tick ticks ih =>
    unfold oneWayRecvLoop arrivalTimes
    by_cases hnow : tick.now - start < duration
    · rw [if_pos hnow, if_pos hnow]
      cases hrecv : tick.recv with
      | error e => exact (List.append_nil _).symm
      | ok payload =>
        obtain ⟨hlast', hsamples⟩ := onDatagram_jitter st (payload.take bufferSize) tick.arrival
        simp only [hlast] at hsamples
        simp only [ih hlast', hsamples, List.getLastD_concat, List.append_assoc,
          List.singleton_append]
        rfl
    · rw [if_neg hnow, if_neg hnow]
      exact (List.append_nil _).symm

theorem samples_of_none (start : Instant) (duration : Duration) (bufferSize : ℕ)
    (ticks : List OneWayRecvTick) {st : OneWayRecvState} (hlast : st.lastArrivalTime = none)
    (hempty : st.jitterSamples = []) :
    (oneWayRecvLoop start duration bufferSize st ticks).2.jitterSamples =
      Smoothing.trace jitterStep 0 (spacings (arrivalTimes start duration ticks)) := by
  cases ticks with
  | nil => exact hempty
  | cons tick ticks =>
    unfold oneWayRecvLoop arrivalTimes
    by_cases hnow : tick.now - start < duration
    · rw [if_pos hnow, if_pos hnow]
      cases hrecv : tick.recv with
      | error e => exact hempty
      | ok payload =>
        obtain ⟨hlast', hsamples⟩ := onDatagram_jitter st (payload.take bufferSize) tick.arrival
        simp only [hlast, hempty] at hsamples
        simp only [samples_of_last ticks hlast', hsamples]
        rfl
    · rw [if_neg hnow, if_neg hnow]
      exact hempty

/-- The jitter of a run is the average of the filter run over the spacings of its arrivals. -/
theorem jitterMs_eq (r : OneWayRecvRun) :
    r.stats.jitterMs =
      averageJitterMs (Smoothing.trace jitterStep 0 (spacings r.arrivals)) := by
  have hlast : OneWayRecvState.new.lastArrivalTime = none := rfl
  rw [OneWayRecvRun.arrivals,
    ← samples_of_none r.start r.duration r.bufferSize r.ticks hlast rfl]
  rfl

/-! ### Even spacing -/

/-- Every arrival is `gap` seconds after the one before. -/
def EvenlySpaced (gap : F64) (arrivals : List Instant) : Prop :=
  arrivals.IsChain (fun prev now => Duration.asSecsF64 now = Duration.asSecsF64 prev + gap)

theorem spacing_eq {gap : F64} (hgap : 0 ≤ gap) {prev now : ℕ}
    (h : Duration.asSecsF64 now = Duration.asSecsF64 prev + gap) :
    Duration.asSecsF64 (now - prev) = gap := by
  unfold Duration.asSecsF64 at h ⊢
  have hle : (prev : ℚ) ≤ now := by linarith
  rw [Nat.cast_sub (Nat.cast_le.mp hle)]
  linarith

theorem spacings_even {gap : F64} (hgap : 0 ≤ gap) {arrivals : List Instant}
    (h : EvenlySpaced gap arrivals) :
    spacings arrivals = List.replicate (arrivals.length - 1) gap := by
  unfold EvenlySpaced at h
  induction arrivals with
  | nil => rfl
  | cons prev arrivals ih =>
    cases arrivals with
    | nil => rfl
    | cons now arrivals =>
      rw [List.isChain_cons_cons] at h
      have hrest := ih h.2
      rw [List.length_cons, Nat.add_sub_cancel] at hrest
      rw [List.length_cons, Nat.add_sub_cancel, List.length_cons, List.replicate_succ, ← hrest,
        ← spacing_eq hgap h.1]
      rfl

theorem jitterStep_toward (gap : F64) :
    ∀ a ≤ gap, jitterStep a gap = Smoothing.toward (1 / 16) a gap := by
  intro a ha
  rw [jitterStep, Smoothing.toward, abs_of_nonneg (sub_nonneg.mpr ha)]
  ring

/-- Every sample of a positive gap is positive. -/
theorem averageJitterMs_even (gap : F64) (hgap : 0 ≤ gap) (n : ℕ) :
    averageJitterMs (Smoothing.trace jitterStep 0 (List.replicate n gap)) = 0 ↔
      gap = 0 ∨ n = 0 := by
  have hstep := jitterStep_toward gap
  constructor
  · intro havg
    by_contra hcon
    obtain ⟨hne, hn⟩ := not_or.mp hcon
    have hpos : 0 < gap := lt_of_le_of_ne hgap (Ne.symm hne)
    have hlen := Smoothing.length_trace jitterStep 0 (List.replicate n gap)
    rw [List.length_replicate] at hlen
    have hsamples : Smoothing.trace jitterStep 0 (List.replicate n gap) ≠ [] := by
      rw [← List.length_pos_iff, hlen]
      exact Nat.pos_of_ne_zero hn
    have hsum := List.sum_pos _ (fun y hy =>
      Smoothing.lt_of_mem_trace (by norm_num) (by norm_num) hstep hpos hy) hsamples
    have hcount : (0 : ℚ) < n := Nat.cast_pos.mpr (Nat.pos_of_ne_zero hn)
    unfold averageJitterMs at havg
    rw [if_neg (by rwa [List.isEmpty_iff]), hlen] at havg
    have hquot := div_pos hsum hcount
    linarith
  · rintro (rfl | rfl)
    · rw [Smoothing.trace_self (by norm_num) hstep, averageJitterMs]
      split
      · rfl
      · rw [List.sum_replicate, nsmul_zero, zero_div, zero_mul]
    · rfl

theorem jitterMs_even {gap : F64} (hgap : 0 ≤ gap) {r : OneWayRecvRun} {stats : OneWayRecvStats}
    (hok : recvOneWay r = .ok stats) (heven : EvenlySpaced gap r.arrivals) :
    stats.jitterMs = 0 ↔ gap = 0 ∨ r.arrivals.length ≤ 1 := by
  rw [recvOneWay_stats hok, jitterMs_eq, spacings_even hgap heven, averageJitterMs_even gap hgap,
    Nat.sub_eq_zero_iff_le]

/-- The filter leaves zero at the first positive gap, and so does the jitter of a run. -/
theorem evenJitter_zero_iff (gap : F64) (hgap : 0 ≤ gap) :
    (∀ n, averageJitterMs (Smoothing.trace jitterStep 0 (List.replicate n gap)) = 0 ↔
      gap = 0 ∨ n = 0) ∧
    ∀ (r : OneWayRecvRun) (stats : OneWayRecvStats), recvOneWay r = .ok stats →
      EvenlySpaced gap r.arrivals →
      (stats.jitterMs = 0 ↔ gap = 0 ∨ r.arrivals.length ≤ 1) :=
  ⟨averageJitterMs_even gap hgap, fun _ _ hok heven => jitterMs_even hgap hok heven⟩

/-- The collector's filter is fed with zeros where this one is fed with the gap. -/
theorem jitterMs_of_sameTransit {as : List UdpArrival} (h : SameTransit as) :
    (MeasurementsCollector.new.recordArrivals as).udpState.jitterMs = 0 := by
  have hdeltas : ∀ delta ∈ MeasurementsCollector.new.transitDeltas as, delta = 0 := by
    intro delta hdelta
    rw [transitDeltas_new] at hdelta
    obtain ⟨i, hi, rfl⟩ := List.getElem_of_mem hdelta
    obtain ⟨hprevious, ha⟩ := lt_min_iff.mp (List.length_zipWith ▸ hi)
    rw [List.getElem_zipWith, collectorDelta, h _ (List.mem_of_mem_tail (List.getElem_mem ha)) _
      (List.getElem_mem hprevious), sub_self]
    rfl
  have hfilter : jitterFilter 0 0 = 0 := by norm_num [jitterFilter]
  rw [MeasurementsCollector.jitter_recordArrivals, List.eq_replicate_of_mem hdeltas]
  generalize (MeasurementsCollector.new.transitDeltas as).length = n
  have hnew : MeasurementsCollector.new.udpState.jitterMs = 0 := rfl
  induction n with
  | zero => exact hnew
  | succ n ih => rwa [List.replicate_succ, List.foldl_cons, hnew, hfilter, ← hnew]

/-- Empty datagrams, one every second. -/
def oncePerSecond (n : ℕ) : OneWayRecvRun :=
  { start := 0
    duration := 1
    expectedPps := none
    bufferSize := 1500
    ticks := (List.range n).map fun i => ⟨0, .ok [], i * 1000000000⟩
    finish := 1 }

theorem oncePerSecond_even : EvenlySpaced 1 (oncePerSecond 2).arrivals := by
  have harrivals : (oncePerSecond 2).arrivals = [0, 1000000000] := by decide
  rw [harrivals, EvenlySpaced, List.isChain_cons_cons]
  refine ⟨?_, List.isChain_singleton _⟩
  norm_num [Duration.asSecsF64]

theorem evenJitter_zero_iff_twoDatagrams :
    (oncePerSecond 2).stats.jitterMs = 0 ↔ (1 : F64) = 0 ∨ (oncePerSecond 2).arrivals.length ≤ 1 :=
  (evenJitter_zero_iff 1 zero_le_one).2 (oncePerSecond 2) _ rfl oncePerSecond_even

theorem evenJitter_not_zero :
    ¬ ∀ (gap : F64) (r : OneWayRecvRun) (stats : OneWayRecvStats), 0 ≤ gap →
      recvOneWay r = .ok stats → EvenlySpaced gap r.arrivals → stats.jitterMs = 0 := by
  intro h
  have hzero := h 1 (oncePerSecond 2) _ zero_le_one rfl oncePerSecond_even
  rcases (jitterMs_even zero_le_one rfl oncePerSecond_even).mp hzero with hgap | hlen
  · exact absurd hgap one_ne_zero
  · exact absurd hlen (by decide)

end Rperf3
