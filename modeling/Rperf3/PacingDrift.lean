import Rperf3.Library.Lts
import Rperf3.ServerPacing
import Mathlib.Algebra.Order.Archimedean.Basic
import Mathlib.Algebra.Order.Floor.Semifield
import Mathlib.Data.Rat.Floor
import Mathlib.Tactic.Linarith
import Mathlib.Tactic.Positivity

/-!
# Drift of the bandwidth limit (`server.rs:929-965`, `1174-1205`)

The limiter of `send_data` and `send_udp_data` in exact time, with a sleep that
lasts as long as it was asked to. A check compares the bytes since the last check
with the time since then and forgets both, also where it finds the sender ahead by
no more than a tenth of a millisecond and does not sleep. Below 10000 bytes per
second a single byte is worth a longer sleep, and nothing is forgotten.
-/

namespace Rperf3

/-- One iteration: the bytes written, the seconds until the check reads the clock, and the seconds
the iteration takes after that without its sleep. -/
structure Write where
  bytes : ℕ
  before : ℚ
  after : ℚ

/-- `sent` are all bytes since the loop began, `sinceWrite` the seconds since the last write that
were not slept. -/
structure LimiterState where
  clock : ℚ
  lastBandwidthCheck : ℚ
  totalBytesSent : ℕ
  sent : ℕ
  sinceWrite : ℚ

/-- The sleep of a bandwidth check, zero when there is none. -/
def sleepTime (targetBps : ℚ) (bytesSentInPeriod : ℕ) (elapsed : ℚ) : ℚ :=
  let expectedBytes := ⌊targetBps * elapsed⌋₊
  if bytesSentInPeriod > expectedBytes then
    let bytesAhead := ((bytesSentInPeriod - expectedBytes : ℕ) : ℚ)
    let sleepTime := bytesAhead / targetBps
    if sleepTime > 1 / 10000 then sleepTime else 0
  else 0

namespace LimiterState

def start : LimiterState := ⟨0, 0, 0, 0, 0⟩

def Due (s : LimiterState) (w : Write) : Prop :=
  s.clock + w.before - s.lastBandwidthCheck ≥ 1 / 1000

instance (s : LimiterState) (w : Write) : Decidable (s.Due w) := inferInstanceAs (Decidable (_ ≤ _))

def write (s : LimiterState) (targetBps : ℚ) (w : Write) : LimiterState :=
  let now := s.clock + w.before
  let total := s.totalBytesSent + w.bytes
  if s.Due w then
    let checked := now + sleepTime targetBps total (now - s.lastBandwidthCheck) + w.after
    ⟨checked, checked, 0, s.sent + w.bytes, w.after⟩
  else ⟨now + w.after, s.lastBandwidthCheck, total, s.sent + w.bytes, w.after⟩

/-- Writes of at most `maxWrite` bytes, less than two milliseconds apart. -/
def Permits (maxWrite : ℕ) (s : LimiterState) (w : Write) : Prop :=
  w.bytes ≤ maxWrite ∧ 0 ≤ w.before ∧ 0 ≤ w.after ∧ s.sinceWrite + w.before < 1 / 500

def Reachable (targetBps : ℚ) (maxWrite : ℕ) : LimiterState → Prop :=
  Lts.Reach (fun s w => some (s.write targetBps w)) (Permits maxWrite) start

/-- The bytes sent beyond the target for the time since the loop began. -/
def excess (s : LimiterState) (targetBps : ℚ) : ℚ := s.sent - targetBps * s.clock

end LimiterState

open LimiterState

/-- One bound holds for the excess after every bandwidth check of every run. -/
def NoDrift (targetBps : ℚ) (maxWrite : ℕ) : Prop :=
  ∃ bound : ℚ, ∀ s w, Reachable targetBps maxWrite s → s.Permits maxWrite w → s.Due w →
    (s.write targetBps w).excess targetBps ≤ bound

/-! ### The limiter of the server's loops -/

theorem floor_expected (r elapsed : ℕ) :
    ⌊(r : ℚ) * Duration.asSecsF64 elapsed⌋₊ = r * elapsed / 1000000000 := by
  have hquotient : (r : ℚ) * Duration.asSecsF64 elapsed = ((r * elapsed : ℕ) : ℚ) / 1000000000 := by
    unfold Duration.asSecsF64
    push_cast
    ring
  rw [hquotient]
  exact_mod_cast Nat.floor_div_eq_div (K := ℚ) (r * elapsed) 1000000000

theorem bandwidthSleep_eq {r elapsed : ℕ} (total : ℕ) (hr : 0 < r)
    (hrange : r * elapsed / 1000000000 < 2 ^ 64) :
    ∃ sleep, bandwidthSleep r total elapsed = .ok sleep ∧
      sleep.getD 0 = sleepTime r total (Duration.asSecsF64 elapsed) := by
  have hexpected : expectedBytes r elapsed = r * elapsed / 1000000000 := by
    unfold expectedBytes
    exact min_eq_left (by omega)
  unfold bandwidthSleep sleepTime
  simp only [hexpected, floor_expected, if_neg hr.ne']
  split
  · refine ⟨_, rfl, ?_⟩
    split <;> rfl
  · exact ⟨none, rfl, rfl⟩

/-- A limiter in exact time and the limiter of a loop that began at `start` have seen the same. -/
structure Follows (start : Instant) (p : PacingState) (s : LimiterState) : Prop where
  total : s.totalBytesSent = p.totalBytesSent.toNat
  lastCheck : s.lastBandwidthCheck + Duration.asSecsF64 start =
    Duration.asSecsF64 p.lastBandwidthCheck

/-- The write that a send of the loop is: the time between its two readings of the clock is the
sleep and what the iteration takes besides. -/
def writeOf (start : Instant) (r : ℕ) (p : PacingState) (s : LimiterState) (n : UInt64)
    (e : PacedEvent) : Write :=
  { bytes := n.toNat
    before := Duration.asSecsF64 e.check - Duration.asSecsF64 start - s.clock
    after := Duration.asSecsF64 e.checked - Duration.asSecsF64 e.check -
      sleepTime r (p.totalBytesSent + n).toNat
        (Duration.asSecsF64 (e.check - p.lastBandwidthCheck)) }

theorem asSecsF64_sub {a b : ℕ} (h : b ≤ a) :
    Duration.asSecsF64 (a - b) = Duration.asSecsF64 a - Duration.asSecsF64 b := by
  unfold Duration.asSecsF64
  rw [Nat.cast_sub h, sub_div]

theorem millisecond_le (d : ℕ) : Duration.asSecsF64 d ≥ 1 / 1000 ↔ d ≥ 1000000 := by
  unfold Duration.asSecsF64
  rw [ge_iff_le, le_div_iff₀ (by norm_num)]
  norm_num

theorem afterSend_follows {start : Instant} {pacing : Pacing} {p p' : PacingState}
    {s : LimiterState} {n : UInt64} {e : PacedEvent} {r : ℕ} (h : Follows start p s)
    (hsend : p.afterSend pacing n e = .ok p') (htarget : pacing.targetBytesPerSec = some r)
    (hr : 0 < r) (hclock : p.lastBandwidthCheck ≤ e.check)
    (htotal : p.totalBytesSent.toNat + n.toNat < 2 ^ 64)
    (hrange : r * (e.check - p.lastBandwidthCheck) / 1000000000 < 2 ^ 64) :
    Follows start p' (s.write r (writeOf start r p s n e)) := by
  have hsum : (p.totalBytesSent + n).toNat = p.totalBytesSent.toNat + n.toNat := by
    rw [UInt64.toNat_add, Nat.mod_eq_of_lt htotal]
  have hnow : s.clock + (writeOf start r p s n e).before - s.lastBandwidthCheck =
      Duration.asSecsF64 (e.check - p.lastBandwidthCheck) := by
    have hlast := h.lastCheck
    rw [asSecsF64_sub hclock, ← hlast]
    simp only [writeOf]
    ring
  have hdue : s.Due (writeOf start r p s n e) ↔ e.check - p.lastBandwidthCheck ≥ 1000000 := by
    unfold LimiterState.Due
    rw [hnow]
    exact millisecond_le _
  unfold PacingState.afterSend at hsend
  cases hnext : nextSequence pacing p.sequence with
  | error fault => exact nomatch (hnext ▸ hsend)
  | ok sequence =>
    rw [hnext] at hsend
    simp only [PacingState.checkBandwidth, htarget] at hsend
    by_cases hcheck : e.check - p.lastBandwidthCheck ≥ 1000000
    · obtain ⟨sleep, hsleep, -⟩ := bandwidthSleep_eq (p.totalBytesSent + n).toNat hr hrange
      rw [if_pos hcheck, hsleep] at hsend
      obtain rfl := Except.ok.inj hsend
      unfold LimiterState.write
      rw [if_pos (hdue.mpr hcheck)]
      constructor
      · rfl
      · simp only [hnow]
        simp only [writeOf, h.total, hsum]
        ring
    · rw [if_neg hcheck] at hsend
      obtain rfl := Except.ok.inj hsend
      unfold LimiterState.write
      rw [if_neg (mt hdue.mp hcheck)]
      exact ⟨by simp only [h.total, hsum, writeOf], h.lastCheck⟩

/-! ### Where nothing is forgotten -/

section Bounded

variable {R : ℚ} {M : ℕ}

/-- The time up to the check and the sleep are enough for the bytes of the period. -/
theorem sleep_covers (hR : 0 < R) {total : ℕ} {elapsed : ℚ} (helapsed : 0 ≤ elapsed)
    (h : R < 10000 ∨ total = 0) : (total : ℚ) ≤ R * (elapsed + sleepTime R total elapsed) := by
  have hexpected : (⌊R * elapsed⌋₊ : ℚ) ≤ R * elapsed := Nat.floor_le (by positivity)
  unfold sleepTime
  by_cases hahead : total > ⌊R * elapsed⌋₊
  · have hslow : R < 10000 := h.resolve_right (by omega)
    have hone : (1 : ℚ) ≤ (total - ⌊R * elapsed⌋₊ : ℕ) := by exact_mod_cast Nat.sub_pos_of_lt hahead
    have hlong : ((total - ⌊R * elapsed⌋₊ : ℕ) : ℚ) / R > 1 / 10000 := by
      rw [gt_iff_lt, lt_div_iff₀ hR]
      linarith
    simp only [if_pos hahead, if_pos hlong]
    rw [mul_add, mul_div_cancel₀ _ hR.ne', Nat.cast_sub hahead.le]
    linarith
  · have hle : (total : ℚ) ≤ ⌊R * elapsed⌋₊ := by exact_mod_cast Nat.le_of_not_lt hahead
    simp only [if_neg hahead, add_zero]
    exact hle.trans hexpected

/-- The bytes before the last check were paid for by the time up to it. -/
structure Paid (R : ℚ) (M : ℕ) (s : LimiterState) : Prop where
  covered : (s.sent : ℚ) ≤ s.totalBytesSent + R * s.lastBandwidthCheck
  empty : M = 0 → s.totalBytesSent = 0

theorem paid_write (hR : 0 < R) (hM : R < 10000 ∨ M = 0) {s : LimiterState} {w : Write}
    (h : Paid R M s) (hw : s.Permits M w) :
    Paid R M (s.write R w) ∧ (s.Due w → (s.write R w).excess R ≤ 0) := by
  obtain ⟨hbytes, -, hafter, -⟩ := hw
  have hempty : M = 0 → s.totalBytesSent + w.bytes = 0 := by
    intro hzero
    have htotal := h.empty hzero
    omega
  have hcovered := h.covered
  unfold LimiterState.write LimiterState.excess
  by_cases hdue : s.Due w
  · have helapsed : 0 ≤ s.clock + w.before - s.lastBandwidthCheck := by
      refine le_trans ?_ hdue
      norm_num
    have hcovers := sleep_covers hR helapsed (hM.imp_right hempty)
    have hrest : 0 ≤ R * w.after := by positivity
    push_cast at hcovers
    simp only [if_pos hdue]
    refine ⟨⟨?_, fun _ => rfl⟩, fun _ => ?_⟩
    · push_cast
      linarith
    · push_cast
      linarith
  · simp only [if_neg hdue]
    refine ⟨⟨?_, hempty⟩, fun h => absurd h hdue⟩
    push_cast
    linarith

theorem noDrift_of_slow (hR : 0 < R) (hM : R < 10000 ∨ M = 0) : NoDrift R M := by
  refine ⟨0, fun s w hreach hw hdue => ?_⟩
  have hpaid : Paid R M s := by
    refine hreach.invariant ⟨?_, fun _ => rfl⟩ fun s w s' hs hw hstep => ?_
    · simp [LimiterState.start]
    · obtain rfl := Option.some.inj hstep
      exact (paid_write hR hM hs hw).1
  exact (paid_write hR hM hpaid hw).2 hdue

end Bounded

/-! ### Where the excess grows -/

section Growth

variable {R : ℚ} {M : ℕ}

structure Fresh (s : LimiterState) : Prop where
  clock : s.lastBandwidthCheck = s.clock
  total : s.totalBytesSent = 0
  since : s.sinceWrite = 0

/-- From every check the sender reaches another one with `gain` bytes more of excess. -/
def Gains (R : ℚ) (M : ℕ) (gain : ℚ) : Prop :=
  ∀ s, LimiterState.Reachable R M s → Fresh s →
    ∃ s' w, LimiterState.Reachable R M s' ∧ s'.Permits M w ∧ s'.Due w ∧ Fresh (s'.write R w) ∧
      (s'.write R w).excess R = s.excess R + gain

theorem excess_after {gain : ℚ} (hgains : Gains R M gain) (n : ℕ) :
    ∃ s w, LimiterState.Reachable R M s ∧ s.Permits M w ∧ s.Due w ∧ Fresh (s.write R w) ∧
      (s.write R w).excess R = (n + 1) * gain := by
  induction n with
  | zero =>
    obtain ⟨s, w, hreach, hw, hdue, hfresh, hexcess⟩ := hgains _ .start ⟨rfl, rfl, rfl⟩
    refine ⟨s, w, hreach, hw, hdue, hfresh, hexcess.trans ?_⟩
    simp [LimiterState.start, LimiterState.excess]
  | succ n ih =>
    obtain ⟨s, w, hreach, hw, -, hfresh, hexcess⟩ := ih
    obtain ⟨s', w', hreach', hw', hdue', hfresh', hexcess'⟩ :=
      hgains _ (hreach.next hw rfl) hfresh
    refine ⟨s', w', hreach', hw', hdue', hfresh', hexcess'.trans ?_⟩
    rw [hexcess]
    push_cast
    ring

theorem drifts_of_gain {gain : ℚ} (hpos : 0 < gain) (hgains : Gains R M gain) :
    ¬ NoDrift R M := by
  rintro ⟨bound, hbound⟩
  obtain ⟨n, hn⟩ := exists_nat_gt (bound / gain)
  obtain ⟨s, w, hreach, hw, hdue, -, hexcess⟩ := excess_after hgains n
  have hle := hbound s w hreach hw hdue
  rw [div_lt_iff₀ hpos] at hn
  rw [hexcess] at hle
  linarith

/-- A write one millisecond after the last check for which the check does not sleep. -/
theorem write_silent {s : LimiterState} {bytes : ℕ} (hlast : s.lastBandwidthCheck = s.clock)
    (hsilent : sleepTime R (s.totalBytesSent + bytes) (1 / 1000) = 0) :
    s.Due ⟨bytes, 1 / 1000, 0⟩ ∧ Fresh (s.write R ⟨bytes, 1 / 1000, 0⟩) ∧
      (s.write R ⟨bytes, 1 / 1000, 0⟩).excess R = s.excess R + (bytes - R * (1 / 1000)) := by
  have helapsed : s.clock + 1 / 1000 - s.lastBandwidthCheck = 1 / 1000 := by
    rw [hlast]
    ring
  have hdue : s.Due ⟨bytes, 1 / 1000, 0⟩ := helapsed.ge
  unfold LimiterState.write LimiterState.excess
  simp only [if_pos hdue, helapsed, hsilent]
  refine ⟨hdue, ⟨rfl, rfl, rfl⟩, ?_⟩
  push_cast
  ring

theorem reachable_bytes {s : LimiterState} (hM : 1 ≤ M) (hreach : LimiterState.Reachable R M s)
    (hfresh : Fresh s) (k : ℕ) :
    LimiterState.Reachable R M { s with totalBytesSent := k, sent := s.sent + k } := by
  induction k with
  | zero =>
    have htotal := hfresh.total
    cases s
    cases htotal
    exact hreach
  | succ k ih =>
    refine ih.next (a := ⟨1, 0, 0⟩) ⟨hM, le_rfl, le_rfl, ?_⟩ ?_
    · simp [hfresh.since]
    · have hnot : ¬ LimiterState.Due { s with totalBytesSent := k, sent := s.sent + k }
          ⟨1, 0, 0⟩ := by
        simp only [LimiterState.Due, hfresh.clock, add_zero, sub_self]
        norm_num
      rw [LimiterState.write, if_neg hnot]
      simp [Nat.add_assoc, hfresh.since]

/-- A byte more than the target of a millisecond is forgotten. -/
theorem sleepTime_byte (hR : 10000 ≤ R) :
    sleepTime R (⌊R * (1 / 1000)⌋₊ + 1) (1 / 1000) = 0 := by
  have hpos : 0 < R := by linarith
  have hahead : ⌊R * (1 / 1000)⌋₊ + 1 - ⌊R * (1 / 1000)⌋₊ = 1 := Nat.add_sub_cancel_left ..
  have hshort : ¬ ((1 : ℕ) : ℚ) / R > 1 / 10000 := by
    rw [Nat.cast_one, gt_iff_lt, not_lt]
    exact one_div_le_one_div_of_le (by norm_num) hR
  unfold sleepTime
  simp only [gt_iff_lt, Nat.lt_succ_self, if_true, hahead]
  exact if_neg hshort

theorem gains_byte (hR : 10000 ≤ R) (hM : 1 ≤ M) :
    Gains R M ((⌊R * (1 / 1000)⌋₊ + 1 : ℕ) - R * (1 / 1000)) := by
  intro s hreach hfresh
  have hbytes := reachable_bytes hM hreach hfresh ⌊R * (1 / 1000)⌋₊
  obtain ⟨hdue, hfresh', hexcess⟩ := write_silent (R := R)
    (s := { s with
      totalBytesSent := ⌊R * (1 / 1000)⌋₊
      sent := s.sent + ⌊R * (1 / 1000)⌋₊ })
    hfresh.clock (sleepTime_byte hR)
  refine ⟨_, _, hbytes, ⟨hM, by norm_num, le_rfl, ?_⟩, hdue, hfresh', hexcess.trans ?_⟩
  · simp only [hfresh.since]
    norm_num
  · unfold LimiterState.excess
    push_cast
    ring

theorem drifts_of_fast (hR : 10000 ≤ R) (hM : 1 ≤ M) : ¬ NoDrift R M := by
  have hfloor := Nat.lt_floor_add_one (R * (1 / 1000))
  refine drifts_of_gain ?_ (gains_byte hR hM)
  push_cast
  linarith

end Growth

theorem noDrift_iff {R : ℚ} (hR : 0 < R) (M : ℕ) : NoDrift R M ↔ R < 10000 ∨ M = 0 := by
  constructor
  · intro h
    by_contra hfast
    rw [not_or, not_lt] at hfast
    exact drifts_of_fast hfast.1 (Nat.pos_of_ne_zero hfast.2) h
  · exact noDrift_of_slow hR

theorem noDrift_slow : NoDrift 9999 131072 := (noDrift_iff (by norm_num) 131072).mpr (by norm_num)

theorem gains_hundredMegabit : Gains 12500000 131072 1250 := by
  intro s hreach hfresh
  have hsilent : sleepTime 12500000 (s.totalBytesSent + 13750) (1 / 1000) = 0 := by
    rw [hfresh.total]
    norm_num [sleepTime]
  obtain ⟨hdue, hfresh', hexcess⟩ := write_silent hfresh.clock hsilent
  refine ⟨s, _, hreach, ⟨by norm_num, by norm_num, le_rfl, ?_⟩, hdue, hfresh', ?_⟩
  · rw [hfresh.since]
    norm_num
  · rw [hexcess]
    norm_num

/-- At 100 Mbit/s, writes of 13750 bytes a millisecond apart stay 1250 bytes ahead each time. -/
theorem noDrift_hundredMegabit :
    ¬ ∀ (targetBps : ℚ) (maxWrite : ℕ), 0 < targetBps → NoDrift targetBps maxWrite := by
  intro h
  exact drifts_of_gain (by norm_num) gains_hundredMegabit (h 12500000 131072 (by norm_num))

end Rperf3
