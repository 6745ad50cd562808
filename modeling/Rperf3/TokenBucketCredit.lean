import Rperf3.TokenBucket
import Mathlib.Algebra.BigOperators.Group.List.Basic

/-!
# The credit a schedule of refills accrues (`token_bucket.rs:148-166`)

A time is split into waits, with a refill after each. A refill that adds tokens
restarts the clock of the bucket: the fraction of a token and the nanoseconds
beyond the last whole microsecond are given up. `shortfall` adds up what a schedule
gives up, and with it the tokens added are exact (`refills_spec`).
-/

namespace Rperf3

/-- The tokens of a time: the rate times its whole microseconds. -/
def credit (bytesPerSec : ℕ) (elapsed : Duration) : ℕ := elapsed / 1000 * bytesPerSec / 1000000

namespace TokenBucket

/-- A refill after each of the waits, the clock standing at `clock`. -/
def refills (b : TokenBucket) (clock : Instant) : List Duration → TokenBucket
  | [] => b
  | wait :: waits => (b.refill (clock + wait)).refills (clock + wait) waits

end TokenBucket

/-- Millionths of a token, and nanoseconds that belong to no whole microsecond of a refill. -/
structure Shortfall where
  millionths : ℕ
  nanos : ℕ

/-- What refills after the waits give up, with the time left over at the end; `pending` is the
time since tokens were last added. -/
def shortfall (bytesPerSec : ℕ) (pending : Duration) : List Duration → Shortfall
  | [] => ⟨0, pending⟩
  | wait :: waits =>
    let elapsed := pending + wait
    if 1000000 ≤ elapsed / 1000 * bytesPerSec then
      let rest := shortfall bytesPerSec 0 waits
      ⟨elapsed / 1000 * bytesPerSec % 1000000 + rest.millionths, elapsed % 1000 + rest.nanos⟩
    else shortfall bytesPerSec elapsed waits

/-- In millionths of a token: the nanoseconds count as far as they make up microseconds. -/
def Shortfall.total (s : Shortfall) (bytesPerSec : ℕ) : ℕ :=
  s.millionths + s.nanos / 1000 * bytesPerSec

namespace TokenBucket

/-- A bucket of `i64` fields that a time neither fills nor overflows. -/
structure Admits (b : TokenBucket) (elapsed : ℕ) : Prop where
  nanos : elapsed < 2 ^ 64
  product : elapsed / 1000 * b.bytesPerSec < 2 ^ 64
  tokens_lower : -2 ^ 63 ≤ b.tokens
  capacity_lt : b.capacity < 2 ^ 63
  room : b.tokens + credit b.bytesPerSec elapsed ≤ b.capacity

/-- The tokens that refills after the waits add differ by at most one from the credit of their
time. -/
def KeepsCredit (b : TokenBucket) (waits : List Duration) : Prop :=
  |(b.refills b.lastRefill waits).tokens - b.tokens - credit b.bytesPerSec waits.sum| ≤ 1

end TokenBucket

/-! ### One refill -/

theorem tokensToAdd_eq {r elapsed : ℕ} (hnanos : elapsed < 2 ^ 64)
    (hproduct : elapsed / 1000 * r < 2 ^ 64) :
    TokenBucket.tokensToAdd r elapsed = credit r elapsed := by
  have hmicros : elapsed / 1000 < 2 ^ 64 := lt_of_le_of_lt (Nat.div_le_self ..) hnanos
  unfold TokenBucket.tokensToAdd credit
  rw [Nat.mod_eq_of_lt hnanos, Nat.mod_eq_of_lt hmicros, Nat.mod_eq_of_lt hproduct]
  by_cases hzero : elapsed > 0
  · rw [if_pos hzero]
  · have hnone : elapsed = 0 := by omega
    rw [if_neg hzero, hnone, Nat.zero_div, Nat.zero_mul, Nat.zero_div]

namespace TokenBucket

variable {b : TokenBucket} {elapsed : ℕ}

theorem refill_of_credit (h : b.Admits elapsed)
    (hpositive : 1000000 ≤ elapsed / 1000 * b.bytesPerSec) :
    b.refill (b.lastRefill + elapsed) =
      { b with
        tokens := b.tokens + credit b.bytesPerSec elapsed
        lastRefill := b.lastRefill + elapsed } := by
  have hadd := tokensToAdd_eq h.nanos h.product
  have hpos : credit b.bytesPerSec elapsed > 0 := Nat.div_pos hpositive (by norm_num)
  have hlt := tokensToAdd_lt b.bytesPerSec elapsed
  rw [hadd] at hlt
  have hlower := h.tokens_lower
  have hcapacity := h.capacity_lt
  have hroom := h.room
  have hcast : asI64 (credit b.bytesPerSec elapsed : ℤ) = credit b.bytesPerSec elapsed :=
    asI64_eq (by omega) (by omega)
  have hsum : asI64 (b.tokens + credit b.bytesPerSec elapsed) =
      b.tokens + credit b.bytesPerSec elapsed := asI64_eq (by omega) (by omega)
  unfold refill
  rw [Nat.add_sub_cancel_left, hadd]
  simp only [if_pos hpos, hcast, hsum, min_eq_left hroom]

theorem refill_of_no_credit (h : b.Admits elapsed)
    (hnone : ¬ 1000000 ≤ elapsed / 1000 * b.bytesPerSec) :
    b.refill (b.lastRefill + elapsed) = b := by
  have hadd := tokensToAdd_eq h.nanos h.product
  have hzero : credit b.bytesPerSec elapsed = 0 := Nat.div_eq_of_lt (by omega)
  unfold refill
  rw [Nat.add_sub_cancel_left, hadd, hzero]
  rfl

end TokenBucket

/-! ### A schedule -/

theorem credit_mono (r : ℕ) {d e : ℕ} (h : d ≤ e) : credit r d ≤ credit r e :=
  Nat.div_le_div_right (Nat.mul_le_mul_right r (Nat.div_le_div_right h))

theorem credit_add_le (r d e : ℕ) : credit r d + credit r e ≤ credit r (d + e) := by
  have hmicros : d / 1000 + e / 1000 ≤ (d + e) / 1000 := by omega
  have hproduct : d / 1000 * r + e / 1000 * r ≤ (d + e) / 1000 * r := by
    rw [← Nat.add_mul]
    exact Nat.mul_le_mul_right r hmicros
  unfold credit
  omega

namespace TokenBucket.Admits

variable {b : TokenBucket} {d e : ℕ}

theorem first (h : b.Admits (d + e)) : b.Admits d := by
  have hle : d ≤ d + e := Nat.le_add_right ..
  have hcredit := credit_mono b.bytesPerSec hle
  have hroom := h.room
  exact
    { nanos := lt_of_le_of_lt hle h.nanos
      product := lt_of_le_of_lt (Nat.mul_le_mul_right _ (Nat.div_le_div_right hle)) h.product
      tokens_lower := h.tokens_lower
      capacity_lt := h.capacity_lt
      room := by omega }

theorem rest (h : b.Admits (d + e)) :
    TokenBucket.Admits
      { b with
        tokens := b.tokens + credit b.bytesPerSec d
        lastRefill := b.lastRefill + d } e := by
  have hle : e ≤ d + e := Nat.le_add_left ..
  have hcredit := credit_add_le b.bytesPerSec d e
  have hroom := h.room
  have hlower := h.tokens_lower
  exact
    { nanos := lt_of_le_of_lt hle h.nanos
      product := lt_of_le_of_lt (Nat.mul_le_mul_right _ (Nat.div_le_div_right hle)) h.product
      tokens_lower := by simp only; omega
      capacity_lt := h.capacity_lt
      room := by simp only; omega }

end TokenBucket.Admits

/-- The tokens that refills after the waits add, and the microseconds they add them for. -/
theorem refills_spec (waits : List ℕ) :
    ∀ (b : TokenBucket) (pending : ℕ), b.Admits (pending + waits.sum) →
      ∃ added micros : ℕ,
        (b.refills (b.lastRefill + pending) waits).tokens = b.tokens + added ∧
        1000000 * added + (shortfall b.bytesPerSec pending waits).millionths =
          micros * b.bytesPerSec ∧
        pending + waits.sum =
          1000 * micros + (shortfall b.bytesPerSec pending waits).nanos := by
  induction waits with
  | nil =>
    intro b pending _
    exact ⟨0, 0, by simp [TokenBucket.refills], by simp [shortfall], by simp [shortfall]⟩
  | cons wait waits ih =>
    intro b pending h
    rw [List.sum_cons, ← Nat.add_assoc] at h ⊢
    unfold TokenBucket.refills shortfall
    rw [Nat.add_assoc b.lastRefill pending wait]
    generalize pending + wait = elapsed at *
    by_cases hpositive : 1000000 ≤ elapsed / 1000 * b.bytesPerSec
    · rw [TokenBucket.refill_of_credit h.first hpositive, if_pos hpositive]
      -- the clock of the bucket starts again with nothing pending
      obtain ⟨added, micros, hadded, hmillionths, hmicros⟩ :=
        ih _ 0 (by rw [Nat.zero_add]; exact h.rest)
      simp only [Nat.zero_add, Nat.add_zero] at hadded hmillionths hmicros
      refine ⟨credit b.bytesPerSec elapsed + added, elapsed / 1000 + micros, ?_, ?_, ?_⟩
      · rw [hadded, Nat.cast_add, Int.add_assoc]
      · rw [Nat.add_mul, ← hmillionths]
        unfold credit
        simp only
        omega
      · simp only
        omega
    · rw [TokenBucket.refill_of_no_credit h.first hpositive, if_neg hpositive]
      exact ih b elapsed h

/-- The tokens added fall short of the credit of the whole time by the whole tokens given up. -/
theorem refills_shortfall {b : TokenBucket} {waits : List ℕ} (h : b.Admits waits.sum) :
    (b.refills b.lastRefill waits).tokens - b.tokens +
        ((shortfall b.bytesPerSec 0 waits).total b.bytesPerSec / 1000000 : ℕ) =
      credit b.bytesPerSec waits.sum := by
  obtain ⟨added, micros, hadded, hmillionths, hmicros⟩ :=
    refills_spec waits b 0 (by rwa [Nat.zero_add])
  rw [Nat.add_zero] at hadded
  rw [Nat.zero_add] at hmicros
  have hwhole : waits.sum / 1000 = micros + (shortfall b.bytesPerSec 0 waits).nanos / 1000 := by
    omega
  have hcredit : waits.sum / 1000 * b.bytesPerSec =
      1000000 * added + (shortfall b.bytesPerSec 0 waits).total b.bytesPerSec := by
    rw [hwhole, Nat.add_mul, ← hmillionths, Shortfall.total, Nat.add_assoc]
  rw [hadded, credit, hcredit]
  omega

/-- A rate of nothing gives up nothing. -/
theorem millionths_zero_rate (waits : List ℕ) :
    ∀ pending : ℕ, (shortfall 0 pending waits).millionths = 0 := by
  induction waits with
  | nil => exact fun _ => rfl
  | cons wait waits ih =>
    intro pending
    have hnone : ¬ 1000000 ≤ 0 := by decide
    rw [shortfall, Nat.mul_zero, if_neg hnone]
    exact ih _

/-- Whole megabytes per second and refills on whole microseconds give up nothing. -/
theorem shortfall_wholeMicros {r : ℕ} (hrate : 1000000 ∣ r) {waits : List ℕ}
    (hmicros : ∀ wait ∈ waits, 1000 ∣ wait) : (shortfall r 0 waits).total r = 0 := by
  obtain ⟨k, rfl⟩ := hrate
  rcases Nat.eq_zero_or_pos k with rfl | hk
  · rw [Nat.mul_zero, Shortfall.total, millionths_zero_rate, Nat.mul_zero]
  induction waits with
  | nil => simp [shortfall, Shortfall.total]
  | cons wait waits ih =>
    obtain ⟨m, rfl⟩ := hmicros wait (List.mem_cons_self ..)
    have hrest := ih fun w hw => hmicros w (List.mem_cons_of_mem _ hw)
    have hwhole : 1000 * m / 1000 = m := by omega
    have hnanos : 1000 * m % 1000 = 0 := by omega
    unfold shortfall
    simp only [Nat.zero_add, hwhole, hnanos]
    rcases Nat.eq_zero_or_pos m with rfl | hm
    · have hnone : ¬ 1000000 ≤ 0 := by decide
      rw [Nat.zero_mul, if_neg hnone, Nat.mul_zero]
      exact hrest
    · have hadds : 1000000 ≤ m * (1000000 * k) := by nlinarith
      have hexact : m * (1000000 * k) % 1000000 = 0 := by
        rw [Nat.mul_left_comm]
        exact Nat.mul_mod_right ..
      rw [if_pos hadds, hexact]
      simp only [Nat.zero_add]
      exact hrest

/-- A single refill gives up less than two tokens. -/
theorem shortfall_single (r wait : ℕ) : (shortfall r 0 [wait]).total r < 2000000 := by
  simp only [shortfall, Nat.zero_add]
  by_cases hadds : 1000000 ≤ wait / 1000 * r
  · have hnanos : wait % 1000 / 1000 = 0 := by omega
    rw [if_pos hadds]
    simp only [Shortfall.total, Nat.add_zero, hnanos, Nat.zero_mul]
    omega
  · rw [if_neg hadds]
    simp only [Shortfall.total]
    omega

/-- A schedule keeps the credit of its time if it gives up less than two tokens. -/
theorem keepsCredit_iff {b : TokenBucket} {waits : List ℕ} (h : b.Admits waits.sum) :
    b.KeepsCredit waits ↔ (shortfall b.bytesPerSec 0 waits).total b.bytesPerSec < 2000000 := by
  have hshort := refills_shortfall h
  unfold TokenBucket.KeepsCredit
  rw [← hshort, abs_le]
  omega

def emptyBucket (bytesPerSec : ℕ) : TokenBucket :=
  { TokenBucket.new bytesPerSec 0 with tokens := 0 }

theorem keepsCredit_megabyte : (emptyBucket 1000000).KeepsCredit [1500, 700, 2900] :=
  (keepsCredit_iff ⟨by decide, by decide, by decide, by decide, by decide⟩).mpr (by decide)

/-- At 100 Mbit/s a microsecond is worth 12.5 tokens, of which a refill adds 12. -/
theorem keepsCredit_hundredMegabit :
    ¬ ∀ (b : TokenBucket) (waits : List ℕ), 1 ≤ b.bytesPerSec → b.Admits waits.sum →
      b.KeepsCredit waits := by
  intro h
  have hfour := h (emptyBucket 12500000) [1000, 1000, 1000, 1000] (by decide)
    ⟨by decide, by decide, by decide, by decide, by decide⟩
  exact absurd hfour (by unfold TokenBucket.KeepsCredit; decide)

end Rperf3
