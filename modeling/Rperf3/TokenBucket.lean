import Rperf3.Library.Lts
import Rperf3.Primitive
import Mathlib.Tactic.Linarith
import Mathlib.Tactic.Ring
import Mathlib.Tactic.NormNum

/-!
# The token bucket (`token_bucket.rs`)

A sender consumes tokens before it sends. `consume` refills the bucket from the
clock, sleeps when tokens are missing, refills again and takes the tokens, whether
or not there are enough of them. The time per byte is a truncated quotient and
short sleeps are left out, so a call may leave a debt; a sleep repays at least
half of what is missing, less 1000 tokens (`sleep_repays_half`), so that debts do
not add up.
-/

namespace Rperf3

/-- The value of an integer as an `i64`, which wraps. -/
def asI64 (x : ℤ) : ℤ := Int.bmod x (2 ^ 64)

/-- The value of an integer as a `u64`, which wraps. -/
def asU64 (x : ℤ) : ℕ := (x % 2 ^ 64).toNat

theorem asI64_eq {x : ℤ} (hlo : -2 ^ 63 ≤ x) (hhi : x < 2 ^ 63) : asI64 x = x := by
  unfold asI64
  refine Int.bmod_eq_of_le ?_ ?_
  · norm_num
    omega
  · norm_num
    omega

theorem asU64_eq {n : ℕ} (h : n < 2 ^ 64) : asU64 n = n := by
  unfold asU64
  omega

/-- `TokenBucket` (`token_bucket.rs:43-54`). -/
structure TokenBucket where
  bytesPerSec : ℕ
  tokens : ℤ
  capacity : ℤ
  lastRefill : Instant
  nanosPerByte : ℕ
  deriving DecidableEq, Repr

namespace TokenBucket

def new (bytesPerSec : ℕ) (now : Instant) : TokenBucket :=
  let capacity := asI64 (max (bytesPerSec / 10) 8192 : ℕ)
  { bytesPerSec := bytesPerSec
    tokens := capacity
    capacity := capacity
    lastRefill := now
    nanosPerByte := if bytesPerSec > 0 then 1000000000 / bytesPerSec else 0 }

/-- `tokens_to_add` (`token_bucket.rs:153-159`) for an elapsed time: nanoseconds and microseconds
are cut to 64 bits, and so is their product with the rate. -/
def tokensToAdd (bytesPerSec : ℕ) (elapsed : Duration) : ℕ :=
  if elapsed % 2 ^ 64 > 0 then
    (elapsed / 1000 % 2 ^ 64 * bytesPerSec % 2 ^ 64) / 1000000
  else 0

/-- `refill` (`token_bucket.rs:148-166`). -/
def refill (b : TokenBucket) (now : Instant) : TokenBucket :=
  let tokensToAdd := tokensToAdd b.bytesPerSec (now - b.lastRefill)
  if tokensToAdd > 0 then
    { b with
      tokens := min (asI64 (b.tokens + asI64 tokensToAdd)) b.capacity
      lastRefill := now }
  else b

/-- The sleep asked for, if there is one (`token_bucket.rs:121-133`). -/
def sleepNanos (b : TokenBucket) (bytes : ℕ) : Option Duration :=
  if b.tokens < asI64 bytes then
    let tokensNeeded := asI64 bytes - b.tokens
    let sleepNanos := asU64 tokensNeeded * b.nanosPerByte % 2 ^ 64
    if sleepNanos > 10000 then some sleepNanos else none
  else none

def take (b : TokenBucket) (bytes : ℕ) : TokenBucket :=
  { b with tokens := asI64 (b.tokens - asI64 bytes) }

/-- `consume` (`token_bucket.rs:114-142`); `woke` is the clock reading after the sleep. -/
def consume (b : TokenBucket) (bytes : ℕ) (now woke : Instant) : TokenBucket :=
  let b := b.refill now
  (b.sleepNanos bytes).elim (b.take bytes) (fun _ => (b.refill woke).take bytes)

end TokenBucket

/-! ### Runs of a bucket -/

inductive BucketPhase where
  | idle
  | sleeping (bytes : ℕ) (wake : Instant)
  | ready (bytes : ℕ)
  deriving DecidableEq, Repr

def BucketPhase.wake : BucketPhase → Instant
  | .sleeping _ wake => wake
  | _ => 0

/-- A bucket in use; `clock` is the last reading of the clock, `consumed` what all calls of
`consume` have taken. -/
structure BucketRun where
  bucket : TokenBucket
  phase : BucketPhase
  clock : Instant
  consumed : ℕ
  deriving DecidableEq, Repr

inductive BucketEvent where
  | call (bytes : ℕ) (now : Instant)
  | wake (now : Instant)
  | take
  deriving DecidableEq, Repr

namespace BucketRun

def start (bytesPerSec : ℕ) (now : Instant) : BucketRun :=
  { bucket := TokenBucket.new bytesPerSec now
    phase := .idle
    clock := now
    consumed := 0 }

def step (s : BucketRun) : BucketEvent → Option BucketRun
  | .call bytes now =>
    match s.phase with
    | .idle =>
      let bucket := s.bucket.refill now
      some { s with
        bucket := bucket
        phase := (bucket.sleepNanos bytes).elim (.ready bytes)
          (fun nanos => .sleeping bytes (now + nanos))
        clock := now }
    | _ => none
  | .wake now =>
    match s.phase with
    | .sleeping bytes _ =>
      some { s with bucket := s.bucket.refill now, phase := .ready bytes, clock := now }
    | _ => none
  | .take =>
    match s.phase with
    | .ready bytes =>
      some { s with
        bucket := s.bucket.take bytes
        phase := .idle
        consumed := s.consumed + bytes }
    | _ => none

def events (s : BucketRun) (bytes : ℕ) (now woke : Instant) : List BucketEvent :=
  ((s.bucket.refill now).sleepNanos bytes).elim [.call bytes now, .take]
    (fun _ => [.call bytes now, .wake woke, .take])

theorem run_consume (s : BucketRun) (bytes : ℕ) (now woke : Instant) (h : s.phase = .idle) :
    ∃ s', Lts.run step (fun _ _ => True) s (s.events bytes now woke) = some s' ∧
      s'.bucket = s.bucket.consume bytes now woke ∧ s'.phase = .idle ∧
      s'.consumed = s.consumed + bytes := by
  unfold events TokenBucket.consume
  cases hsleep : (s.bucket.refill now).sleepNanos bytes with
  | some nanos =>
    refine ⟨{ bucket := ((s.bucket.refill now).refill woke).take bytes
              phase := .idle, clock := woke, consumed := s.consumed + bytes }, ?_, ?_, rfl, rfl⟩
    · simp only [Option.elim_some, Lts.run, step, h, hsleep, if_true, Option.bind_some]
    · simp only [hsleep, Option.elim_some]
  | none =>
    refine ⟨{ bucket := (s.bucket.refill now).take bytes
              phase := .idle, clock := now, consumed := s.consumed + bytes }, ?_, ?_, rfl, rfl⟩
    · simp only [Option.elim_none, Lts.run, step, h, hsleep, if_true, Option.bind_some]
    · simp only [hsleep, Option.elim_none]

/-- The clock does not go back and a sleep lasts at least the requested time. -/
def Timely (s : BucketRun) : BucketEvent → Prop
  | .call _ now => s.clock ≤ now
  | .wake now => s.clock ≤ now ∧ s.phase.wake ≤ now
  | .take => True

/-- `elapsed_micros * bytes_per_sec` stays below `2 ^ 64`. -/
def InRange (s : BucketRun) : BucketEvent → Prop
  | .call _ now | .wake now => (now - s.bucket.lastRefill) / 1000 * s.bucket.bytesPerSec < 2 ^ 64
  | .take => True

/-- The elapsed time, cut to 64 bits of nanoseconds, is zero only if no time has passed. -/
def NanosInRange (s : BucketRun) : BucketEvent → Prop
  | .call _ now | .wake now =>
    (now - s.bucket.lastRefill) % 2 ^ 64 = 0 → now - s.bucket.lastRefill = 0
  | .take => True

end BucketRun

def BucketEvent.AtMost (m : ℕ) : BucketEvent → Prop
  | .call bytes _ => bytes ≤ m
  | _ => True

namespace BucketRun

/-- Calls of at most `m` bytes, on a proper clock, without an overflow of the product. -/
def Permits (m : ℕ) (s : BucketRun) (e : BucketEvent) : Prop :=
  e.AtMost m ∧ s.Timely e ∧ s.InRange e

instance (m : ℕ) (s : BucketRun) : ∀ e, Decidable (s.Permits m e)
  | .call _ _ => inferInstanceAs (Decidable (_ ≤ _ ∧ _ ≤ _ ∧ _ < _))
  | .wake _ => inferInstanceAs (Decidable (True ∧ (_ ≤ _ ∧ _ ≤ _) ∧ _ < _))
  | .take => inferInstanceAs (Decidable (True ∧ True ∧ True))

instance (s : BucketRun) : ∀ e, Decidable (s.NanosInRange e)
  | .call _ _ | .wake _ => inferInstanceAs (Decidable (_ = _ → _ = _))
  | .take => inferInstanceAs (Decidable True)

end BucketRun

/-! ### Tokens for an elapsed time -/

section Tokens

variable {r elapsed : ℕ}

theorem tokensToAdd_le (r elapsed : ℕ) :
    1000000000 * TokenBucket.tokensToAdd r elapsed ≤ r * elapsed := by
  unfold TokenBucket.tokensToAdd
  split
  · have hmicros : elapsed / 1000 % 2 ^ 64 ≤ elapsed / 1000 := Nat.mod_le ..
    have hprod : elapsed / 1000 % 2 ^ 64 * r % 2 ^ 64 ≤ elapsed / 1000 * r :=
      (Nat.mod_le ..).trans (Nat.mul_le_mul_right r hmicros)
    have hthousand : 1000 * (elapsed / 1000) ≤ elapsed := Nat.mul_div_le ..
    calc 1000000000 * (elapsed / 1000 % 2 ^ 64 * r % 2 ^ 64 / 1000000)
        ≤ 1000 * (elapsed / 1000 % 2 ^ 64 * r % 2 ^ 64) := by
          generalize elapsed / 1000 % 2 ^ 64 * r % 2 ^ 64 = product
          omega
      _ ≤ 1000 * (elapsed / 1000 * r) := Nat.mul_le_mul_left 1000 hprod
      _ = 1000 * (elapsed / 1000) * r := (Nat.mul_assoc ..).symm
      _ ≤ elapsed * r := Nat.mul_le_mul_right r hthousand
      _ = r * elapsed := Nat.mul_comm ..
  · exact Nat.zero_le _

theorem tokensToAdd_lt (r : ℕ) (elapsed : Duration) :
    TokenBucket.tokensToAdd r elapsed < 2 ^ 45 := by
  unfold TokenBucket.tokensToAdd
  split
  · omega
  · omega

theorem le_tokensToAdd (hr : r ≤ 1000000000) (hrange : elapsed / 1000 * r < 2 ^ 64)
    (hnanos : elapsed % 2 ^ 64 = 0 → elapsed = 0) (hpos : 1 ≤ r) :
    r * elapsed ≤ 1000000000 * (TokenBucket.tokensToAdd r elapsed + 1000) := by
  by_cases hzero : elapsed = 0
  · rw [hzero, Nat.mul_zero]
    exact Nat.zero_le _
  · have hnonzero : elapsed % 2 ^ 64 > 0 := Nat.pos_of_ne_zero (mt hnanos hzero)
    have hmicros : elapsed / 1000 < 2 ^ 64 :=
      lt_of_le_of_lt (Nat.le_mul_of_pos_right _ hpos) hrange
    have hadd : TokenBucket.tokensToAdd r elapsed = elapsed / 1000 * r / 1000000 := by
      rw [TokenBucket.tokensToAdd, if_pos hnonzero, Nat.mod_eq_of_lt hmicros,
        Nat.mod_eq_of_lt hrange]
    have hrest : elapsed ≤ 1000 * (elapsed / 1000) + 999 := by omega
    rw [hadd]
    calc r * elapsed ≤ r * (1000 * (elapsed / 1000) + 999) := Nat.mul_le_mul_left r hrest
      _ = 1000 * (elapsed / 1000 * r) + 999 * r := by ring
      _ ≤ 1000000000 * (elapsed / 1000 * r / 1000000 + 1000) := by
        generalize elapsed / 1000 * r = product
        omega

theorem lt_two_mul_nanosPerByte (hpos : 1 ≤ r) (hr : r ≤ 1000000000) :
    1000000000 < 2 * (r * (1000000000 / r)) := by
  have hone : 1 ≤ 1000000000 / r := (Nat.one_le_div_iff hpos).mpr hr
  have hdiv : 1000000000 < r * (1000000000 / r + 1) := Nat.lt_mul_div_succ _ hpos
  have hstep : r * 1 ≤ r * (1000000000 / r) := Nat.mul_le_mul_left r hone
  rw [Nat.mul_add] at hdiv
  omega

/-- A sleep for the missing tokens brings at least half of them, less 1000. -/
theorem sleep_repays_half {needed added : ℕ} (hpos : 1 ≤ r) (hr : r ≤ 1000000000)
    (hslept : needed * (1000000000 / r) ≤ elapsed)
    (hadded : r * elapsed ≤ 1000000000 * (added + 1000)) : needed ≤ 2 * added + 2000 := by
  have hhalf := (lt_two_mul_nanosPerByte hpos hr).le
  have htime : needed * 1000000000 ≤ (2 * added + 2000) * 1000000000 :=
    calc needed * 1000000000 ≤ needed * (2 * (r * (1000000000 / r))) :=
        Nat.mul_le_mul_left needed hhalf
      _ = 2 * (r * (needed * (1000000000 / r))) := by ring
      _ ≤ 2 * (r * elapsed) := by gcongr
      _ ≤ 2 * (1000000000 * (added + 1000)) := Nat.mul_le_mul_left 2 hadded
      _ = (2 * added + 2000) * 1000000000 := by ring
  exact Nat.le_of_mul_le_mul_right htime (by norm_num)

end Tokens

/-! ### What a refill does -/

namespace TokenBucket

variable (b : TokenBucket) (now : Instant)

@[simp] theorem refill_bytesPerSec : (b.refill now).bytesPerSec = b.bytesPerSec := by
  unfold refill
  simp only
  split <;> rfl

@[simp] theorem refill_capacity : (b.refill now).capacity = b.capacity := by
  unfold refill
  simp only
  split <;> rfl

@[simp] theorem refill_nanosPerByte : (b.refill now).nanosPerByte = b.nanosPerByte := by
  unfold refill
  simp only
  split <;> rfl

variable {b now}

/-- A refill adds `added` tokens, at most those of the time it accounts for and at most 1000 short
of those of the time that has passed. -/
theorem refill_spec (hpos : 1 ≤ b.bytesPerSec) (hr : b.bytesPerSec ≤ 1000000000)
    (hle : b.tokens ≤ b.capacity) (hlo : -2 ^ 40 ≤ b.tokens) (hcap : b.capacity < 2 ^ 40)
    (hlast : b.lastRefill ≤ now)
    (hrange : (now - b.lastRefill) / 1000 * b.bytesPerSec < 2 ^ 64)
    (hnanos : (now - b.lastRefill) % 2 ^ 64 = 0 → now - b.lastRefill = 0) :
    ∃ added : ℕ, (b.refill now).tokens = min (b.tokens + added) b.capacity ∧
      b.lastRefill ≤ (b.refill now).lastRefill ∧ (b.refill now).lastRefill ≤ now ∧
      1000000000 * added ≤ b.bytesPerSec * ((b.refill now).lastRefill - b.lastRefill) ∧
      b.bytesPerSec * (now - b.lastRefill) ≤ 1000000000 * (added + 1000) := by
  refine ⟨tokensToAdd b.bytesPerSec (now - b.lastRefill), ?_, ?_, ?_, ?_,
    le_tokensToAdd hr hrange hnanos hpos⟩
  all_goals unfold refill; simp only
  · have hadd := tokensToAdd_lt b.bytesPerSec (now - b.lastRefill)
    split
    · simp only
      have hcast : asI64 (tokensToAdd b.bytesPerSec (now - b.lastRefill) : ℤ) =
          tokensToAdd b.bytesPerSec (now - b.lastRefill) := asI64_eq (by omega) (by omega)
      rw [hcast, asI64_eq (by omega) (by omega)]
    · omega
  · split
    · exact hlast
    · exact le_rfl
  · split
    · exact le_rfl
    · exact hlast
  · split
    · exact tokensToAdd_le ..
    · omega

end TokenBucket

/-! ### The invariant -/

/-- The largest debt a call of at most `m` bytes can leave. -/
def maxDebt (m : ℕ) : ℤ := max 10000 (m + 2002)

/-- The bytes to be taken next leave no larger debt, or the sleep under way is long enough for the
tokens missing. -/
def BucketRun.Covered (m : ℕ) (s : BucketRun) : Prop :=
  match s.phase with
  | .idle => True
  | .ready bytes => bytes ≤ m ∧ -maxDebt m ≤ s.bucket.tokens - bytes
  | .sleeping bytes wake => bytes ≤ m ∧ s.bucket.tokens < bytes ∧
      wake = s.clock + (bytes - s.bucket.tokens).toNat * s.bucket.nanosPerByte

structure BucketInv (r m : ℕ) (created : Instant) (s : BucketRun) : Prop where
  rate : s.bucket.bytesPerSec = r
  nanos : s.bucket.nanosPerByte = 1000000000 / r
  capacity : s.bucket.capacity = (max (r / 10) 8192 : ℕ)
  tokens_le : s.bucket.tokens ≤ s.bucket.capacity
  debt_le : -maxDebt m ≤ s.bucket.tokens
  last_le : s.bucket.lastRefill ≤ s.clock
  created_le : created ≤ s.bucket.lastRefill
  /-- What was taken beyond the initial tokens was paid for by time already accounted for. -/
  paid : 1000000000 * (s.consumed + s.bucket.tokens - s.bucket.capacity) ≤
    (r : ℤ) * (s.bucket.lastRefill - created : ℕ)
  covered : s.Covered m

theorem new_tokens {r : ℕ} (hr : r ≤ 1000000000) (created : Instant) :
    (TokenBucket.new r created).tokens = (max (r / 10) 8192 : ℕ) ∧
      (TokenBucket.new r created).capacity = (max (r / 10) 8192 : ℕ) := by
  have hcap : asI64 (max (r / 10) 8192 : ℕ) = (max (r / 10) 8192 : ℕ) :=
    asI64_eq (by omega) (by omega)
  constructor <;> simp only [TokenBucket.new, hcap]

theorem bucketInv_start {r m : ℕ} {created : Instant} (hpos : 1 ≤ r) (hr : r ≤ 1000000000) :
    BucketInv r m created (BucketRun.start r created) := by
  obtain ⟨htokens, hcapacity⟩ := new_tokens hr created
  have hpaid : (1000000000 : ℤ) * ((0 : ℕ) + (TokenBucket.new r created).tokens -
      (TokenBucket.new r created).capacity) ≤ (r : ℤ) * (created - created : ℕ) := by
    rw [htokens, hcapacity]
    simp
  exact
    { rate := rfl
      nanos := if_pos hpos
      capacity := hcapacity
      tokens_le := (htokens.trans hcapacity.symm).le
      debt_le := by
        refine le_trans ?_ htokens.ge
        unfold maxDebt
        omega
      last_le := le_rfl
      created_le := le_rfl
      paid := hpaid
      covered := trivial }

theorem BucketInv.withPhase {r m : ℕ} {created : Instant} {s : BucketRun} {phase : BucketPhase}
    (h : BucketInv r m created s) (hcovered : BucketRun.Covered m { s with phase := phase }) :
    BucketInv r m created { s with phase := phase } :=
  ⟨h.rate, h.nanos, h.capacity, h.tokens_le, h.debt_le, h.last_le, h.created_le, h.paid, hcovered⟩

theorem BucketInv.refill {r m : ℕ} {created : Instant} {s : BucketRun}
    (h : BucketInv r m created s) (hpos : 1 ≤ r) (hr : r ≤ 1000000000) (hm : m ≤ 2 ^ 32)
    {now : Instant} (hclock : s.clock ≤ now)
    (hrange : (now - s.bucket.lastRefill) / 1000 * s.bucket.bytesPerSec < 2 ^ 64)
    (hnanos : (now - s.bucket.lastRefill) % 2 ^ 64 = 0 → now - s.bucket.lastRefill = 0) :
    BucketInv r m created { s with bucket := s.bucket.refill now, phase := .idle, clock := now } ∧
      ∃ added : ℕ, (s.bucket.refill now).tokens = min (s.bucket.tokens + added) s.bucket.capacity ∧
        r * (now - s.clock) ≤ 1000000000 * (added + 1000) := by
  have hdebt := h.debt_le
  have hcap := h.capacity
  unfold maxDebt at hdebt
  obtain ⟨added, htokens, hlast, hnow, hpaid, hshort⟩ :=
    TokenBucket.refill_spec (b := s.bucket) (by rw [h.rate]; exact hpos) (by rw [h.rate]; exact hr)
      h.tokens_le (by omega) (by omega) (h.last_le.trans hclock) hrange hnanos
  rw [h.rate] at hpaid hshort
  have helapsed : r * (now - s.clock) ≤ r * (now - s.bucket.lastRefill) :=
    Nat.mul_le_mul_left r (Nat.sub_le_sub_left h.last_le now)
  refine ⟨?_, added, htokens, helapsed.trans hshort⟩
  refine
    { rate := ?_
      nanos := ?_
      capacity := ?_
      tokens_le := ?_
      debt_le := ?_
      last_le := hnow
      created_le := h.created_le.trans hlast
      paid := ?_
      covered := trivial }
  · simpa using h.rate
  · simpa using h.nanos
  · simpa using h.capacity
  · simp only [htokens, TokenBucket.refill_capacity]
    exact min_le_right ..
  · have hcapacity := h.debt_le.trans h.tokens_le
    simp only [htokens]
    exact le_min (h.debt_le.trans (by omega)) hcapacity
  · have hspan : (s.bucket.refill now).lastRefill - created =
        ((s.bucket.refill now).lastRefill - s.bucket.lastRefill) +
          (s.bucket.lastRefill - created) :=
      (Nat.sub_add_sub_cancel hlast h.created_le).symm
    have hsum : (1000000000 : ℤ) * added ≤
        r * (((s.bucket.refill now).lastRefill - s.bucket.lastRefill : ℕ) : ℤ) := by
      exact_mod_cast hpaid
    have hold := h.paid
    have hmin : min (s.bucket.tokens + added) s.bucket.capacity ≤ s.bucket.tokens + added :=
      min_le_left ..
    simp only [htokens, TokenBucket.refill_capacity, hspan]
    rw [Nat.cast_add, mul_add]
    linarith

theorem sleepNanos_eq {b : TokenBucket} {bytes : ℕ} (hbytes : bytes ≤ 2 ^ 32)
    (hlo : -(2 ^ 32 + 10000) ≤ b.tokens) (hcap : b.tokens < 2 ^ 40)
    (hnanos : b.nanosPerByte ≤ 1000000000) :
    b.sleepNanos bytes =
      if b.tokens < bytes then
        if (bytes - b.tokens).toNat * b.nanosPerByte > 10000 then
          some ((bytes - b.tokens).toNat * b.nanosPerByte)
        else none
      else none := by
  have hcast : asI64 (bytes : ℤ) = bytes := asI64_eq (by omega) (by omega)
  unfold TokenBucket.sleepNanos
  rw [hcast]
  by_cases hmissing : b.tokens < bytes
  · have hneeded : (bytes - b.tokens).toNat ≤ 2 ^ 33 + 10000 := by omega
    have hasU64 : asU64 (bytes - b.tokens) = (bytes - b.tokens).toNat := by
      rw [← Int.toNat_of_nonneg (a := bytes - b.tokens) (by omega), asU64_eq (by omega)]
      rfl
    have hprod : (bytes - b.tokens).toNat * b.nanosPerByte < 2 ^ 64 :=
      lt_of_le_of_lt (Nat.mul_le_mul hneeded hnanos) (by norm_num)
    simp only [if_pos hmissing, hasU64, Nat.mod_eq_of_lt hprod]
  · rw [if_neg hmissing, if_neg hmissing]

theorem sleepNanos_none {b : TokenBucket} {bytes : ℕ} (hbytes : bytes ≤ 2 ^ 32)
    (hlo : -(2 ^ 32 + 10000) ≤ b.tokens) (hcap : b.tokens < 2 ^ 40) (hpos : 1 ≤ b.nanosPerByte)
    (hnanos : b.nanosPerByte ≤ 1000000000) (h : b.sleepNanos bytes = none) :
    -10000 ≤ b.tokens - bytes := by
  rw [sleepNanos_eq hbytes hlo hcap hnanos] at h
  split at h
  · split at h
    · exact nomatch h
    · next hshort =>
      have hneeded : (bytes - b.tokens).toNat * 1 ≤ (bytes - b.tokens).toNat * b.nanosPerByte :=
        Nat.mul_le_mul_left _ hpos
      omega
  · omega

theorem sleepNanos_some {b : TokenBucket} {bytes : ℕ} {nanos : Duration} (hbytes : bytes ≤ 2 ^ 32)
    (hlo : -(2 ^ 32 + 10000) ≤ b.tokens) (hcap : b.tokens < 2 ^ 40)
    (hnanos : b.nanosPerByte ≤ 1000000000) (h : b.sleepNanos bytes = some nanos) :
    b.tokens < bytes ∧ nanos = (bytes - b.tokens).toNat * b.nanosPerByte := by
  rw [sleepNanos_eq hbytes hlo hcap hnanos] at h
  split at h
  · next hmissing =>
    split at h
    · exact ⟨hmissing, (Option.some.inj h).symm⟩
    · exact nomatch h
  · exact nomatch h

section Steps

-- the unifier is kept from computing with these definitions
attribute [local irreducible] asI64 asU64 TokenBucket.tokensToAdd

variable {r m : ℕ} {created : Instant} {s s' : BucketRun}

theorem BucketInv.sleep_bounds (h : BucketInv r m created s) (hpos : 1 ≤ r) (hr : r ≤ 1000000000)
    (hm : m ≤ 2 ^ 32) :
    -(2 ^ 32 + 10000) ≤ s.bucket.tokens ∧ s.bucket.tokens < 2 ^ 40 ∧
      1 ≤ s.bucket.nanosPerByte ∧ s.bucket.nanosPerByte ≤ 1000000000 := by
  have hdebt := h.debt_le
  have hcap := h.capacity
  have hle := h.tokens_le
  unfold maxDebt at hdebt
  refine ⟨by omega, by omega, ?_, ?_⟩
  · rw [h.nanos]
    exact (Nat.one_le_div_iff hpos).mpr hr
  · rw [h.nanos]
    exact Nat.div_le_self ..

/-- After the first refill of a call the debt is covered, with or without a sleep. -/
theorem BucketInv.covered_call {bytes : ℕ} (h : BucketInv r m created s) (hpos : 1 ≤ r)
    (hr : r ≤ 1000000000) (hm : m ≤ 2 ^ 32) (hbytes : bytes ≤ m) :
    BucketRun.Covered m
      { s with
        phase := (s.bucket.sleepNanos bytes).elim (.ready bytes)
          (fun nanos => .sleeping bytes (s.clock + nanos)) } := by
  obtain ⟨hlo, hhi, hone, hnanos⟩ := h.sleep_bounds hpos hr hm
  cases hsleep : s.bucket.sleepNanos bytes with
  | none =>
    have hshort := sleepNanos_none (hbytes.trans hm) hlo hhi hone hnanos hsleep
    refine ⟨hbytes, ?_⟩
    unfold maxDebt
    exact le_trans (by omega) hshort
  | some nanos =>
    obtain ⟨hmissing, hwake⟩ := sleepNanos_some (hbytes.trans hm) hlo hhi hnanos hsleep
    exact ⟨hbytes, hmissing, congrArg (s.clock + ·) hwake⟩

theorem BucketInv.covered_wake {bytes added : ℕ} {tokens : ℤ} {slept : Duration}
    (h : BucketInv r m created s) (hpos : 1 ≤ r) (hr : r ≤ 1000000000) (hbytes : bytes ≤ m)
    (hmissing : s.bucket.tokens < bytes)
    (hslept : (bytes - s.bucket.tokens).toNat * s.bucket.nanosPerByte ≤ slept)
    (hadded : r * slept ≤ 1000000000 * (added + 1000))
    (htokens : tokens = min (s.bucket.tokens + added) s.bucket.capacity) :
    -maxDebt m ≤ tokens - bytes := by
  rw [h.nanos] at hslept
  have hhalf := sleep_repays_half hpos hr hslept hadded
  have hdebt := h.debt_le
  have hcap := h.capacity
  unfold maxDebt at hdebt ⊢
  rw [htokens]
  rcases min_choice (s.bucket.tokens + added) s.bucket.capacity with hmin | hmin
  · rw [hmin]
    omega
  · rw [hmin]
    omega

theorem BucketInv.take {bytes : ℕ} (h : BucketInv r m created s) (hm : m ≤ 2 ^ 32)
    (hbytes : bytes ≤ m) (hdebt : -maxDebt m ≤ s.bucket.tokens - bytes) (hr : r ≤ 1000000000) :
    BucketInv r m created
      { s with
        bucket := s.bucket.take bytes
        phase := .idle
        consumed := s.consumed + bytes } := by
  have hle := h.tokens_le
  have hcap := h.capacity
  have htokens : (s.bucket.take bytes).tokens = s.bucket.tokens - bytes := by
    have hlo : -(2 ^ 33) ≤ s.bucket.tokens - bytes := by
      refine le_trans ?_ hdebt
      unfold maxDebt
      omega
    unfold TokenBucket.take
    rw [asI64_eq (x := (bytes : ℤ)) (by omega) (by omega)]
    exact asI64_eq (by omega) (by omega)
  refine ⟨h.rate, h.nanos, h.capacity, ?_, ?_, h.last_le, h.created_le, ?_, trivial⟩
  · exact htokens.le.trans (le_trans (by omega) hle)
  · exact hdebt.trans htokens.ge
  · have hsame : (((s.consumed + bytes : ℕ) : ℤ) + (s.bucket.take bytes).tokens -
        s.bucket.capacity) = s.consumed + s.bucket.tokens - s.bucket.capacity := by
      rw [htokens]
      push_cast
      ring
    exact (congrArg (1000000000 * ·) hsame).le.trans h.paid

theorem BucketInv.step {e : BucketEvent} (h : BucketInv r m created s) (hpos : 1 ≤ r)
    (hr : r ≤ 1000000000) (hm : m ≤ 2 ^ 32) (hok : s.Permits m e) (hnanos : s.NanosInRange e)
    (hstep : s.step e = some s') :
    BucketInv r m created s' := by
  obtain ⟨hmost, htimely, hrange⟩ := hok
  cases e with
  | call bytes now =>
    cases hphase : s.phase <;> simp only [BucketRun.step, hphase, reduceCtorEq] at hstep
    obtain rfl := Option.some.inj hstep
    obtain ⟨hinv, -⟩ := h.refill hpos hr hm htimely hrange hnanos
    exact hinv.withPhase (hinv.covered_call hpos hr hm hmost)
  | wake now =>
    cases hphase : s.phase <;> simp only [BucketRun.step, hphase, reduceCtorEq] at hstep
    obtain rfl := Option.some.inj hstep
    rename_i bytes wake
    obtain ⟨hinv, added, htokens, hshort⟩ := h.refill hpos hr hm htimely.1 hrange hnanos
    have hcovered := h.covered
    unfold BucketRun.Covered at hcovered
    rw [hphase] at hcovered
    obtain ⟨hbytes, hmissing, hwake⟩ := hcovered
    have hwoke := htimely.2
    rw [hphase] at hwoke
    refine hinv.withPhase ⟨hbytes, h.covered_wake hpos hr hbytes hmissing ?_ hshort htokens⟩
    exact Nat.le_sub_of_add_le' (hwake.symm.le.trans hwoke)
  | take =>
    cases hphase : s.phase <;> simp only [BucketRun.step, hphase, reduceCtorEq] at hstep
    obtain rfl := Option.some.inj hstep
    rename_i bytes
    have hcovered := h.covered
    unfold BucketRun.Covered at hcovered
    rw [hphase] at hcovered
    exact h.take hm hcovered.1 hcovered.2 hr

end Steps

/-- The rate bound: the tokens stay between `-(2 * m + 10000)` and the capacity, and what is
consumed until a time `t` after the creation is bounded by the rate. -/
theorem tokenBucket_bounds (r m : ℕ) (created : Instant) (hpos : 1 ≤ r) (hr : r ≤ 1000000000)
    (hm : m ≤ 2 ^ 32) (s : BucketRun)
    (h : Lts.Reach BucketRun.step (fun s e => s.Permits m e ∧ s.NanosInRange e)
      (BucketRun.start r created) s) :
    s.bucket.tokens ≤ s.bucket.capacity ∧ -(2 * m + 10000) ≤ s.bucket.tokens ∧
      ∀ t : Duration, s.clock ≤ created + t → (1000000000 : ℤ) * s.consumed ≤
        1000000000 * ((TokenBucket.new r created).capacity + 2 * m + 10000) + r * (t : ℕ) := by
  have hinv : BucketInv r m created s :=
    h.invariant (bucketInv_start hpos hr) (fun _ _ _ hi hok hs => hi.step hpos hr hm hok.1 hok.2 hs)
  have hdebt : -(2 * m + 10000 : ℤ) ≤ s.bucket.tokens := by
    refine le_trans ?_ hinv.debt_le
    unfold maxDebt
    omega
  refine ⟨hinv.tokens_le, hdebt, fun t ht => ?_⟩
  have hcap : (TokenBucket.new r created).capacity = s.bucket.capacity :=
    (new_tokens hr created).2.trans hinv.capacity.symm
  have htime : s.bucket.lastRefill - created ≤ t :=
    Nat.sub_le_iff_le_add'.mpr (hinv.last_le.trans ht)
  have hspan : (r : ℤ) * (s.bucket.lastRefill - created : ℕ) ≤ r * (t : ℕ) := by
    exact_mod_cast Nat.mul_le_mul_left r htime
  have hpaid := hinv.paid
  rw [hcap]
  linarith

/-- A call that finds enough tokens and one that has to sleep for the rest. -/
def oneSleep : List BucketEvent :=
  [.call 8000 0, .take, .call 1000 5000000, .wake 808000000, .take]

def oneSleepEnd : BucketRun :=
  { bucket :=
      { bytesPerSec := 1000
        tokens := 0
        capacity := 8192
        lastRefill := 808000000
        nanosPerByte := 1000000 }
    phase := .idle
    clock := 808000000
    consumed := 9000 }

theorem oneSleep_run :
    Lts.run BucketRun.step (fun s e => s.Permits 8000 e ∧ s.NanosInRange e)
      (BucketRun.start 1000 0) oneSleep = some oneSleepEnd := by
  decide +kernel

theorem tokenBucket_bounds_oneSleep :
    oneSleepEnd.bucket.tokens ≤ oneSleepEnd.bucket.capacity ∧
      -(2 * (8000 : ℕ) + 10000) ≤ oneSleepEnd.bucket.tokens ∧
      ∀ t : Duration, oneSleepEnd.clock ≤ 0 + t → (1000000000 : ℤ) * oneSleepEnd.consumed ≤
        1000000000 * ((TokenBucket.new 1000 0).capacity + 2 * (8000 : ℕ) + 10000) +
          (1000 : ℕ) * (t : ℕ) :=
  tokenBucket_bounds 1000 8000 0 (by decide) (by decide) (by decide) oneSleepEnd
    (Lts.Reach.start.run oneSleep_run)

/-- One byte per second, and a clock that shows only multiples of `2 ^ 64` nanoseconds. -/
def hiddenTime : List BucketEvent :=
  [.call 20000 0, .wake (2 ^ 64), .take,
    .call 20000 (2 ^ 64), .wake (2 * 2 ^ 64), .take,
    .call 20000 (2 * 2 ^ 64), .wake (3 * 2 ^ 64), .take]

def hiddenTimeEnd : BucketRun :=
  { bucket :=
      { bytesPerSec := 1
        tokens := -51808
        capacity := 8192
        lastRefill := 0
        nanosPerByte := 1000000000 }
    phase := .idle
    clock := 3 * 2 ^ 64
    consumed := 60000 }

theorem hiddenTime_debt :
    ¬ ∀ (r m : ℕ) (created : Instant), 1 ≤ r → r ≤ 1000000000 → m ≤ 2 ^ 32 → ∀ s : BucketRun,
      Lts.Reach BucketRun.step (BucketRun.Permits m) (BucketRun.start r created) s →
      s.bucket.tokens ≤ s.bucket.capacity ∧ -(2 * m + 10000) ≤ s.bucket.tokens ∧
        ∀ t : Duration, s.clock ≤ created + t → (1000000000 : ℤ) * s.consumed ≤
          1000000000 * ((TokenBucket.new r created).capacity + 2 * m + 10000) + r * (t : ℕ) := by
  intro h
  have hrun : Lts.run BucketRun.step (BucketRun.Permits 20000) (BucketRun.start 1 0) hiddenTime =
      some hiddenTimeEnd := by decide +kernel
  obtain ⟨-, hdebt, -⟩ := h 1 20000 0 (by decide) (by decide) (by decide) hiddenTimeEnd
    (Lts.Reach.start.run hrun)
  exact absurd hdebt (by decide)

end Rperf3
