import Rperf3.TokenBucket

/-!
# How long a call waits (`token_bucket.rs:73-226`)

The bucket under all of its operations, at any rate. A call that lacks tokens asks
for a sleep of the missing bytes times the truncated nanoseconds per byte, kept to
64 bits and left out up to 10000. This is never more than the time the missing
bytes take at the rate; `waitsEnough_iff` says when it is not less.
-/

namespace Rperf3

namespace TokenBucket

/-- `reset` (`token_bucket.rs:184-187`). -/
def reset (b : TokenBucket) (now : Instant) : TokenBucket :=
  { b with tokens := b.capacity, lastRefill := now }

/-- `set_bandwidth` (`token_bucket.rs:216-225`). -/
def setBandwidth (b : TokenBucket) (bytesPerSec : ℕ) (now : Instant) : TokenBucket :=
  { b with
    bytesPerSec := bytesPerSec
    capacity := asI64 (max (bytesPerSec / 10) 8192 : ℕ)
    nanosPerByte := if bytesPerSec > 0 then 1000000000 / bytesPerSec else 0 }.reset now

end TokenBucket

inductive BucketOp where
  | consume (bytes : ℕ) (now woke : Instant)
  | reset (now : Instant)
  | setBandwidth (bytesPerSec : ℕ) (now : Instant)

/-- A call of `consume`: the bucket it finds, and the clock at its first refill. -/
structure ConsumeCall where
  bucket : TokenBucket
  bytes : ℕ
  now : Instant
  deriving DecidableEq

namespace TokenBucket

def apply (b : TokenBucket) : BucketOp → TokenBucket
  | .consume bytes now woke => b.consume bytes now woke
  | .reset now => b.reset now
  | .setBandwidth bytesPerSec now => b.setBandwidth bytesPerSec now

def calls (b : TokenBucket) : List BucketOp → List ConsumeCall
  | [] => []
  | .consume bytes now woke :: ops => ⟨b, bytes, now⟩ :: (b.consume bytes now woke).calls ops
  | .reset now :: ops => (b.reset now).calls ops
  | .setBandwidth bytesPerSec now :: ops => (b.setBandwidth bytesPerSec now).calls ops

end TokenBucket

namespace ConsumeCall

def rate (call : ConsumeCall) : ℕ := call.bucket.bytesPerSec

def lacking (call : ConsumeCall) : ℕ :=
  ((call.bytes : ℤ) - (call.bucket.refill call.now).tokens).toNat

/-- At a rate of at least one, the missing bytes take more than 10 microseconds. -/
def Lacks (call : ConsumeCall) : Prop :=
  1 ≤ call.rate ∧ 10000 * call.rate < call.lacking * 1000000000

/-- The sleep asked for covers the time of the missing bytes at the rate. -/
def WaitsEnough (call : ConsumeCall) : Prop :=
  ∃ nanos, (call.bucket.refill call.now).sleepNanos call.bytes = some nanos ∧
    call.lacking * 1000000000 / call.rate ≤ nanos

/-- The truncated time per byte loses nothing on the missing bytes, and their sleep is neither too
short to be made nor too long for 64 bits. -/
def Exact (call : ConsumeCall) : Prop :=
  call.bytes < 2 ^ 63 ∧ call.lacking * (1000000000 % call.rate) < call.rate ∧
    10000 < call.lacking * (1000000000 / call.rate) ∧
    call.lacking * (1000000000 / call.rate) < 2 ^ 64

instance (call : ConsumeCall) : Decidable call.Lacks := inferInstanceAs (Decidable (_ ∧ _))

instance (call : ConsumeCall) : Decidable call.Exact :=
  inferInstanceAs (Decidable (_ ∧ _ ∧ _ ∧ _))

end ConsumeCall

/-! ### The invariant -/

theorem asI64_lower (x : ℤ) : -2 ^ 63 ≤ asI64 x := by
  unfold asI64
  exact Int.le_bmod (by norm_num)

theorem asI64_upper (x : ℤ) : asI64 x < 2 ^ 63 := by
  unfold asI64
  exact Int.bmod_lt (by norm_num)

theorem asI64_of_ge {n : ℕ} (h : 2 ^ 63 ≤ n) : asI64 (n : ℤ) + 2 ^ 64 ≤ n := by
  have hupper := asI64_upper n
  have hdvd : (2 ^ 64 : ℤ) ∣ n - asI64 n := by
    unfold asI64
    exact Int.dvd_self_sub_bmod
  obtain ⟨c, hc⟩ := hdvd
  omega

theorem asU64_le {x : ℤ} (h : 0 ≤ x) : (asU64 x : ℤ) ≤ x := by
  unfold asU64
  omega

section Calls

-- the unifier is kept from computing with these definitions
attribute [local irreducible] asI64 asU64 TokenBucket.tokensToAdd

/-- The tokens are an `i64`, and the time per byte is that of the rate. -/
structure TokenBucket.Sound (b : TokenBucket) : Prop where
  capacity_lower : -2 ^ 63 ≤ b.capacity
  tokens_lower : -2 ^ 63 ≤ b.tokens
  nanos : 1 ≤ b.bytesPerSec → b.nanosPerByte = 1000000000 / b.bytesPerSec

namespace TokenBucket

theorem sound_new (bytesPerSec : ℕ) (now : Instant) : (new bytesPerSec now).Sound where
  capacity_lower := asI64_lower _
  tokens_lower := asI64_lower _
  nanos hrate := if_pos hrate

variable {b : TokenBucket}

theorem Sound.refill (h : b.Sound) (now : Instant) : (b.refill now).Sound := by
  unfold TokenBucket.refill
  simp only
  split
  · exact
      { capacity_lower := h.capacity_lower
        tokens_lower := le_min (asI64_lower _) h.capacity_lower
        nanos := h.nanos }
  · exact h

theorem Sound.take (h : b.Sound) (bytes : ℕ) : (b.take bytes).Sound where
  capacity_lower := h.capacity_lower
  tokens_lower := asI64_lower _
  nanos := h.nanos

theorem Sound.consume (h : b.Sound) (bytes : ℕ) (now woke : Instant) :
    (b.consume bytes now woke).Sound := by
  unfold TokenBucket.consume
  cases hsleep : (b.refill now).sleepNanos bytes with
  | none =>
    simp only [hsleep, Option.elim_none]
    exact (h.refill now).take bytes
  | some nanos =>
    simp only [hsleep, Option.elim_some]
    exact ((h.refill now).refill woke).take bytes

theorem Sound.reset (h : b.Sound) (now : Instant) : (b.reset now).Sound where
  capacity_lower := h.capacity_lower
  tokens_lower := h.capacity_lower
  nanos := h.nanos

theorem sound_setBandwidth (b : TokenBucket) (bytesPerSec : ℕ) (now : Instant) :
    (b.setBandwidth bytesPerSec now).Sound where
  capacity_lower := asI64_lower _
  tokens_lower := asI64_lower _
  nanos hrate := if_pos hrate

theorem Sound.calls {ops : List BucketOp} (h : b.Sound) :
    ∀ call ∈ b.calls ops, call.bucket.Sound := by
  induction ops generalizing b with
  | nil => exact fun call hcall => absurd hcall List.not_mem_nil
  | cons op ops ih =>
    cases op with
    | consume bytes now woke =>
      intro call hcall
      rcases List.mem_cons.mp hcall with rfl | hcall
      · exact h
      · exact ih (h.consume bytes now woke) call hcall
    | reset now => exact ih (h.reset now)
    | setBandwidth bytesPerSec now => exact ih (sound_setBandwidth b bytesPerSec now)

end TokenBucket

/-! ### One call -/

section Truncation

variable {lacking rate : ℕ}

theorem truncated_add (lacking rate : ℕ) :
    rate * (lacking * (1000000000 / rate)) + lacking * (1000000000 % rate) =
      lacking * 1000000000 :=
  calc rate * (lacking * (1000000000 / rate)) + lacking * (1000000000 % rate)
      = lacking * (rate * (1000000000 / rate) + 1000000000 % rate) := by ring
    _ = lacking * 1000000000 := by rw [Nat.div_add_mod]

/-- The truncated time per byte gives the whole time of the missing bytes if what it cuts off,
summed over them, is less than one nanosecond. -/
theorem time_le_truncated_iff (hrate : 1 ≤ rate) :
    lacking * 1000000000 / rate ≤ lacking * (1000000000 / rate) ↔
      lacking * (1000000000 % rate) < rate := by
  rw [← truncated_add lacking rate, Nat.mul_add_div hrate]
  constructor
  · intro hle
    have hzero : lacking * (1000000000 % rate) / rate = 0 :=
      Nat.le_zero.mp (Nat.le_of_add_le_add_left hle)
    exact Nat.lt_of_div_eq_zero hrate hzero
  · intro hlt
    rw [Nat.div_eq_of_lt hlt, Nat.add_zero]

theorem time_le_mod_iff (lacking : ℕ) {modulus : ℕ} (hrate : 1 ≤ rate) (hmodulus : 0 < modulus) :
    lacking * 1000000000 / rate ≤ lacking * (1000000000 / rate) % modulus ↔
      lacking * (1000000000 % rate) < rate ∧ lacking * (1000000000 / rate) < modulus := by
  have htruncated : lacking * (1000000000 / rate) ≤ lacking * 1000000000 / rate :=
    Nat.mul_div_le_mul_div_assoc ..
  constructor
  · intro hle
    have hmod := Nat.mod_le (lacking * (1000000000 / rate)) modulus
    have hsame : lacking * (1000000000 / rate) % modulus = lacking * (1000000000 / rate) :=
      le_antisymm hmod (htruncated.trans hle)
    exact ⟨(time_le_truncated_iff hrate).mp (hle.trans hmod),
      hsame ▸ Nat.mod_lt _ hmodulus⟩
  · rintro ⟨hexact, hlt⟩
    rw [Nat.mod_eq_of_lt hlt]
    exact (time_le_truncated_iff hrate).mpr hexact

end Truncation

variable {call : ConsumeCall}

namespace ConsumeCall

theorem lacking_pos (h : call.Lacks) : 0 < call.lacking :=
  Nat.pos_of_mul_pos_right (lt_of_le_of_lt (Nat.zero_le _) h.2)

theorem tokens_of_lacks (h : call.Lacks) :
    ((call.bytes : ℤ) - (call.bucket.refill call.now).tokens) = call.lacking := by
  have hpos := lacking_pos h
  unfold lacking at hpos ⊢
  omega

theorem time_pos (h : call.Lacks) : 10000 ≤ call.lacking * 1000000000 / call.rate :=
  (Nat.le_div_iff_mul_le h.1).mpr h.2.le

theorem sleepNanos_of_lt (hsound : call.bucket.Sound) (h : call.Lacks)
    (hbytes : call.bytes < 2 ^ 63) :
    (call.bucket.refill call.now).sleepNanos call.bytes =
      if call.lacking * (1000000000 / call.rate) % 2 ^ 64 > 10000 then
        some (call.lacking * (1000000000 / call.rate) % 2 ^ 64)
      else none := by
  have hneeded := tokens_of_lacks h
  have htokens := (hsound.refill call.now).tokens_lower
  have hnanos := (hsound.refill call.now).nanos
  rw [TokenBucket.refill_bytesPerSec] at hnanos
  have hpos := lacking_pos h
  have hcast : asI64 (call.bytes : ℤ) = call.bytes := asI64_eq (by omega) (by omega)
  have hmissing : (call.bucket.refill call.now).tokens < call.bytes := by omega
  have hasU64 : asU64 (call.lacking : ℤ) = call.lacking := asU64_eq (by omega)
  unfold TokenBucket.sleepNanos
  rw [hcast, if_pos hmissing]
  simp only [hneeded, hasU64, hnanos h.1]
  rfl

theorem sleepNanos_of_ge (hsound : call.bucket.Sound) (h : call.Lacks)
    (hbytes : 2 ^ 63 ≤ call.bytes) {nanos : Duration}
    (hsleep : (call.bucket.refill call.now).sleepNanos call.bytes = some nanos) :
    nanos < call.lacking * 1000000000 / call.rate := by
  have hneeded := tokens_of_lacks h
  have hnanos := (hsound.refill call.now).nanos
  rw [TokenBucket.refill_bytesPerSec] at hnanos
  have hcast := asI64_of_ge hbytes
  unfold TokenBucket.sleepNanos at hsleep
  split at hsleep
  · next hmissing =>
    simp only [hnanos h.1] at hsleep
    split at hsleep
    · next hlong =>
      obtain rfl := Option.some.inj hsleep
      have hle := asU64_le (sub_nonneg.mpr hmissing.le)
      generalize asU64 (asI64 call.bytes - (call.bucket.refill call.now).tokens) = needed
        at hle hlong ⊢
      have hcut : needed < call.lacking := by omega
      have hproduct := Nat.mod_le (needed * (1000000000 / call.bucket.bytesPerSec)) (2 ^ 64)
      have hnonzero : 0 < 1000000000 / call.bucket.bytesPerSec := by
        by_contra hzero
        rw [Nat.le_zero.mp (Nat.le_of_not_lt hzero), Nat.mul_zero, Nat.zero_mod] at hlong
        exact absurd hlong (Nat.not_lt_zero _)
      calc needed * (1000000000 / call.bucket.bytesPerSec) % 2 ^ 64
          ≤ needed * (1000000000 / call.rate) := hproduct
        _ < call.lacking * (1000000000 / call.rate) := Nat.mul_lt_mul_of_pos_right hcut hnonzero
        _ ≤ call.lacking * 1000000000 / call.rate := Nat.mul_div_le_mul_div_assoc ..
    · exact nomatch hsleep
  · exact nomatch hsleep

theorem waitsEnough_iff (hsound : call.bucket.Sound) (h : call.Lacks) :
    call.WaitsEnough ↔ call.Exact := by
  have htime := time_pos h
  unfold WaitsEnough Exact
  by_cases hbytes : call.bytes < 2 ^ 63
  · rw [sleepNanos_of_lt hsound h hbytes]
    have hiff := time_le_mod_iff call.lacking h.1 (Nat.two_pow_pos 64)
    constructor
    · rintro ⟨nanos, hsleep, hle⟩
      obtain ⟨hlong, hnanos⟩ := Option.ite_none_right_eq_some.mp hsleep
      obtain rfl := Option.some.inj hnanos
      obtain ⟨hexact, hlt⟩ := hiff.mp hle
      rw [Nat.mod_eq_of_lt hlt] at hlong
      exact ⟨hbytes, hexact, hlong, hlt⟩
    · rintro ⟨-, hexact, hlong, hlt⟩
      refine ⟨_, if_pos ?_, hiff.mpr ⟨hexact, hlt⟩⟩
      rw [Nat.mod_eq_of_lt hlt]
      exact hlong
  · constructor
    · rintro ⟨nanos, hsleep, hle⟩
      exact absurd hle (sleepNanos_of_ge hsound h (by omega) hsleep).not_ge
    · rintro ⟨hlt, -⟩
      exact absurd hlt hbytes

end ConsumeCall

theorem consume_waits_le {rate : ℕ} {created : Instant} {ops : List BucketOp} {nanos : Duration}
    (hcall : call ∈ (TokenBucket.new rate created).calls ops) (h : call.Lacks)
    (hsleep : (call.bucket.refill call.now).sleepNanos call.bytes = some nanos) :
    nanos ≤ call.lacking * 1000000000 / call.rate := by
  have hsound := (TokenBucket.sound_new rate created).calls call hcall
  by_cases hbytes : call.bytes < 2 ^ 63
  · rw [ConsumeCall.sleepNanos_of_lt hsound h hbytes] at hsleep
    obtain rfl := Option.some.inj (Option.ite_none_right_eq_some.mp hsleep).2
    exact (Nat.mod_le ..).trans (Nat.mul_div_le_mul_div_assoc ..)
  · exact (ConsumeCall.sleepNanos_of_ge hsound h (by omega) hsleep).le

end Calls

/-- The calls of a run that wait long enough for the tokens they lack. -/
theorem consume_waits_iff {rate : ℕ} {created : Instant} {ops : List BucketOp}
    {call : ConsumeCall} (hcall : call ∈ (TokenBucket.new rate created).calls ops)
    (h : call.Lacks) : call.WaitsEnough ↔ call.Exact :=
  ConsumeCall.waitsEnough_iff ((TokenBucket.sound_new rate created).calls call hcall) h

def secondCall (rate first bytes : ℕ) : ConsumeCall :=
  ⟨(TokenBucket.new rate 0).consume first 0 0, bytes, 0⟩

theorem secondCall_mem (rate first bytes : ℕ) :
    secondCall rate first bytes ∈
      (TokenBucket.new rate 0).calls [.consume first 0 0, .consume bytes 0 0] :=
  List.mem_cons_of_mem _ (List.mem_singleton.mpr rfl)

theorem consume_waits_megabyte : (secondCall 1000000 100000 1500).WaitsEnough := by
  have hexact : (secondCall 1000000 100000 1500).Exact := by decide +kernel
  exact (consume_waits_iff (secondCall_mem 1000000 100000 1500) (by decide +kernel)).mpr hexact

/-- Above a gigabyte per second the truncated time per byte is zero, and no call waits. -/
theorem consume_waits_tenGigabit :
    ¬ ∀ (rate : ℕ) (created : Instant) (ops : List BucketOp),
      ∀ call ∈ (TokenBucket.new rate created).calls ops, call.Lacks → call.WaitsEnough := by
  intro h
  have hlacks : (secondCall 1250000000 125000000 65507).Lacks := by decide +kernel
  obtain ⟨nanos, hsleep, -⟩ :=
    h 1250000000 0 _ _ (secondCall_mem 1250000000 125000000 65507) hlacks
  have hnone :
      ((secondCall 1250000000 125000000 65507).bucket.refill 0).sleepNanos 65507 = none := by
    decide +kernel
  exact nomatch hnone.symm.trans hsleep

end Rperf3
