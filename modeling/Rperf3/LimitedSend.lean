import Rperf3.OneWaySend
import Rperf3.TokenBucket
import Rperf3.UdpUpload

/-!
# Senders with a bandwidth limit (`client.rs:954-1246`, `1904-1946`)

With a limit, each of the three senders of the client makes a bucket that fills
at an eighth of it and consumes what it has sent before it goes on. Without one
the loops are those of `UdpSend` and `OneWaySend`; here the bucket takes its
steps between theirs.
-/

namespace Rperf3

/-- What one turn of a sending loop comes to: the loop ends, or there was nothing to send, or
`bytes` of `packets` datagrams are to be paid for. -/
inductive Turn (σ : Type) where
  | leave (x : σ)
  | again (x : σ)
  | sent (x : σ) (bytes packets : ℕ)

def Turn.state {σ : Type} : Turn σ → σ
  | .leave x | .again x | .sent x _ _ => x

def Turn.bytes {σ : Type} : Turn σ → ℕ
  | .sent _ bytes _ => bytes
  | _ => 0

structure LimitedLoop (σ τ : Type) where
  turn : σ → τ → Turn σ
  /-- the rest of the turn, after the bucket -/
  report : σ → τ → ℕ → ℕ → σ

inductive LimitedPhase (τ : Type) where
  | head
  | paying (t : τ) (bytes packets : ℕ)
  | reporting (t : τ) (bytes packets : ℕ)
  | left

structure LimitedState (σ τ : Type) where
  sender : σ
  phase : LimitedPhase τ
  bucket : BucketRun

inductive LimitedEvent (τ : Type) where
  | turn (t : τ)
  | bucket (e : BucketEvent)
  | report

def BucketEvent.Asks (bytes : ℕ) : BucketEvent → Prop
  | .call n _ => n = bytes
  | _ => True

instance (bytes : ℕ) : (e : BucketEvent) → Decidable (e.Asks bytes)
  | .call n _ => inferInstanceAs (Decidable (n = bytes))
  | .wake _ | .take => inferInstanceAs (Decidable True)

section Loop

variable {σ τ : Type}

def LimitedState.start (x : σ) (bandwidth : ℕ) (now : Instant) : LimitedState σ τ :=
  ⟨x, .head, BucketRun.start (bandwidth / 8) now⟩

def LimitedLoop.step (loop : LimitedLoop σ τ) (s : LimitedState σ τ) :
    LimitedEvent τ → Option (LimitedState σ τ)
  | .turn t =>
    match s.phase with
    | .head =>
      match loop.turn s.sender t with
      | .leave x => some { s with sender := x, phase := .left }
      | .again x => some { s with sender := x }
      | .sent x bytes packets => some { s with sender := x, phase := .paying t bytes packets }
    | _ => none
  | .bucket e =>
    match s.phase with
    | .paying t bytes packets =>
      if e.Asks bytes then
        (s.bucket.step e).map fun b =>
          { s with
            bucket := b
            phase := if b.phase = .idle then .reporting t bytes packets else s.phase }
      else none
    | _ => none
  | .report =>
    match s.phase with
    | .reporting t bytes packets =>
      some { s with sender := loop.report s.sender t bytes packets, phase := .head }
    | _ => none

/-- No turn sends more than `m` bytes, the clock is a proper one and no product of the bucket
overflows. -/
def LimitedLoop.Permits (loop : LimitedLoop σ τ) (m : ℕ) (s : LimitedState σ τ) :
    LimitedEvent τ → Prop
  | .turn t => (loop.turn s.sender t).bytes ≤ m
  | .bucket e => s.bucket.Permits m e ∧ s.bucket.NanosInRange e
  | .report => True

instance (loop : LimitedLoop σ τ) (m : ℕ) (s : LimitedState σ τ) :
    (e : LimitedEvent τ) → Decidable (loop.Permits m s e)
  | .turn t => inferInstanceAs (Decidable ((loop.turn s.sender t).bytes ≤ m))
  | .bucket _ => inferInstanceAs (Decidable (_ ∧ _))
  | .report => inferInstanceAs (Decidable True)

def LimitedLoop.run (loop : LimitedLoop σ τ) : σ → List τ → σ
  | x, [] => x
  | x, t :: ts =>
    match loop.turn x t with
    | .leave x => x
    | .again x => loop.run x ts
    | .sent x bytes packets => loop.run (loop.report x t bytes packets) ts

/-! ### Steps -/

inductive LimitedRule (loop : LimitedLoop σ τ) (s : LimitedState σ τ) :
    LimitedEvent τ → LimitedState σ τ → Prop
  | leave {t x} (hphase : s.phase = .head) (hturn : loop.turn s.sender t = .leave x) :
    LimitedRule loop s (.turn t) { s with sender := x, phase := .left }
  | again {t x} (hphase : s.phase = .head) (hturn : loop.turn s.sender t = .again x) :
    LimitedRule loop s (.turn t) { s with sender := x }
  | sent {t x bytes packets} (hphase : s.phase = .head)
    (hturn : loop.turn s.sender t = .sent x bytes packets) :
    LimitedRule loop s (.turn t) { s with sender := x, phase := .paying t bytes packets }
  | waits {t bytes packets e b} (hphase : s.phase = .paying t bytes packets)
    (hasks : e.Asks bytes) (hstep : s.bucket.step e = some b) (hidle : b.phase ≠ .idle) :
    LimitedRule loop s (.bucket e) { s with bucket := b }
  | paid {t bytes packets e b} (hphase : s.phase = .paying t bytes packets)
    (hasks : e.Asks bytes) (hstep : s.bucket.step e = some b) (hidle : b.phase = .idle) :
    LimitedRule loop s (.bucket e) { s with bucket := b, phase := .reporting t bytes packets }
  | report {t bytes packets} (hphase : s.phase = .reporting t bytes packets) :
    LimitedRule loop s .report
      { s with sender := loop.report s.sender t bytes packets, phase := .head }

theorem LimitedLoop.step_rule {loop : LimitedLoop σ τ} {s s' : LimitedState σ τ}
    {e : LimitedEvent τ} (h : loop.step s e = some s') : LimitedRule loop s e s' := by
  unfold LimitedLoop.step at h
  split at h
  next t =>
    split at h
    next hphase =>
      split at h
      next hturn =>
        cases h
        exact .leave hphase hturn
      next hturn =>
        cases h
        exact .again hphase hturn
      next hturn =>
        cases h
        exact .sent hphase hturn
    next => exact nomatch h
  next e =>
    split at h
    next t bytes packets hphase =>
      obtain ⟨hasks, h⟩ := Option.ite_none_right_eq_some.mp h
      obtain ⟨b, hstep, rfl⟩ := Option.map_eq_some_iff.mp h
      by_cases hidle : b.phase = .idle
      · rw [if_pos hidle]
        exact .paid hphase hasks hstep hidle
      · rw [if_neg hidle]
        exact .waits hphase hasks hstep hidle
    next => exact nomatch h
  next =>
    split at h
    next hphase =>
      cases h
      exact .report hphase
    next => exact nomatch h

/-! ### The bucket between the turns -/

def BucketPhase.asked : BucketPhase → Option ℕ
  | .idle => none
  | .sleeping bytes _ | .ready bytes => some bytes

/-- A step of the bucket for `bytes` leaves it busy with them, or has taken them. -/
theorem BucketRun.step_asked {b b' : BucketRun} {e : BucketEvent} {bytes : ℕ}
    (hasks : e.Asks bytes) (hasked : ∀ n, b.phase.asked = some n → n = bytes)
    (h : b.step e = some b') :
    (b'.phase ≠ .idle → b'.consumed = b.consumed ∧ b'.phase.asked = some bytes) ∧
      (b'.phase = .idle → b'.consumed = b.consumed + bytes) := by
  cases e with
  | call n now =>
    cases hphase : b.phase <;> simp only [BucketRun.step, hphase, reduceCtorEq] at h
    obtain rfl := Option.some.inj h
    have hn : n = bytes := hasks
    subst hn
    cases (b.bucket.refill now).sleepNanos n with
    | none => exact ⟨fun _ => ⟨rfl, rfl⟩, fun hidle => BucketPhase.noConfusion hidle⟩
    | some nanos => exact ⟨fun _ => ⟨rfl, rfl⟩, fun hidle => BucketPhase.noConfusion hidle⟩
  | wake now =>
    cases hphase : b.phase <;> simp only [BucketRun.step, hphase, reduceCtorEq] at h
    rename_i n wake
    obtain rfl := Option.some.inj h
    have hn := hasked n (by rw [hphase]; rfl)
    exact ⟨fun _ => ⟨rfl, congrArg some hn⟩, fun hidle => BucketPhase.noConfusion hidle⟩
  | take =>
    cases hphase : b.phase <;> simp only [BucketRun.step, hphase, reduceCtorEq] at h
    rename_i n
    obtain rfl := Option.some.inj h
    have hn := hasked n (by rw [hphase]; rfl)
    exact ⟨fun hbusy => absurd rfl hbusy, fun _ => congrArg (b.consumed + ·) hn⟩

/-! ### The rate -/

/-- What a bucket of `m` bytes a call lets through of a total until the reading `clock`. -/
def WithinRate (r m : ℕ) (created clock : Instant) (total : ℕ) : Prop :=
  ∀ t : Duration, clock ≤ created + t →
    1000000000 * total ≤
      1000000000 * (max (r / 10) 8192 + max 10000 (m + 2002) + m) + r * t

theorem BucketInv.withinRate {r m : ℕ} {created : Instant} {b : BucketRun}
    (h : BucketInv r m created b) {total : ℕ} (htotal : total ≤ b.consumed + m) :
    WithinRate r m created b.clock total := by
  intro t ht
  have htime : b.bucket.lastRefill - created ≤ t :=
    Nat.sub_le_iff_le_add'.mpr (h.last_le.trans ht)
  have hspan : (r : ℤ) * (b.bucket.lastRefill - created : ℕ) ≤ r * (t : ℕ) := by
    exact_mod_cast Nat.mul_le_mul_left r htime
  have hpaid := h.paid
  have hdebt := h.debt_le
  have hcap := h.capacity
  unfold maxDebt at hdebt
  rw [hcap] at hpaid
  have hsum : (1000000000 : ℤ) * (total : ℕ) ≤
      1000000000 * (max (r / 10) 8192 + max 10000 (m + 2002) + m : ℕ) + r * (t : ℕ) := by
    push_cast at hpaid ⊢
    have htotal' : (total : ℤ) ≤ b.consumed + m := by exact_mod_cast htotal
    linarith
  exact_mod_cast hsum

/-- A loop asks the bucket for at least what it adds to `total`. -/
structure LimitedLoop.Counts (loop : LimitedLoop σ τ) (total : σ → ℕ) : Prop where
  turn : ∀ x t, total (loop.turn x t).state ≤ total x + (loop.turn x t).bytes
  report : ∀ x t bytes packets, total (loop.report x t bytes packets) = total x

/-- How the phase of the sender and that of its bucket fit: all sent before is consumed, and what
is being paid for is at most `m` bytes. -/
def LimitedState.Fits (total : σ → ℕ) (m base : ℕ) (s : LimitedState σ τ) : Prop :=
  match s.phase with
  | .paying _ bytes _ => total s.sender ≤ base + (s.bucket.consumed + bytes) ∧ bytes ≤ m ∧
    ∀ n, s.bucket.phase.asked = some n → n = bytes
  | _ => total s.sender ≤ base + s.bucket.consumed ∧ s.bucket.phase = .idle

structure LimitedInv (total : σ → ℕ) (r m base : ℕ) (created : Instant) (s : LimitedState σ τ) :
    Prop where
  bucket : BucketInv r m created s.bucket
  fits : s.Fits total m base

variable {loop : LimitedLoop σ τ} {total : σ → ℕ} {r m base : ℕ} {created : Instant}
  {s s' : LimitedState σ τ}

theorem LimitedInv.total_le (h : LimitedInv total r m base created s) :
    total s.sender ≤ base + (s.bucket.consumed + m) := by
  have hfits := h.fits
  unfold LimitedState.Fits at hfits
  split at hfits
  · omega
  · omega

theorem LimitedInv.step {e : LimitedEvent τ} (hcounts : loop.Counts total) (hpos : 1 ≤ r)
    (hr : r ≤ 1000000000) (hm : m ≤ 2 ^ 32) (h : LimitedInv total r m base created s)
    (hok : loop.Permits m s e) (hs : loop.step s e = some s') :
    LimitedInv total r m base created s' := by
  have hfits := h.fits
  unfold LimitedState.Fits at hfits
  cases LimitedLoop.step_rule hs with
  | @leave t x hphase hturn =>
    rw [hphase] at hfits
    have hturned := hcounts.turn s.sender t
    rw [hturn] at hturned
    exact ⟨h.bucket, hturned.trans hfits.1, hfits.2⟩
  | @again t x hphase hturn =>
    rw [hphase] at hfits
    have hturned := hcounts.turn s.sender t
    rw [hturn] at hturned
    refine ⟨h.bucket, ?_⟩
    unfold LimitedState.Fits
    simp only [hphase]
    exact ⟨hturned.trans hfits.1, hfits.2⟩
  | @sent t x bytes packets hphase hturn =>
    rw [hphase] at hfits
    have hbytes : (loop.turn s.sender t).bytes ≤ m := hok
    have hturned := hcounts.turn s.sender t
    rw [hturn] at hbytes hturned
    refine ⟨h.bucket, ?_, hbytes, fun n hn => ?_⟩
    · calc total x ≤ total s.sender + bytes := hturned
        _ ≤ base + s.bucket.consumed + bytes := Nat.add_le_add_right hfits.1 bytes
        _ = base + (s.bucket.consumed + bytes) := Nat.add_assoc ..
    · rw [show s.bucket.phase = .idle from hfits.2] at hn
      exact nomatch hn
  | waits hphase hasks hstep hidle =>
    rw [hphase] at hfits
    obtain ⟨htotal, hbytes, hasked⟩ := hfits
    obtain ⟨hsame, hbusy⟩ := (BucketRun.step_asked hasks hasked hstep).1 hidle
    refine ⟨h.bucket.step hpos hr hm hok.1 hok.2 hstep, ?_⟩
    unfold LimitedState.Fits
    simp only [hphase, hsame, hbusy]
    exact ⟨htotal, hbytes, fun n hn => (Option.some.inj hn).symm⟩
  | paid hphase hasks hstep hidle =>
    rw [hphase] at hfits
    obtain ⟨htotal, -, hasked⟩ := hfits
    have htaken := (BucketRun.step_asked hasks hasked hstep).2 hidle
    refine ⟨h.bucket.step hpos hr hm hok.1 hok.2 hstep, ?_, hidle⟩
    rw [htaken]
    exact htotal
  | report hphase =>
    rw [hphase] at hfits
    exact ⟨h.bucket, (hcounts.report _ _ _ _).le.trans hfits.1, hfits.2⟩

theorem limitedInv_start {x : σ} {bandwidth : ℕ} (hpos : 8 ≤ bandwidth)
    (hr : bandwidth / 8 ≤ 1000000000) :
    LimitedInv total (bandwidth / 8) m (total x) created
      (LimitedState.start (τ := τ) x bandwidth created) :=
  ⟨bucketInv_start (by omega) hr, Nat.le_add_right _ _, rfl⟩

/-! ### The bucket changes nothing but the clock -/

/-- What the loop makes of further turns from here, without the bucket. -/
def LimitedLoop.resume (loop : LimitedLoop σ τ) (s : LimitedState σ τ) (more : List τ) : σ :=
  match s.phase with
  | .head => loop.run s.sender more
  | .paying t bytes packets | .reporting t bytes packets =>
    loop.run (loop.report s.sender t bytes packets) more
  | .left => s.sender

theorem LimitedLoop.resume_step {e : LimitedEvent τ} (hs : loop.step s e = some s') :
    ∃ ts, ∀ more, loop.resume s (ts ++ more) = loop.resume s' more := by
  cases LimitedLoop.step_rule hs with
  | @leave t x hphase hturn =>
    refine ⟨[t], fun more => ?_⟩
    simp only [LimitedLoop.resume, hphase, List.singleton_append, LimitedLoop.run, hturn]
  | @again t x hphase hturn =>
    refine ⟨[t], fun more => ?_⟩
    simp only [LimitedLoop.resume, hphase, List.singleton_append, LimitedLoop.run, hturn]
  | @sent t x bytes packets hphase hturn =>
    refine ⟨[t], fun more => ?_⟩
    simp only [LimitedLoop.resume, hphase, List.singleton_append, LimitedLoop.run, hturn]
  | waits hphase =>
    refine ⟨[], fun more => ?_⟩
    simp only [LimitedLoop.resume, hphase, List.nil_append]
  | paid hphase =>
    refine ⟨[], fun more => ?_⟩
    simp only [LimitedLoop.resume, hphase, List.nil_append]
  | report hphase =>
    refine ⟨[], fun more => ?_⟩
    simp only [LimitedLoop.resume, hphase, List.nil_append]

/-- Every limited run is one of the plain loop, as far as it has come. -/
theorem LimitedLoop.resume_reach {ok : LimitedState σ τ → LimitedEvent τ → Prop} {x : σ}
    {bandwidth : ℕ} (h : Lts.Reach loop.step ok (LimitedState.start x bandwidth created) s) :
    ∃ ts, ∀ more, loop.run x (ts ++ more) = loop.resume s more := by
  induction h with
  | start => exact ⟨[], fun more => rfl⟩
  | next _ _ hs ih =>
    obtain ⟨ts, hts⟩ := ih
    obtain ⟨new, hnew⟩ := LimitedLoop.resume_step hs
    refine ⟨ts ++ new, fun more => ?_⟩
    rw [List.append_assoc, hts, hnew]

/-- What the turns and the rest of them keep, the limited loop keeps. -/
theorem LimitedLoop.keeps {ok : LimitedState σ τ → LimitedEvent τ → Prop} {I : σ → Prop}
    (hturn : ∀ x t, I x → I (loop.turn x t).state)
    (hreport : ∀ x t bytes packets, I x → I (loop.report x t bytes packets)) {x : σ}
    {bandwidth : ℕ} (hx : I x)
    (h : Lts.Reach loop.step ok (LimitedState.start x bandwidth created) s) : I s.sender := by
  refine h.invariant (I := fun s => I s.sender) hx ?_
  intro s e s' hinv _ hs
  cases LimitedLoop.step_rule hs with
  | @leave t x hphase heq =>
    have hnext := hturn s.sender t hinv
    rwa [heq] at hnext
  | @again t x hphase heq =>
    have hnext := hturn s.sender t hinv
    rwa [heq] at hnext
  | @sent t x bytes packets hphase heq =>
    have hnext := hturn s.sender t hinv
    rwa [heq] at hnext
  | waits hphase => exact hinv
  | paid hphase => exact hinv
  | report hphase => exact hreport _ _ _ _ hinv

end Loop

/-! ### The three senders -/

/-- `run_udp_send_standard` (`client.rs:982-1008`). -/
def standardSender (p : SendParams) : LimitedLoop SendState SendTick where
  turn st t :=
    if t.now - p.loop.start < p.loop.duration then
      if t.cancelled then .leave st
      else
        match t.result with
        | .error _ => .leave st
        | .ok n =>
          .sent { st with
            collector := recordSent st.collector n 1
            sequence := st.sequence + 1
            handed := st.handed ++ [⟨testPacket p st.sequence t.stamp, p.peer, n⟩] } n 1
    else .leave st
  report st t bytes packets := st.count p t.clock bytes packets

/-- `run_udp_send_batched` (`client.rs:1171-1206`). -/
def batchedSender (p : SendParams) : LimitedLoop BatchedState BatchTick where
  turn st t :=
    if t.now - p.loop.start < p.loop.duration then
      if t.cancelled then .leave st
      else
        let st := fillBatch p st t.fills
        if st.batch.isEmpty then .again st
        else
          match st.batch.send t.kernel with
          | (.error _, batch) => .leave { st with batch := batch }
          | (.ok (bytesSent, packetsSent), batch) =>
            .sent ⟨{ st.toSendState with
              collector := recordSent st.collector bytesSent packetsSent
              handed := st.handed ++ st.batch.handedBy t.kernel }, batch⟩ bytesSent packetsSent
    else .leave st
  report st t bytes packets := ⟨st.toSendState.count p t.clock bytes packets, st.batch⟩

/-- `send_one_way` (`client.rs:1917-1939`): whatever was sent, the whole buffer is consumed. -/
def oneWaySender (start : Instant) (duration : Duration) (buffer : SendBuffer) :
    LimitedLoop OneWaySendState OneWaySendTick where
  turn st t :=
    if t.now - start < duration then
      match t.result with
      | .ok n =>
        .sent
          { bytesSent := st.bytesSent + n
            packetsSent := st.packetsSent + 1
            seq := st.seq + 1
            sent := st.sent ++ [oneWayPacket buffer st.seq 0] } buffer.bytes.length 1
      | .error _ => .leave { st with seq := st.seq + 1 }
    else .leave st
  report st _ _ _ := st

theorem standardSender_run (p : SendParams) (st : SendState) (ts : List SendTick) :
    (standardSender p).run st ts = standardLoop p st ts := by
  induction ts generalizing st with
  | nil => rfl
  | cons t ts ih =>
    unfold LimitedLoop.run standardLoop
    simp only [standardSender]
    by_cases hnow : t.now - p.loop.start < p.loop.duration
    · rw [if_pos hnow, if_pos hnow]
      cases t.cancelled with
      | true => rfl
      | false =>
        cases t.result with
        | error kind => rfl
        | ok n => exact ih _
    · rw [if_neg hnow, if_neg hnow]

theorem batchedSender_run (p : SendParams) (st : BatchedState) (ts : List BatchTick) :
    (batchedSender p).run st ts = batchedLoop p st ts := by
  induction ts generalizing st with
  | nil => rfl
  | cons t ts ih =>
    unfold LimitedLoop.run batchedLoop
    simp only [batchedSender]
    by_cases hnow : t.now - p.loop.start < p.loop.duration
    · rw [if_pos hnow, if_pos hnow]
      cases t.cancelled with
      | true => rfl
      | false =>
        simp only [Bool.false_eq_true, if_false]
        cases hempty : (fillBatch p st t.fills).batch.isEmpty with
        | true => exact ih _
        | false =>
          simp only [Bool.false_eq_true, if_false]
          rcases (fillBatch p st t.fills).batch.send t.kernel with
            ⟨kind | ⟨bytesSent, packetsSent⟩, batch⟩
          · rfl
          · exact ih _
    · rw [if_neg hnow, if_neg hnow]

theorem oneWaySender_run (start : Instant) (duration : Duration) (buffer : SendBuffer)
    (st : OneWaySendState) (ts : List OneWaySendTick) :
    (oneWaySender start duration buffer).run st ts =
      (oneWaySendLoop start duration buffer st ts).2 := by
  induction ts generalizing st with
  | nil => rfl
  | cons t ts ih =>
    unfold LimitedLoop.run oneWaySendLoop
    simp only [oneWaySender]
    by_cases hnow : t.now - start < duration
    · rw [if_pos hnow, if_pos hnow]
      cases t.result with
      | error kind => rfl
      | ok n => exact ih _
    · rw [if_neg hnow, if_neg hnow]

/-! ### What they send within their limit -/

theorem standardSender_counts (p : SendParams) :
    (standardSender p).Counts (fun st => bytesHanded st.handed) where
  turn st t := by
    simp only [standardSender]
    split
    · split
      · exact Nat.le_refl _
      · cases t.result with
        | error kind => exact Nat.le_refl _
        | ok n => exact (bytesHanded_append _ _).le
    · exact Nat.le_refl _
  report st t bytes packets := congrArg bytesHanded (count_frame p st t.clock bytes packets).1

theorem batchedSender_counts (p : SendParams) :
    (batchedSender p).Counts (fun st => bytesHanded st.handed) where
  turn st t := by
    have hfill := congrArg bytesHanded (fillBatch_frame p st t.fills).2
    simp only [batchedSender]
    split
    · split
      · exact Nat.le_refl _
      · split
        · exact hfill.le
        · rcases hsend : (fillBatch p st t.fills).batch.send t.kernel with
            ⟨kind | ⟨bytesSent, packetsSent⟩, batch⟩
          · exact hfill.le
          · have hbytes : bytesSent = bytesHanded _ := (send_ok hsend).2.2.1
            refine le_of_eq ((bytesHanded_append _ _).trans ?_)
            rw [hfill, ← hbytes]
            rfl
    · exact Nat.le_refl _
  report st t bytes packets :=
    congrArg bytesHanded (count_frame p st.toSendState t.clock bytes packets).1

theorem oneWaySender_counts (start : Instant) (duration : Duration) (buffer : SendBuffer) :
    (oneWaySender start duration buffer).Counts
      (fun st => (st.sent.map List.length).sum) where
  turn st t := by
    simp only [oneWaySender]
    split
    · cases t.result with
      | error kind => exact Nat.le_refl _
      | ok n =>
        simp only [Turn.state, Turn.bytes, List.map_append, List.sum_append, List.map_cons,
          List.map_nil, List.sum_singleton, length_oneWayPacket]
        exact Nat.le_refl _
    · exact Nat.le_refl _
  report _ _ _ _ := rfl

section Reached

variable {m bandwidth : ℕ} {created : Instant} {p : SendParams} {c : MeasurementsCollector}

theorem standardSender_reach {ok : LimitedState SendState SendTick → LimitedEvent SendTick → Prop}
    {s : LimitedState SendState SendTick}
    (h : Lts.Reach (standardSender p).step ok
      (LimitedState.start (SendState.init p c) bandwidth created) s) :
    SentBy p c s.sender.handed ∧
      Grown c s.sender.collector (bytesHanded s.sender.handed) 0 := by
  constructor
  · obtain ⟨ts, hts⟩ := LimitedLoop.resume_reach h
    have hrun := congrArg SendState.handed (hts [])
    rw [standardSender_run, List.append_nil] at hrun
    have hresumed : ((standardSender p).resume s []).handed = s.sender.handed := by
      unfold LimitedLoop.resume
      split
      · rfl
      · exact (count_frame p s.sender _ _ _).1
      · exact (count_frame p s.sender _ _ _).1
      · rfl
    rw [← hresumed, ← hrun]
    exact .standard ts 0
  · refine LimitedLoop.keeps (I := fun st => Grown c st.collector (bytesHanded st.handed) 0)
      ?_ ?_ (grown_refl c) h
    · intro st t hst
      simp only [standardSender]
      split
      · split
        · exact hst
        · cases t.result with
          | error kind => exact hst
          | ok n =>
            simp only [Turn.state, bytesHanded_append]
            exact hst.trans (grown_recordSent _ n 1)
      · exact hst
    · intro st t bytes packets hst
      rw [show ((standardSender p).report st t bytes packets).handed = st.handed from
        (count_frame p st t.clock bytes packets).1]
      exact SendState.count_collector _ _ _ _ _ hst

theorem batchedSender_reach
    {ok : LimitedState BatchedState BatchTick → LimitedEvent BatchTick → Prop}
    {s : LimitedState BatchedState BatchTick}
    (h : Lts.Reach (batchedSender p).step ok
      (LimitedState.start ⟨SendState.init p c, UdpSendBatch.new⟩ bandwidth created) s) :
    SentBy p c s.sender.handed ∧
      Grown c s.sender.collector (bytesHanded s.sender.handed) 0 := by
  constructor
  · obtain ⟨ts, hts⟩ := LimitedLoop.resume_reach h
    have hrun := congrArg (fun st : BatchedState => st.handed) (hts [])
    rw [batchedSender_run, List.append_nil] at hrun
    have hresumed : ((batchedSender p).resume s []).handed = s.sender.handed := by
      unfold LimitedLoop.resume
      split
      · rfl
      · exact (count_frame p s.sender.toSendState _ _ _).1
      · exact (count_frame p s.sender.toSendState _ _ _).1
      · rfl
    rw [← hresumed, ← hrun]
    exact .batched ts 0
  · refine LimitedLoop.keeps (I := fun st => Grown c st.collector (bytesHanded st.handed) 0)
      ?_ ?_ (grown_refl c) h
    · intro st t hst
      obtain ⟨hcollector, hhanded⟩ := fillBatch_frame p st t.fills
      have hfilled : Grown c (fillBatch p st t.fills).collector
          (bytesHanded (fillBatch p st t.fills).handed) 0 := by
        rwa [hcollector, hhanded]
      simp only [batchedSender]
      split
      · split
        · exact hst
        · split
          · exact hfilled
          · rcases hsend : (fillBatch p st t.fills).batch.send t.kernel with
              ⟨kind | ⟨bytesSent, packetsSent⟩, batch⟩
            · exact hfilled
            · have hbytes : bytesSent = bytesHanded _ := (send_ok hsend).2.2.1
              simp only [Turn.state, bytesHanded_append, ← hbytes]
              exact hfilled.trans (grown_recordSent _ bytesSent packetsSent)
      · exact hst
    · intro st t bytes packets hst
      rw [show ((batchedSender p).report st t bytes packets).handed = st.handed from
        (count_frame p st.toSendState t.clock bytes packets).1]
      exact SendState.count_collector _ _ _ _ _ hst

end Reached

def SendParams.limited (p : SendParams) (bandwidth : ℕ) : SendParams :=
  { p with bandwidth := some bandwidth }

def LimitedLoop.Reaches {σ τ : Type} (loop : LimitedLoop σ τ) (x : σ) (bandwidth m : ℕ)
    (created : Instant) (s : LimitedState σ τ) : Prop :=
  Lts.Reach loop.step (loop.Permits m) (LimitedState.start x bandwidth created) s

theorem LimitedLoop.Reaches.withinRate {σ τ : Type} {loop : LimitedLoop σ τ} {total : σ → ℕ}
    (hcounts : loop.Counts total) {x : σ} {bandwidth m : ℕ} {created : Instant}
    {s : LimitedState σ τ} (h : loop.Reaches x bandwidth m created s) (hlow : 8 ≤ bandwidth)
    (hhigh : bandwidth / 8 ≤ 1000000000) (hm : m ≤ 2 ^ 32) (hx : total x = 0) :
    WithinRate (bandwidth / 8) m created s.bucket.clock (total s.sender) := by
  have hrate : 1 ≤ bandwidth / 8 := by omega
  have hinv : LimitedInv total (bandwidth / 8) m (total x) created s :=
    h.invariant (limitedInv_start hlow hhigh)
      (fun _ _ _ hi hok hs => hi.step hcounts hrate hhigh hm hok hs)
  have htotal := hinv.total_le
  rw [hx, Nat.zero_add] at htotal
  exact hinv.bucket.withinRate htotal

/-- What a sender has handed over is the numbered stream of a test, counted in its collector, and
no more than the bucket lets through. -/
structure SentWithin (p : SendParams) (c : MeasurementsCollector) (bandwidth m : ℕ)
    (created clock : Instant) (st : SendState) : Prop where
  stream : SentBy p c st.handed
  counted : Grown c st.collector (bytesHanded st.handed) 0
  rate : WithinRate (bandwidth / 8) m created clock (bytesHanded st.handed)

/-- At every moment of a run with a limit, also while it waits, a sender has sent no more than its
bucket lets through, and nothing that it would not send without one. -/
theorem limitedSend_rate (p : SendParams) (c : MeasurementsCollector) (start : Instant)
    (duration : Duration) (buffer : SendBuffer) (bandwidth m : ℕ) (created : Instant)
    (hlow : 8 ≤ bandwidth) (hhigh : bandwidth / 8 ≤ 1000000000) (hm : m ≤ 2 ^ 32) :
    (∀ s, (standardSender (p.limited bandwidth)).Reaches (SendState.init (p.limited bandwidth) c)
        bandwidth m created s →
      SentWithin (p.limited bandwidth) c bandwidth m created s.bucket.clock s.sender) ∧
    (∀ s, (batchedSender (p.limited bandwidth)).Reaches
        ⟨SendState.init (p.limited bandwidth) c, UdpSendBatch.new⟩ bandwidth m created s →
      SentWithin (p.limited bandwidth) c bandwidth m created s.bucket.clock
        s.sender.toSendState) ∧
    (∀ s, (oneWaySender start duration buffer).Reaches ⟨0, 0, 0, []⟩ bandwidth m created s →
      (∃ ticks, s.sender = (oneWaySendLoop start duration buffer ⟨0, 0, 0, []⟩ ticks).2) ∧
      WithinRate (bandwidth / 8) m created s.bucket.clock
        (s.sender.sent.map List.length).sum) := by
  refine ⟨fun s hs => ?_, fun s hs => ?_, fun s hs => ⟨?_, ?_⟩⟩
  · obtain ⟨hstream, hcounted⟩ := standardSender_reach hs
    exact ⟨hstream, hcounted, hs.withinRate (standardSender_counts _) hlow hhigh hm rfl⟩
  · obtain ⟨hstream, hcounted⟩ := batchedSender_reach hs
    exact ⟨hstream, hcounted, hs.withinRate (batchedSender_counts _) hlow hhigh hm rfl⟩
  · obtain ⟨ts, hts⟩ := LimitedLoop.resume_reach hs
    refine ⟨ts, ?_⟩
    rw [← oneWaySender_run, ← List.append_nil ts, hts []]
    unfold LimitedLoop.resume
    split <;> rfl
  · exact hs.withinRate (oneWaySender_counts start duration buffer) hlow hhigh hm rfl

/-- Datagrams of 9000 bytes at 65536 bits a second: the first is already more than the bucket
holds. -/
def bigTest : SendParams :=
  { smallTest with loop := ⟨0, 1000000000, 1000000000⟩, bufferSize := 9000 }

def bigSends : List (LimitedEvent SendTick) :=
  let stamp : Stamp := ⟨TimestampCache.new 0 0, ⟨0, 0, 0⟩⟩
  [.turn ⟨0, false, stamp, .ok 9000, ⟨98632562, 98632562, 98632562, 98632562⟩⟩,
    .bucket (.call 9000 1),
    .bucket (.wake 98632561), .bucket .take, .report,
    .turn ⟨98632570, false, stamp, .ok 9000, ⟨98632580, 98632580, 98632580, 98632580⟩⟩,
    .bucket (.call 9000 98632575)]

theorem limitedSend_rate_waiting :
    ∃ s : LimitedState SendState SendTick,
      (s.sender.handed.length = 2 ∧ s.bucket.consumed = 9000 ∧ s.bucket.phase ≠ .idle) ∧
      SentWithin (bigTest.limited 65536) .new 65536 9000 0 s.bucket.clock s.sender := by
  have hrun : (Lts.run (standardSender (bigTest.limited 65536)).step
      ((standardSender (bigTest.limited 65536)).Permits 9000)
      (LimitedState.start (SendState.init (bigTest.limited 65536) .new) 65536 0) bigSends).any
      (fun s => s.sender.handed.length = 2 ∧ s.bucket.consumed = 9000 ∧
        s.bucket.phase ≠ .idle) = true := by
    decide +kernel
  obtain ⟨s, hs, hend⟩ := (Option.any_eq_true _ _).mp hrun
  exact ⟨s, of_decide_eq_true hend,
    (limitedSend_rate bigTest .new 0 0 ⟨List.replicate 8 0, by decide⟩ 65536 9000 0
      (by decide) (by decide) (by decide)).1 s (Lts.Reach.start.run hs)⟩

end Rperf3
