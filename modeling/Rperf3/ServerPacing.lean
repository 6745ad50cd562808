import Rperf3.Config
import Rperf3.ServerLoops

/-!
# The bandwidth limit of the server's senders (`server.rs:907-966`, `1170-1206`)

The loops that send, with what `Rperf3.ServerLoops` leaves out of them: the check
of the bandwidth limit after a successful send, the `u32` sequence number, and
the deadline of one-way send mode. Each has a value of the `Setup` message or a
length of the run for which it panics; where it does not, the loop is the one of
`Rperf3.ServerLoops` (`pacedLoop_steps`).
-/

namespace Rperf3

inductive Fault where
  /-- a division by a zero target rate, and a sleep of infinite length -/
  | zeroRate
  | sequenceOverflow
  | instantOverflow
  deriving DecidableEq

/-- The last `Instant` on Linux: seconds are an `i64`. -/
def instantMax : Instant := (2 ^ 63 - 1) * 1000000000 + 999999999

/-- An iteration of a sending loop, with the readings of the bandwidth check:
`last_bandwidth_check.elapsed()` and the new `last_bandwidth_check`. -/
structure PacedEvent where
  io : LoopEvent UInt64
  check : Instant
  checked : Instant

/-- `target_bytes_per_sec`, and whether the sender numbers its packets. -/
structure Pacing where
  targetBytesPerSec : Option ℕ
  numbered : Bool

structure PacingState where
  sequence : UInt32
  totalBytesSent : UInt64
  lastBandwidthCheck : Instant

/-- `(target_bps as f64 * elapsed) as u64`. -/
def expectedBytes (targetBps : ℕ) (elapsed : Duration) : ℕ :=
  min (targetBps * elapsed / 1000000000) (2 ^ 64 - 1)

def bandwidthSleep (targetBps totalBytesSent : ℕ) (elapsed : Duration) :
    Except Fault (Option F64) :=
  if totalBytesSent > expectedBytes targetBps elapsed then
    let bytesAhead := totalBytesSent - expectedBytes targetBps elapsed
    if targetBps = 0 then .error .zeroRate
    else
      let sleepTime := (bytesAhead : F64) / targetBps
      .ok (if sleepTime > 1 / 10000 then some sleepTime else none)
  else .ok none

def nextSequence (pacing : Pacing) (sequence : UInt32) : Except Fault UInt32 :=
  if pacing.numbered then
    if sequence = 4294967295 then .error .sequenceOverflow else .ok (sequence + 1)
  else .ok sequence

def PacingState.checkBandwidth (p : PacingState) (pacing : Pacing) (e : PacedEvent) :
    Except Fault PacingState :=
  match pacing.targetBytesPerSec with
  | none => .ok p
  | some targetBps =>
    let elapsed := e.check - p.lastBandwidthCheck
    -- the check is made once a millisecond
    if elapsed ≥ 1000000 then
      match bandwidthSleep targetBps p.totalBytesSent.toNat elapsed with
      | .error fault => .error fault
      | .ok _ => .ok { p with totalBytesSent := 0, lastBandwidthCheck := e.checked }
    else .ok p

def PacingState.afterSend (p : PacingState) (pacing : Pacing) (n : UInt64) (e : PacedEvent) :
    Except Fault PacingState :=
  match nextSequence pacing p.sequence with
  | .error fault => .error fault
  | .ok sequence =>
    { p with sequence := sequence, totalBytesSent := p.totalBytesSent + n }.checkBandwidth pacing e

/-- What a phase does, up to the fault that ends it. -/
structure PhaseRun where
  steps : List HandlerStep
  fault : Option Fault

def PhaseRun.after (calls : List HandlerStep) (r : PhaseRun) : PhaseRun :=
  { r with steps := calls ++ r.steps }

/-- `send_data` and `send_udp_data` with their bandwidth limit. -/
def pacedLoop (body : LoopBody UInt64) (cfg : LoopConfig) (pacing : Pacing) :
    LoopState → PacingState → List PacedEvent → PhaseRun
  | _, _, [] => ⟨[], none⟩
  | st, p, e :: es =>
    if e.io.now - cfg.start < cfg.duration then
      match e.io.result with
      | .ok n =>
        match body.onIo n with
        | none => ⟨[], none⟩
        | some (calls, bytes, packets) =>
          let st := { st with
            intervalBytes := st.intervalBytes + bytes
            intervalPackets := st.intervalPackets + packets }
          match p.afterSend pacing n e with
          | .error fault => ⟨calls.map .call, some fault⟩
          | .ok p =>
            if e.io.clock.check - st.lastInterval ≥ cfg.interval then
              let stats := intervalStats cfg (body.packets st) st e.io.clock
              (pacedLoop body cfg pacing ⟨e.io.clock.reset, 0, 0⟩ p es).after
                (calls.map .call ++ (body.reads ++ [.call (.addInterval stats)]))
            else (pacedLoop body cfg pacing st p es).after (calls.map .call)
      | .error _ => ⟨[], none⟩
      | .timeout => pacedLoop body cfg pacing st p es
    else ⟨[], none⟩

/-- What the network and the clock do in a data phase; `interval` is the server's own. -/
structure PhaseEnv where
  start : Instant
  interval : Duration
  sends : List PacedEvent
  tcpReads : List (LoopEvent UInt64)
  udpReads : List (LoopEvent (Bytes × UInt64))

namespace ServerTest

def loopConfig (t : ServerTest) (env : PhaseEnv) : LoopConfig :=
  ⟨env.start, t.duration, env.interval⟩

def sendPhase (t : ServerTest) (env : PhaseEnv) (body : LoopBody UInt64) (numbered : Bool) :
    PhaseRun :=
  pacedLoop body (t.loopConfig env) ⟨t.bandwidth.map (· / 8), numbered⟩ (t.loopConfig env).first
    ⟨0, 0, env.start⟩ env.sends

/-- The data phase chosen by `handle_tcp_client` and `handle_udp_test` (`server.rs:694-870`). -/
def dataPhase (t : ServerTest) (env : PhaseEnv) : PhaseRun :=
  let cfg := t.loopConfig env
  if t.udp then
    match t.oneWay with
    | .send =>
      -- `test_end = start + duration`; the receiver's other arithmetic saturates or wraps
      if env.start + t.duration > instantMax then ⟨[], some .instantOverflow⟩ else ⟨[], none⟩
    | .receive => t.sendPhase env sendUdpData true
    | .none =>
      if t.reverse then t.sendPhase env sendUdpData true
      else ⟨dataLoop receiveUdpData cfg cfg.first env.udpReads, none⟩
  else if t.reverse then t.sendPhase env sendData false
  else ⟨dataLoop receiveData cfg cfg.first env.tcpReads, none⟩

end ServerTest

/-! ### The inputs without a fault -/

/-- The successful sends of a loop: those before its end and before the first error. -/
def sendsOf (cfg : LoopConfig) : List PacedEvent → List (UInt64 × PacedEvent)
  | [] => []
  | e :: es =>
    if e.io.now - cfg.start < cfg.duration then
      match e.io.result with
      | .ok n => (n, e) :: sendsOf cfg es
      | .error _ => []
      | .timeout => sendsOf cfg es
    else []

/-- No send at a millisecond or more after the last bandwidth check has had bytes sent since
then. -/
def Quiet (lastCheck : Instant) (sent : UInt64) : List (UInt64 × PacedEvent) → Prop
  | [] => True
  | (n, e) :: sends =>
    if e.check - lastCheck ≥ 1000000 then sent + n = 0 ∧ Quiet e.checked 0 sends
    else Quiet lastCheck (sent + n) sends

namespace ServerTest

/-- The server sends: in a reversed test, and in one-way receive mode of UDP. -/
def Sends (t : ServerTest) : Prop :=
  if t.udp then t.oneWay = .receive ∨ t.oneWay = .none ∧ t.reverse = true else t.reverse = true

/-- The deadline of one-way send mode can be represented; a UDP sender sends fewer than `2 ^ 32`
packets; a sender with a limit below one byte per second finishes before its limit is checked. -/
structure Safe (t : ServerTest) (env : PhaseEnv) : Prop where
  deadline : t.udp = true → t.oneWay = .send → env.start + t.duration ≤ instantMax
  numbers : t.udp = true → t.Sends → (sendsOf (t.loopConfig env) env.sends).length < 2 ^ 32
  rate : t.Sends → ∀ bw ∈ t.bandwidth, bw < 8 →
    Quiet env.start 0 (sendsOf (t.loopConfig env) env.sends)

end ServerTest

/-! ### One send -/

section Send

variable {pacing : Pacing} {p p' : PacingState} {n : UInt64} {e : PacedEvent}

theorem bandwidthSleep_of_pos {targetBps : ℕ} (h : targetBps ≠ 0) (totalBytesSent : ℕ)
    (elapsed : Duration) :
    ∃ sleep, bandwidthSleep targetBps totalBytesSent elapsed = .ok sleep := by
  unfold bandwidthSleep
  by_cases hahead : totalBytesSent > expectedBytes targetBps elapsed
  · rw [if_pos hahead]
    exact ⟨_, if_neg h⟩
  · exact ⟨none, if_neg hahead⟩

theorem bandwidthSleep_zero (totalBytesSent : ℕ) (elapsed : Duration) :
    bandwidthSleep 0 totalBytesSent elapsed =
      if totalBytesSent = 0 then .ok none else .error .zeroRate := by
  have hexpected : expectedBytes 0 elapsed = 0 := by
    rw [expectedBytes, Nat.zero_mul, Nat.zero_div, Nat.zero_min]
  unfold bandwidthSleep
  rw [hexpected]
  by_cases h : totalBytesSent = 0
  · rw [if_pos h, if_neg (by omega)]
  · rw [if_neg h, if_pos (by omega), if_pos rfl]

theorem nextSequence_spec (pacing : Pacing) (sequence : UInt32) :
    (∃ next, nextSequence pacing sequence = .ok next ∧
      (pacing.numbered = true → next.toNat = sequence.toNat + 1)) ∨
    (pacing.numbered = true ∧ sequence.toNat + 1 = 2 ^ 32 ∧
      nextSequence pacing sequence = .error .sequenceOverflow) := by
  unfold nextSequence
  by_cases hnumbered : pacing.numbered = true
  · by_cases hlast : sequence = 4294967295
    · refine .inr ⟨hnumbered, ?_, ?_⟩
      · rw [hlast]
        rfl
      · rw [if_pos hnumbered, if_pos hlast]
    · refine .inl ⟨sequence + 1, ?_, fun _ => ?_⟩
      · rw [if_pos hnumbered, if_neg hlast]
      · have hlt := sequence.toNat_lt
        have hne : sequence.toNat ≠ 4294967295 := fun heq => hlast (UInt32.toNat_inj.mp heq)
        have hone : (1 : UInt32).toNat = 1 := rfl
        rw [UInt32.toNat_add, hone]
        omega
  · exact .inl ⟨sequence, if_neg hnumbered, fun h => absurd h hnumbered⟩

structure StepSafe (pacing : Pacing) (p : PacingState) (n : UInt64) (e : PacedEvent) : Prop where
  number : pacing.numbered = true → p.sequence.toNat + 1 < 2 ^ 32
  check : pacing.targetBytesPerSec = some 0 → e.check - p.lastBandwidthCheck ≥ 1000000 →
    p.totalBytesSent + n = 0

/-- The state after a send with a zero rate. -/
def Checked (p : PacingState) (n : UInt64) (e : PacedEvent) (p' : PacingState) : Prop :=
  if e.check - p.lastBandwidthCheck ≥ 1000000 then
    p'.totalBytesSent = 0 ∧ p'.lastBandwidthCheck = e.checked
  else p'.totalBytesSent = p.totalBytesSent + n ∧ p'.lastBandwidthCheck = p.lastBandwidthCheck

theorem checkBandwidth_ok (hcheck : pacing.targetBytesPerSec = some 0 →
      e.check - p.lastBandwidthCheck ≥ 1000000 → p.totalBytesSent = 0) :
    ∃ p', p.checkBandwidth pacing e = .ok p' ∧ p'.sequence = p.sequence ∧
      (pacing.targetBytesPerSec = some 0 → Checked p 0 e p') := by
  unfold PacingState.checkBandwidth Checked
  cases htarget : pacing.targetBytesPerSec with
  | none => exact ⟨p, rfl, rfl, fun h => nomatch h⟩
  | some targetBps =>
    simp only
    by_cases hdue : e.check - p.lastBandwidthCheck ≥ 1000000
    · obtain ⟨sleep, hsleep⟩ : ∃ sleep, bandwidthSleep targetBps p.totalBytesSent.toNat
          (e.check - p.lastBandwidthCheck) = .ok sleep := by
        by_cases hzero : targetBps = 0
        · subst hzero
          rw [bandwidthSleep_zero, hcheck htarget hdue]
          exact ⟨none, rfl⟩
        · exact bandwidthSleep_of_pos hzero ..
      rw [if_pos hdue, hsleep]
      exact ⟨_, rfl, rfl, fun _ => by rw [if_pos hdue]; exact ⟨rfl, rfl⟩⟩
    · rw [if_neg hdue]
      exact ⟨p, rfl, rfl, fun _ => by rw [if_neg hdue]; exact ⟨(UInt64.add_zero _).symm, rfl⟩⟩

theorem checkBandwidth_error (hzero : pacing.targetBytesPerSec = some 0)
    (hdue : e.check - p.lastBandwidthCheck ≥ 1000000) (hsent : p.totalBytesSent ≠ 0) :
    p.checkBandwidth pacing e = .error .zeroRate := by
  have hnat : p.totalBytesSent.toNat ≠ 0 := fun h => hsent (UInt64.toNat_inj.mp h)
  unfold PacingState.checkBandwidth
  rw [hzero]
  simp only [if_pos hdue, bandwidthSleep_zero, if_neg hnat]

theorem afterSend_ok (h : StepSafe pacing p n e) :
    ∃ p', p.afterSend pacing n e = .ok p' ∧
      (pacing.numbered = true → p'.sequence.toNat = p.sequence.toNat + 1) ∧
      (pacing.targetBytesPerSec = some 0 → Checked p n e p') := by
  unfold PacingState.afterSend
  rcases nextSequence_spec pacing p.sequence with ⟨next, hnext, hnumber⟩ | ⟨hnumbered, hlast, -⟩
  · rw [hnext]
    obtain ⟨p', hp', hsequence, hchecked⟩ := checkBandwidth_ok
      (p := { p with sequence := next, totalBytesSent := p.totalBytesSent + n }) h.check
    refine ⟨p', hp', fun hnumbered => ?_, fun hzero => ?_⟩
    · rw [hsequence]
      exact hnumber hnumbered
    · have hstate := hchecked hzero
      unfold Checked at hstate ⊢
      rwa [UInt64.add_zero] at hstate
  · have hlt := h.number hnumbered
    omega

theorem afterSend_error (h : ¬ StepSafe pacing p n e) :
    ∃ fault, p.afterSend pacing n e = .error fault := by
  unfold PacingState.afterSend
  rcases nextSequence_spec pacing p.sequence with ⟨next, hnext, hnumber⟩ | ⟨-, -, hoverflow⟩
  · rw [hnext]
    have hbad : pacing.targetBytesPerSec = some 0 ∧
        e.check - p.lastBandwidthCheck ≥ 1000000 ∧ p.totalBytesSent + n ≠ 0 := by
      by_contra hgood
      refine h ⟨fun hnumbered => ?_, fun hzero hdue => ?_⟩
      · have hlt := next.toNat_lt
        have hnext' := hnumber hnumbered
        omega
      · by_contra hsent
        exact hgood ⟨hzero, hdue, hsent⟩
    exact ⟨.zeroRate, checkBandwidth_error hbad.1 hbad.2.1 hbad.2.2⟩
  · rw [hoverflow]
    exact ⟨.sequenceOverflow, rfl⟩

end Send

/-! ### A sending loop -/

section Loop

variable {body : LoopBody UInt64} {cfg : LoopConfig} {pacing : Pacing}

theorem loopSafe_next {p p' : PacingState} {n : UInt64} {e : PacedEvent}
    (rest : List (UInt64 × PacedEvent)) (h : StepSafe pacing p n e)
    (hnumber : pacing.numbered = true → p'.sequence.toNat = p.sequence.toNat + 1)
    (hchecked : pacing.targetBytesPerSec = some 0 → Checked p n e p') :
    (pacing.numbered = true → p'.sequence.toNat + rest.length < 2 ^ 32) ∧
        (pacing.targetBytesPerSec = some 0 → Quiet p'.lastBandwidthCheck p'.totalBytesSent rest) ↔
      (pacing.numbered = true → p.sequence.toNat + (rest.length + 1) < 2 ^ 32) ∧
        (pacing.targetBytesPerSec = some 0 →
          Quiet p.lastBandwidthCheck p.totalBytesSent ((n, e) :: rest)) := by
  refine and_congr (forall_congr' fun hnumbered => ?_) (forall_congr' fun hzero => ?_)
  · rw [hnumber hnumbered]
    omega
  · have hstate := hchecked hzero
    unfold Checked at hstate
    rw [Quiet]
    by_cases hdue : e.check - p.lastBandwidthCheck ≥ 1000000
    · rw [if_pos hdue] at hstate
      rw [if_pos hdue, hstate.1, hstate.2, and_iff_right (h.check hzero hdue)]
    · rw [if_neg hdue] at hstate
      rw [if_neg hdue, hstate.1, hstate.2]

theorem pacedLoop_fault_iff (cfg : LoopConfig) (pacing : Pacing)
    (hbody : ∀ n, body.onIo n ≠ none) (st : LoopState) (p : PacingState) (es : List PacedEvent) :
    (pacedLoop body cfg pacing st p es).fault = none ↔
      (pacing.numbered = true → p.sequence.toNat + (sendsOf cfg es).length < 2 ^ 32) ∧
        (pacing.targetBytesPerSec = some 0 →
          Quiet p.lastBandwidthCheck p.totalBytesSent (sendsOf cfg es)) := by
  induction es generalizing st p with
  | nil => exact iff_of_true rfl ⟨fun _ => p.sequence.toNat_lt, fun _ => trivial⟩
  | cons e es ih =>
    unfold pacedLoop sendsOf
    by_cases hnow : e.io.now - cfg.start < cfg.duration
    · rw [if_pos hnow, if_pos hnow]
      cases hresult : e.io.result with
      | error kind => exact iff_of_true rfl ⟨fun _ => p.sequence.toNat_lt, fun _ => trivial⟩
      | timeout => exact ih st p
      | ok n =>
        obtain ⟨⟨calls, bytes, packets⟩, hio⟩ := Option.ne_none_iff_exists'.mp (hbody n)
        simp only [hio, List.length_cons]
        by_cases hsafe : StepSafe pacing p n e
        · obtain ⟨p', hp', hnumber, hchecked⟩ := afterSend_ok hsafe
          have hrest := loopSafe_next (sendsOf cfg es) hsafe hnumber hchecked
          rw [hp']
          simp only
          split
          · exact (ih _ p').trans hrest
          · exact (ih _ p').trans hrest
        · obtain ⟨fault, hfault⟩ := afterSend_error hsafe
          rw [hfault]
          refine iff_of_false (Option.some_ne_none fault) (fun h => hsafe ⟨?_, ?_⟩)
          · intro hnumbered
            have hlt := h.1 hnumbered
            omega
          · intro hzero hdue
            have hquiet := h.2 hzero
            rw [Quiet, if_pos hdue] at hquiet
            exact hquiet.1
    · rw [if_neg hnow, if_neg hnow]
      exact iff_of_true rfl ⟨fun _ => p.sequence.toNat_lt, fun _ => trivial⟩

/-- Without a fault, the loop does what it does without its bandwidth limit. -/
theorem pacedLoop_steps (hbody : ∀ n, body.onIo n ≠ none) (st : LoopState) (p : PacingState)
    (es : List PacedEvent) (h : (pacedLoop body cfg pacing st p es).fault = none) :
    (pacedLoop body cfg pacing st p es).steps = dataLoop body cfg st (es.map PacedEvent.io) := by
  induction es generalizing st p with
  | nil => rfl
  | cons e es ih =>
    unfold pacedLoop at h ⊢
    rw [List.map_cons, dataLoop]
    by_cases hnow : e.io.now - cfg.start < cfg.duration
    · rw [if_pos hnow] at h ⊢
      rw [if_pos hnow]
      cases hresult : e.io.result with
      | error kind => rfl
      | timeout =>
        rw [hresult] at h
        exact ih st p h
      | ok n =>
        rw [hresult] at h
        obtain ⟨⟨calls, bytes, packets⟩, hio⟩ := Option.ne_none_iff_exists'.mp (hbody n)
        simp only [hio] at h ⊢
        cases hsend : p.afterSend pacing n e with
        | error fault =>
          rw [hsend] at h
          exact nomatch h
        | ok p' =>
          rw [hsend] at h
          simp only at h ⊢
          split
          · next hdue =>
            rw [if_pos hdue] at h
            rw [PhaseRun.after, ih _ p' h, List.append_assoc, List.append_assoc]
            rfl
          · next hdue =>
            rw [if_neg hdue] at h
            rw [PhaseRun.after, ih _ p' h]
    · rw [if_neg hnow, if_neg hnow]

end Loop

/-! ### The data phase of a test -/

namespace ServerTest

variable {t : ServerTest} {env : PhaseEnv}

theorem target_eq_zero_iff (t : ServerTest) :
    t.bandwidth.map (· / 8) = some 0 ↔ ∃ bw ∈ t.bandwidth, bw < 8 := by
  rw [Option.map_eq_some_iff]
  refine exists_congr fun bw => and_congr_right fun _ => ?_
  omega

theorem sendPhase_fault_iff (t : ServerTest) (env : PhaseEnv) {body : LoopBody UInt64}
    (numbered : Bool) (hbody : ∀ n, body.onIo n ≠ none) :
    (t.sendPhase env body numbered).fault = none ↔
      (numbered = true → (sendsOf (t.loopConfig env) env.sends).length < 2 ^ 32) ∧
        ∀ bw ∈ t.bandwidth, bw < 8 →
          Quiet env.start 0 (sendsOf (t.loopConfig env) env.sends) := by
  have hloop := pacedLoop_fault_iff (t.loopConfig env) ⟨t.bandwidth.map (· / 8), numbered⟩ hbody
    (t.loopConfig env).first ⟨0, 0, env.start⟩ env.sends
  have hzero : (0 : UInt32).toNat = 0 := rfl
  simp only [target_eq_zero_iff, hzero, Nat.zero_add, forall_exists_index, and_imp] at hloop
  exact hloop

theorem sendUdpData_onIo (n : UInt64) : sendUdpData.onIo n ≠ none := Option.some_ne_none _
theorem sendData_onIo (n : UInt64) : sendData.onIo n ≠ none := Option.some_ne_none _

theorem safe_of_not_sends (hdeadline : ¬ (t.udp = true ∧ t.oneWay = .send)) (h : ¬ t.Sends) :
    t.Safe env where
  deadline hudp hsend := absurd ⟨hudp, hsend⟩ hdeadline
  numbers _ hsends := absurd hsends h
  rate hsends := absurd hsends h

theorem safe_iff_of_sends (hdeadline : ¬ (t.udp = true ∧ t.oneWay = .send)) (h : t.Sends) :
    t.Safe env ↔ (t.udp = true → (sendsOf (t.loopConfig env) env.sends).length < 2 ^ 32) ∧
      ∀ bw ∈ t.bandwidth, bw < 8 → Quiet env.start 0 (sendsOf (t.loopConfig env) env.sends) :=
  ⟨fun hsafe => ⟨fun hudp => hsafe.numbers hudp h, hsafe.rate h⟩,
    fun ⟨hnumbers, hrate⟩ => ⟨fun hudp hsend => absurd ⟨hudp, hsend⟩ hdeadline,
      fun hudp _ => hnumbers hudp, fun _ => hrate⟩⟩

theorem dataPhase_send_iff (hudp : t.udp = true) (hmode : t.oneWay = .send) :
    (t.dataPhase env).fault = none ↔ env.start + t.duration ≤ instantMax := by
  unfold dataPhase
  rw [if_pos hudp, hmode]
  simp only
  by_cases hlate : env.start + t.duration > instantMax
  · rw [if_pos hlate]
    exact iff_of_false (Option.some_ne_none _) hlate.not_ge
  · rw [if_neg hlate]
    exact iff_of_true rfl (Nat.le_of_not_lt hlate)

theorem fault_iff_safe (t : ServerTest) (env : PhaseEnv) :
    (t.dataPhase env).fault = none ↔ t.Safe env := by
  by_cases hdeadline : t.udp = true ∧ t.oneWay = .send
  · obtain ⟨hudp, hmode⟩ := hdeadline
    have hsends : ¬ t.Sends := by simp [Sends, hudp, hmode]
    rw [dataPhase_send_iff hudp hmode]
    exact ⟨fun hle => ⟨fun _ _ => hle, fun _ h => absurd h hsends, fun h => absurd h hsends⟩,
      fun hsafe => hsafe.deadline hudp hmode⟩
  by_cases hsends : t.Sends
  · rw [safe_iff_of_sends hdeadline hsends]
    unfold Sends at hsends
    unfold dataPhase
    by_cases hudp : t.udp = true
    · rw [if_pos hudp] at hsends ⊢
      rw [hudp]
      rcases hsends with hmode | ⟨hmode, hreverse⟩
      · rw [hmode]
        exact t.sendPhase_fault_iff env true sendUdpData_onIo
      · rw [hmode]
        simpa only [if_pos hreverse] using t.sendPhase_fault_iff env true sendUdpData_onIo
    · rw [if_neg hudp] at hsends
      rw [if_neg hudp, if_pos hsends, Bool.eq_false_iff.mpr hudp]
      exact t.sendPhase_fault_iff env false sendData_onIo
  · refine iff_of_true ?_ (safe_of_not_sends hdeadline hsends)
    unfold Sends at hsends
    unfold dataPhase
    by_cases hudp : t.udp = true
    · rw [if_pos hudp] at hsends ⊢
      cases hmode : t.oneWay with
      | send => exact absurd ⟨hudp, hmode⟩ hdeadline
      | receive => exact absurd (.inl hmode) hsends
      | none =>
        have hforward : ¬ t.reverse = true := fun hreverse => hsends (.inr ⟨hmode, hreverse⟩)
        simp only [if_neg hforward]
    · rw [if_neg hudp] at hsends
      rw [if_neg hudp, if_neg hsends]

end ServerTest

/-- The fault of the handler that has received a message; one that is not `Setup` ends it before
the data phase. -/
def handlerFault (m : Message) (env : PhaseEnv) : Option Fault :=
  (ServerTest.ofSetup m).bind (fun t => (t.dataPhase env).fault)

def SafeSetup (m : Message) (env : PhaseEnv) : Prop :=
  ∀ t, ServerTest.ofSetup m = some t → t.Safe env

/-- The messages and environments for which the data phase of the handler has no fault. -/
theorem handlerFault_iff (m : Message) (env : PhaseEnv) :
    handlerFault m env = none ↔ SafeSetup m env := by
  unfold handlerFault SafeSetup
  cases ServerTest.ofSetup m with
  | none => exact iff_of_true rfl (fun t h => nomatch h)
  | some t =>
    rw [Option.bind_some, t.fault_iff_safe env]
    exact ⟨fun h t' ht' => Option.some.inj ht' ▸ h, fun h => h t rfl⟩

/-- One write of a byte, and a bandwidth check a millisecond after the start. -/
def oneWrite : PhaseEnv where
  start := 0
  interval := Duration.fromSecs 1
  sends := [⟨⟨0, .ok 1, ⟨0, 0, 0, 0⟩⟩, 1000000, 1000000⟩]
  tcpReads := []
  udpReads := []

/-- A reversed TCP test of one second at zero bits per second: its first write ahead of the rate
is divided by that rate. -/
theorem handlerFault_zeroBandwidth : ¬ ∀ (version : UInt32) (protocol : String) (duration : ℕ)
    (bandwidth : Option ℕ) (bufferSize parallel : ℕ) (reverse : Bool) (oneWay : Option String)
    (expectedPps : Option ℕ) (env : PhaseEnv), protocol = "Tcp" ∨ protocol = "Udp" →
    duration < 2 ^ 64 → (∀ bw ∈ bandwidth, bw < 2 ^ 64) → 8 ≤ bufferSize → bufferSize ≤ 65507 →
    handlerFault (.setup version protocol duration bandwidth bufferSize parallel reverse oneWay
      expectedPps) env = none := by
  intro h
  have hrate : ∀ bw ∈ some 0, bw < 2 ^ 64 := by
    intro bw hbw
    rw [← Option.some.inj hbw]
    decide
  have hnone := h 1 "Tcp" 1 (some 0) 8 1 true none none oneWrite (.inl rfl) (by decide) hrate
    (by decide) (by decide)
  have hfault : handlerFault (.setup 1 "Tcp" 1 (some 0) 8 1 true none none) oneWrite =
      some .zeroRate := by decide
  exact nomatch hfault.symm.trans hnone

end Rperf3
