import Rperf3.Library.Lts
import Rperf3.Library.SharedCounter
import Rperf3.OneWayParallel
import Rperf3.OneWayReceivers
import Mathlib.Data.UInt

/-!
# One-way UDP receive on several ports (`server.rs:1417-1607`)

`recv_one_way_server_multi` binds a socket for the main port and one for every
extra port, and starts a task for each that could be bound. The tasks add to four
shared counters, one atomic addition after the other and in any interleaving; the
call waits for all of them and loads the counters. Its figures are those of the
receiver with one socket for the same datagrams, but that every task expects the
number 0 at the start (`OneWayReceivers`).
-/

namespace Rperf3
open KeyedFold
open SharedRun (own own_cons_self own_cons_ne)
open SharedCounter (Balanced)

/-! ### A task (`server.rs:1549-1607`) -/

/-- The four shared atomics (`server.rs:1432-1435`). -/
structure PortCounters where
  bytesReceived : UInt64
  packetsReceived : UInt64
  outOfOrder : UInt64
  packetsLost : UInt64

def PortCounters.new : PortCounters := ⟨0, 0, 0, 0⟩

/-- Where a task stands; `buf` is the datagram and `seq` the number it is at. -/
inductive PortPc where
  | unspawned
  | clock
  | recvFrom
  | addBytes (buf : Bytes)
  | addPackets (buf : Bytes)
  | addLost (seq : UInt32)
  | addOutOfOrder
  | returned
  deriving DecidableEq

structure PortReceiver where
  pc : PortPc
  expectedSeq : UInt32

inductive PortEvent where
  | clock (now : Instant)
  | recv (result : RecvResult)
  | fetchAdd

namespace PortReceiver

def new : PortReceiver := ⟨.unspawned, 0⟩

/-- The comparison of `server.rs:1578-1594`; a short datagram has no number. -/
def compare (p : PortReceiver) (buf : Bytes) : PortReceiver :=
  if buf.length ≥ 8 then
    let seq := seqOf buf
    if seq > p.expectedSeq then { p with pc := .addLost seq }
    else if seq < p.expectedSeq then { p with pc := .addOutOfOrder }
    else { pc := .clock, expectedSeq := p.expectedSeq + 1 }
  else { p with pc := .clock }

def step (testEnd : Instant) (bufferSize : ℕ) (sh : PortCounters) (p : PortReceiver) :
    PortEvent → Option (PortCounters × PortReceiver)
  | .clock now =>
    match p.pc with
    | .clock => some (sh, { p with pc := if now ≥ testEnd then .returned else .recvFrom })
    | _ => none
  | .recv result =>
    match p.pc, result with
    | .recvFrom, .datagram payload =>
      some (sh, { p with pc := .addBytes (payload.take bufferSize) })
    | .recvFrom, .error _ => some (sh, { p with pc := .clock })
    | .recvFrom, .timeout => some (sh, { p with pc := .clock })
    | _, _ => none
  | .fetchAdd =>
    match p.pc with
    | .addBytes buf =>
      some ({ sh with bytesReceived := sh.bytesReceived + UInt64.ofNat buf.length },
        { p with pc := .addPackets buf })
    | .addPackets buf =>
      some ({ sh with packetsReceived := sh.packetsReceived + 1 }, p.compare buf)
    | .addLost seq =>
      some ({ sh with
        packetsLost := sh.packetsLost + UInt64.ofNat (seq.toNat - p.expectedSeq.toNat) },
        { pc := .clock, expectedSeq := seq + 1 })
    | .addOutOfOrder =>
      some ({ sh with outOfOrder := sh.outOfOrder + 1 }, { p with pc := .clock })
    | _ => none

end PortReceiver

/-- The datagram a step takes off the socket of its task. -/
def PortEvent.received (bufferSize : ℕ) : PortEvent → List Bytes
  | .recv (.datagram payload) => [payload.take bufferSize]
  | _ => []

/-! ### The call (`server.rs:1418-1546`) -/

structure MultiCall where
  port : UInt16
  extraPorts : List UInt16
  start : Instant
  duration : Duration
  bufferSize : ℕ

def MultiCall.ports (c : MultiCall) : List UInt16 := c.port :: c.extraPorts

inductive MultiPc where
  | bind (k : ℕ)
  | join
  | loadBytes
  | loadPackets (totalBytes : UInt64)
  | loadLost (totalBytes totalPackets : UInt64)
  | loadOutOfOrder (totalBytes totalPackets totalLost : UInt64)
  | summary (totals : PortCounters)
  | returned (result : Except Error ServerOneWayStats)

inductive MultiEvent where
  | bind (result : Except ErrorKind Unit)
  | join
  | load
  | finish (finish : Instant)

structure MultiState (n : ℕ) where
  main : MultiPc
  counters : PortCounters
  receivers : Fin n → PortReceiver
  /-- What each task has taken off its socket. -/
  received : Fin n → List Bytes

inductive MultiAction (n : ℕ) where
  | receiver (i : Fin n) (e : PortEvent)
  | main (e : MultiEvent)

/-- What the call returns for the totals it has loaded (`server.rs:1503-1545`). -/
def PortCounters.stats (t : PortCounters) (duration : Duration) : ServerOneWayStats :=
  let totalSent := t.packetsReceived + t.packetsLost
  { bytesReceived := t.bytesReceived.toNat
    packetsReceived := t.packetsReceived.toNat
    outOfOrder := t.outOfOrder.toNat
    packetsLost := t.packetsLost.toNat
    packetLoss :=
      if totalSent > 0 then some ((t.packetsLost.toNat : F64) / totalSent.toNat * 100) else none
    duration := duration }

namespace MultiState

variable {n : ℕ}

def start (c : MultiCall) : MultiState c.ports.length :=
  { main := .bind 0
    counters := .new
    receivers := fun _ => .new
    received := fun _ => [] }

/-- All tasks that were started have returned. -/
def joinable (s : MultiState n) : Prop :=
  ∀ i, (s.receivers i).pc = .returned ∨ (s.receivers i).pc = .unspawned

instance (s : MultiState n) : Decidable s.joinable := inferInstanceAs (Decidable (∀ _, _ ∨ _))

def afterBind (s : MultiState n) (k : ℕ) : MultiState n :=
  { s with main := if k + 1 < n then .bind (k + 1) else .join }

/-- One step of the call itself: without the main socket it fails, an extra port that cannot be
bound is left out. -/
def mainStep (c : MultiCall) (s : MultiState n) : MultiEvent → Option (MultiState n)
  | .bind result =>
    match s.main with
    | .bind k =>
      if hk : k < n then
        match result with
        | .ok () =>
          some ({ s with
            receivers := Function.update s.receivers ⟨k, hk⟩
              { s.receivers ⟨k, hk⟩ with pc := .clock } }.afterBind k)
        | .error e =>
          if k = 0 then some { s with main := .returned (.error (.io e)) }
          else some (s.afterBind k)
      else none
    | _ => none
  | .join =>
    match s.main with
    | .join => if s.joinable then some { s with main := .loadBytes } else none
    | _ => none
  | .load =>
    match s.main with
    | .loadBytes => some { s with main := .loadPackets s.counters.bytesReceived }
    | .loadPackets totalBytes =>
      some { s with main := .loadLost totalBytes s.counters.packetsReceived }
    | .loadLost totalBytes totalPackets =>
      some { s with main := .loadOutOfOrder totalBytes totalPackets s.counters.packetsLost }
    | .loadOutOfOrder totalBytes totalPackets totalLost =>
      some { s with
        main := .summary
          { bytesReceived := totalBytes
            packetsReceived := totalPackets
            outOfOrder := s.counters.outOfOrder
            packetsLost := totalLost } }
    | _ => none
  | .finish finish =>
    match s.main with
    | .summary totals =>
      some { s with main := .returned (.ok (totals.stats (finish - c.start))) }
    | _ => none

/-- `recv_one_way_server_multi`: one step of a task or of the call. -/
def step (c : MultiCall) (s : MultiState n) : MultiAction n → Option (MultiState n)
  | .receiver i e =>
    ((s.receivers i).step (c.start + c.duration) c.bufferSize s.counters e).map (fun x =>
      { s with
        counters := x.1
        receivers := Function.update s.receivers i x.2
        received := Function.update s.received i (s.received i ++ e.received c.bufferSize) })
  | .main e => s.mainStep c e

end MultiState

/-! ### What a task still owes the counters -/

abbrev PortTotals := UInt64 × UInt64 × UInt64 × UInt64

def PortCounters.totals (c : PortCounters) : PortTotals :=
  (c.bytesReceived, c.packetsReceived, c.outOfOrder, c.packetsLost)

namespace ReceiverState

def totals (r : ReceiverState) : PortTotals :=
  (UInt64.ofNat r.bytesReceived, UInt64.ofNat r.packetsReceived, UInt64.ofNat r.outOfOrder,
    UInt64.ofNat r.packetsLost)

def expecting (expectedSeq : UInt32) : ReceiverState := { new with expectedSeq := expectedSeq }

theorem totals_expecting (expectedSeq : UInt32) : (expecting expectedSeq).totals = 0 := rfl

/-- What a datagram adds depends on the number expected, not on what was counted before. -/
theorem onDatagram_expecting (r : ReceiverState) (buf : Bytes) :
    (r.onDatagram buf).expectedSeq = ((expecting r.expectedSeq).onDatagram buf).expectedSeq ∧
      (r.onDatagram buf).totals =
        r.totals + ((expecting r.expectedSeq).onDatagram buf).totals := by
  by_cases hnumbered : 8 ≤ buf.length
  · rw [receiver_numbered r buf hnumbered, receiver_numbered _ buf hnumbered]
    simp [totals, expecting, new]
  · rw [receiver_short r buf hnumbered, receiver_short _ buf hnumbered]
    simp [totals, expecting, new]

end ReceiverState

/-- What a task will have added, and the number it will expect, once it is done with the datagram
it is at. -/
def PortReceiver.owed (p : PortReceiver) : ReceiverState :=
  match p.pc with
  | .addBytes buf => (ReceiverState.expecting p.expectedSeq).onDatagram buf
  | .addPackets buf =>
    { (ReceiverState.expecting p.expectedSeq).onDatagram buf with bytesReceived := 0 }
  | .addLost seq =>
    { ReceiverState.expecting (seq + 1) with packetsLost := seq.toNat - p.expectedSeq.toNat }
  | .addOutOfOrder => { ReceiverState.expecting p.expectedSeq with outOfOrder := 1 }
  | _ => .expecting p.expectedSeq

/-- A step that takes no datagram moves what the task owes to the counters. -/
structure PortReceiver.Pays (sh sh' : PortCounters) (p p' : PortReceiver) : Prop where
  totals : ∃ added, sh'.totals = sh.totals + added ∧ added + p'.owed.totals = p.owed.totals
  expected : p'.owed.expectedSeq = p.owed.expectedSeq

theorem PortReceiver.pays_quiet {sh : PortCounters} {p p' : PortReceiver} (h : p'.owed = p.owed) :
    Pays sh sh p p' :=
  ⟨⟨0, (add_zero _).symm, by rw [h, zero_add]⟩, by rw [h]⟩

theorem PortReceiver.compare_owed (p : PortReceiver) (buf : Bytes) :
    (p.compare buf).owed =
      { (ReceiverState.expecting p.expectedSeq).onDatagram buf with
        bytesReceived := 0
        packetsReceived := 0 } := by
  unfold compare ReceiverState.onDatagram
  by_cases hlen : buf.length ≥ 8
  · by_cases hgap : p.expectedSeq < seqOf buf
    · simp [owed, ReceiverState.expecting, ReceiverState.new, hlen, hgap]
    · by_cases hlate : seqOf buf < p.expectedSeq
      · simp [owed, ReceiverState.expecting, ReceiverState.new, hlen, hgap, hlate]
      · simp [owed, ReceiverState.expecting, ReceiverState.new, hlen, hgap, hlate]
  · simp [owed, ReceiverState.expecting, ReceiverState.new, hlen]

theorem PortReceiver.compare_pc (p : PortReceiver) (buf : Bytes) :
    (p.compare buf).pc ≠ .unspawned := by
  unfold compare
  by_cases hlen : buf.length ≥ 8
  · by_cases hgap : p.expectedSeq < seqOf buf
    · simp [hlen, hgap]
    · by_cases hlate : seqOf buf < p.expectedSeq <;> simp [hlen, hgap, hlate]
  · simp [hlen]

theorem onDatagram_counted (expectedSeq : UInt32) (buf : Bytes) :
    ((ReceiverState.expecting expectedSeq).onDatagram buf).bytesReceived = buf.length ∧
      ((ReceiverState.expecting expectedSeq).onDatagram buf).packetsReceived = 1 := by
  by_cases hnumbered : 8 ≤ buf.length
  · rw [receiver_numbered _ buf hnumbered]
    simp [ReceiverState.expecting, ReceiverState.new]
  · rw [receiver_short _ buf hnumbered]
    simp [ReceiverState.expecting, ReceiverState.new]

section Step

variable {testEnd : Instant} {bufferSize : ℕ} {sh sh' : PortCounters} {p p' : PortReceiver}

/-- A step of a task takes a datagram, when it owes nothing, or pays. -/
theorem PortReceiver.step_cases {e : PortEvent}
    (h : p.step testEnd bufferSize sh e = some (sh', p')) :
    p.pc ≠ .unspawned ∧ p.pc ≠ .returned ∧ p'.pc ≠ .unspawned ∧
      ((e.received bufferSize = [] ∧ Pays sh sh' p p') ∨
        ∃ buf, e.received bufferSize = [buf] ∧ sh' = sh ∧
          p.owed = .expecting p.expectedSeq ∧
          p'.owed = (ReceiverState.expecting p.expectedSeq).onDatagram buf) := by
  cases e with
  | clock now =>
    cases hpc : p.pc <;> simp only [step, hpc, reduceCtorEq] at h
    obtain ⟨rfl, rfl⟩ := Prod.mk.inj (Option.some.inj h)
    by_cases hend : now ≥ testEnd
    · exact ⟨by simp, by simp, by simp [hend], .inl ⟨rfl, pays_quiet (by simp [owed, hpc, hend])⟩⟩
    · exact ⟨by simp, by simp, by simp [hend], .inl ⟨rfl, pays_quiet (by simp [owed, hpc, hend])⟩⟩
  | recv result =>
    cases hpc : p.pc <;> cases result <;> simp only [step, hpc, reduceCtorEq] at h
    all_goals obtain ⟨rfl, rfl⟩ := Prod.mk.inj (Option.some.inj h)
    case recvFrom.datagram payload =>
      exact ⟨by simp, by simp, by simp,
        .inr ⟨payload.take bufferSize, rfl, rfl, by simp [owed, hpc], by simp [owed]⟩⟩
    all_goals exact ⟨by simp, by simp, by simp, .inl ⟨rfl, pays_quiet (by simp [owed, hpc])⟩⟩
  | fetchAdd =>
    cases hpc : p.pc <;> simp only [step, hpc, reduceCtorEq] at h
    all_goals obtain ⟨rfl, rfl⟩ := Prod.mk.inj (Option.some.inj h)
    case addBytes buf =>
      refine ⟨by simp, by simp, by simp,
        .inl ⟨rfl, ⟨(UInt64.ofNat buf.length, 0, 0, 0), ?_, ?_⟩, ?_⟩⟩
      · simp [PortCounters.totals]
      · obtain ⟨hbytes, -⟩ := onDatagram_counted p.expectedSeq buf
        simp [owed, hpc, ReceiverState.totals, hbytes]
      · simp [owed, hpc]
    case addPackets buf =>
      have hcompare := compare_owed p buf
      refine ⟨by simp, by simp, compare_pc p buf, .inl ⟨rfl, ⟨(0, 1, 0, 0), ?_, ?_⟩, ?_⟩⟩
      · simp [PortCounters.totals]
      · obtain ⟨-, hpackets⟩ := onDatagram_counted p.expectedSeq buf
        rw [hcompare]
        simp [owed, hpc, ReceiverState.totals, hpackets]
      · rw [hcompare]
        simp [owed, hpc]
    case addLost seq =>
      refine ⟨by simp, by simp, by simp,
        .inl ⟨rfl, ⟨(0, 0, 0, UInt64.ofNat (seq.toNat - p.expectedSeq.toNat)), ?_, ?_⟩, ?_⟩⟩
      · simp [PortCounters.totals]
      · simp [owed, hpc, ReceiverState.totals, ReceiverState.expecting, ReceiverState.new]
      · simp [owed, hpc, ReceiverState.expecting]
    case addOutOfOrder =>
      refine ⟨by simp, by simp, by simp, .inl ⟨rfl, ⟨(0, 0, 1, 0), ?_, ?_⟩, ?_⟩⟩
      · simp [PortCounters.totals]
      · simp [owed, hpc, ReceiverState.totals, ReceiverState.expecting, ReceiverState.new]
      · simp [owed, hpc, ReceiverState.expecting]

end Step

/-! ### The invariant -/

def ReceiverState.after (bufs : List Bytes) : ReceiverState := bufs.foldl onDatagram new

def totalsOf (bufs : List Bytes) : PortTotals := (ReceiverState.after bufs).totals

def PortReceiver.held (p : PortReceiver) : PortTotals := p.owed.totals

/-- No task of a port still to be bound has started, and nothing that was loaded has changed. -/
def MultiState.Settled {n : ℕ} (s : MultiState n) : Prop :=
  match s.main with
  | .bind k => ∀ i : Fin n, k ≤ i → (s.receivers i).pc = .unspawned
  | .join => True
  | .loadBytes => s.joinable
  | .loadPackets totalBytes => s.joinable ∧ totalBytes = s.counters.bytesReceived
  | .loadLost totalBytes totalPackets =>
    s.joinable ∧ totalBytes = s.counters.bytesReceived ∧
      totalPackets = s.counters.packetsReceived
  | .loadOutOfOrder totalBytes totalPackets totalLost =>
    s.joinable ∧ totalBytes = s.counters.bytesReceived ∧
      totalPackets = s.counters.packetsReceived ∧ totalLost = s.counters.packetsLost
  | .summary totals => s.joinable ∧ totals = s.counters
  | .returned (.ok stats) => s.joinable ∧ ∃ duration, stats = s.counters.stats duration
  | .returned (.error _) => True

structure MultiInv {n : ℕ} (s : MultiState n) : Prop where
  expected : ∀ i, (s.receivers i).owed.expectedSeq =
    (ReceiverState.after (s.received i)).expectedSeq
  counted : Balanced s.counters.totals (fun i => (s.receivers i).held)
    (∑ i, totalsOf (s.received i))
  settled : s.Settled

theorem multiInv_start (c : MultiCall) : MultiInv (MultiState.start c) where
  expected _ := rfl
  counted := by
    have hnone : ∑ i, totalsOf ((MultiState.start c).received i) = 0 :=
      Finset.sum_eq_zero (fun _ _ => rfl)
    rw [hnone]
    exact SharedCounter.balanced_start (fun _ => rfl)
  settled _ _ := rfl

theorem MultiState.settled_of_running {n : ℕ} {s : MultiState n} (h : s.Settled) {i : Fin n}
    (hspawned : (s.receivers i).pc ≠ .unspawned) (hrunning : (s.receivers i).pc ≠ .returned)
    (p : PortReceiver) (counters : PortCounters) (received : Fin n → List Bytes) :
    MultiState.Settled { s with
      counters := counters
      receivers := Function.update s.receivers i p
      received := received } := by
  have hnot : ¬ s.joinable := by
    intro hall
    rcases hall i with hi | hi
    · exact hrunning hi
    · exact hspawned hi
  unfold Settled at h ⊢
  cases hmain : s.main with
  | bind k =>
    simp only [hmain] at h ⊢
    intro j hj
    have hne : j ≠ i := by
      rintro rfl
      exact hspawned (h j hj)
    rw [Function.update_of_ne hne]
    exact h j hj
  | join => trivial
  | returned result =>
    cases result with
    | error e => trivial
    | ok stats =>
      simp only [hmain] at h
      exact absurd h.1 hnot
  | loadBytes =>
    simp only [hmain] at h
    exact absurd h hnot
  | _ =>
    simp only [hmain] at h
    exact absurd h.1 hnot

theorem MultiState.settled_afterBind {n : ℕ} {s : MultiState n} {k : ℕ}
    (h : ∀ i : Fin n, k + 1 ≤ i → (s.receivers i).pc = .unspawned) :
    (s.afterBind k).Settled := by
  unfold afterBind
  by_cases hk : k + 1 < n
  · simp only [if_pos hk]
    exact h
  · simp only [if_neg hk]
    trivial

theorem owed_spawn {p : PortReceiver} (h : p.pc = .unspawned) :
    ({ p with pc := .clock } : PortReceiver).owed = p.owed := by
  simp only [PortReceiver.owed, h]

theorem MultiInv.spawned {n : ℕ} {s : MultiState n} (h : MultiInv s) {i : Fin n}
    (hspawn : (s.receivers i).pc = .unspawned) (main : MultiPc)
    (hsettled : MultiState.Settled { s with
      main := main
      receivers := Function.update s.receivers i { s.receivers i with pc := .clock } }) :
    MultiInv { s with
      main := main
      receivers := Function.update s.receivers i { s.receivers i with pc := .clock } } := by
  have howed : ∀ j, (Function.update s.receivers i { s.receivers i with pc := .clock } j).owed =
      (s.receivers j).owed := by
    intro j
    by_cases hj : j = i
    · subst hj
      rw [Function.update_self, owed_spawn hspawn]
    · rw [Function.update_of_ne hj]
  refine ⟨fun j => ?_, ?_, hsettled⟩
  · simp only [howed]
    exact h.expected j
  · simp only [PortReceiver.held, howed]
    exact h.counted

theorem MultiInv.mainStep {n : ℕ} {c : MultiCall} {s s' : MultiState n} {e : MultiEvent}
    (h : MultiInv s) (hstep : s.mainStep c e = some s') : MultiInv s' := by
  have hsettled := h.settled
  unfold MultiState.Settled at hsettled
  cases e with
  | bind result =>
    cases hmain : s.main <;> simp only [MultiState.mainStep, hmain, reduceCtorEq] at hstep
    case bind k =>
      simp only [hmain] at hsettled
      by_cases hk : k < n
      · simp only [dif_pos hk] at hstep
        have hspawn : (s.receivers ⟨k, hk⟩).pc = .unspawned := hsettled ⟨k, hk⟩ (Nat.le_refl k)
        have hlater : ∀ i : Fin n, k + 1 ≤ i → i ≠ ⟨k, hk⟩ := by
          rintro i hi rfl
          simp only at hi
          omega
        cases result with
        | ok u =>
          cases hstep
          refine h.spawned hspawn _ (MultiState.settled_afterBind (s := { s with
            receivers := Function.update s.receivers ⟨k, hk⟩
              { s.receivers ⟨k, hk⟩ with pc := .clock } }) (fun i hi => ?_))
          simp only [Function.update_of_ne (hlater i hi)]
          exact hsettled i (by omega)
        | error e =>
          by_cases hzero : k = 0
          · simp only [if_pos hzero] at hstep
            cases hstep
            exact ⟨h.expected, h.counted, trivial⟩
          · simp only [if_neg hzero] at hstep
            cases hstep
            exact ⟨h.expected, h.counted,
              MultiState.settled_afterBind (fun i hi => hsettled i (by omega))⟩
      · simp only [dif_neg hk, reduceCtorEq] at hstep
  | join =>
    cases hmain : s.main <;> simp only [MultiState.mainStep, hmain, reduceCtorEq] at hstep
    obtain ⟨hjoin, hsome⟩ := Option.ite_none_right_eq_some.mp hstep
    cases hsome
    exact ⟨h.expected, h.counted, hjoin⟩
  | load =>
    cases hmain : s.main <;> simp only [MultiState.mainStep, hmain, reduceCtorEq] at hstep
    all_goals
      simp only [hmain] at hsettled
      obtain rfl := Option.some.inj hstep
      refine ⟨h.expected, h.counted, ?_⟩
    case loadBytes => exact ⟨hsettled, rfl⟩
    case loadPackets totalBytes => exact ⟨hsettled.1, hsettled.2, rfl⟩
    case loadLost totalBytes totalPackets => exact ⟨hsettled.1, hsettled.2.1, hsettled.2.2, rfl⟩
    case loadOutOfOrder totalBytes totalPackets totalLost =>
      obtain ⟨hjoin, rfl, rfl, rfl⟩ := hsettled
      exact ⟨hjoin, rfl⟩
  | finish finish =>
    cases hmain : s.main <;> simp only [MultiState.mainStep, hmain, reduceCtorEq] at hstep
    simp only [hmain] at hsettled
    obtain ⟨hjoin, rfl⟩ := hsettled
    cases hstep
    exact ⟨h.expected, h.counted, hjoin, _, rfl⟩

theorem after_append (bufs : List Bytes) (buf : Bytes) :
    ReceiverState.after (bufs ++ [buf]) = (ReceiverState.after bufs).onDatagram buf := by
  simp only [ReceiverState.after, List.foldl_append, List.foldl_cons, List.foldl_nil]

theorem MultiInv.step {n : ℕ} {c : MultiCall} {s s' : MultiState n} {a : MultiAction n}
    (h : MultiInv s) (hstep : s.step c a = some s') : MultiInv s' := by
  cases a with
  | main e => exact h.mainStep hstep
  | receiver i e =>
    obtain ⟨⟨sh, p⟩, hreceiver, rfl⟩ := Option.map_eq_some_iff.mp hstep
    obtain ⟨hspawned, hrunning, -, hcases⟩ := PortReceiver.step_cases hreceiver
    have hsettled := MultiState.settled_of_running h.settled hspawned hrunning p sh
      (Function.update s.received i (s.received i ++ e.received c.bufferSize))
    rcases hcases with ⟨hnone, ⟨added, hadded, howed⟩, hexpected⟩ | ⟨buf, hbuf, rfl, hidle, htaken⟩
    · simp only [hnone, List.append_nil, Function.update_eq_self] at hsettled ⊢
      refine ⟨fun j => ?_, ?_, hsettled⟩
      · by_cases hj : j = i
        · subst hj
          simp only [Function.update_self, hexpected]
          exact h.expected j
        · simp only [Function.update_of_ne hj]
          exact h.expected j
      · simp only [hadded]
        exact h.counted.move howed
    · rw [hbuf] at hsettled ⊢
      have hexpect : (s.receivers i).expectedSeq =
          (ReceiverState.after (s.received i)).expectedSeq := by
        rw [← h.expected i, hidle]
        rfl
      obtain ⟨hseq, htotals⟩ := (ReceiverState.after (s.received i)).onDatagram_expecting buf
      rw [← hexpect, ← htaken, ← after_append] at hseq htotals
      have hpart : totalsOf (s.received i ++ [buf]) = totalsOf (s.received i) + p.held := htotals
      refine ⟨fun j => ?_, ?_, hsettled⟩
      · by_cases hj : j = i
        · subst hj
          simp only [Function.update_self]
          exact hseq.symm
        · simp only [Function.update_of_ne hj]
          exact h.expected j
      · have hown : 0 + p.held = (s.receivers i).held + p.held := by
          simp only [PortReceiver.held, hidle, ReceiverState.totals_expecting]
        have hcounted := h.counted.step_part hown hpart
        rwa [add_zero] at hcounted

theorem multiInv_reachable {c : MultiCall} {s : MultiState c.ports.length}
    (h : Lts.Reachable (MultiState.step c) (MultiState.start c) s) : MultiInv s :=
  h.invariant (multiInv_start c) (fun _ _ _ hinv _ hstep => hinv.step hstep)

theorem ofNat_sum {ι : Type*} (s : Finset ι) (f : ι → ℕ) :
    ∑ i ∈ s, UInt64.ofNat (f i) = UInt64.ofNat (∑ i ∈ s, f i) := by
  classical
  induction s using Finset.induction_on with
  | empty => rfl
  | insert i s hi ih => rw [Finset.sum_insert hi, Finset.sum_insert hi, ih, UInt64.ofNat_add]

/-- When the tasks have returned, the counters are the sums of what they count alone. -/
theorem MultiInv.joined {n : ℕ} {s : MultiState n} (h : MultiInv s) (hjoin : s.joinable) :
    s.counters.bytesReceived =
        UInt64.ofNat (∑ i, (ReceiverState.after (s.received i)).bytesReceived) ∧
      s.counters.packetsReceived =
        UInt64.ofNat (∑ i, (ReceiverState.after (s.received i)).packetsReceived) ∧
      s.counters.outOfOrder =
        UInt64.ofNat (∑ i, (ReceiverState.after (s.received i)).outOfOrder) ∧
      s.counters.packetsLost =
        UInt64.ofNat (∑ i, (ReceiverState.after (s.received i)).packetsLost) := by
  have htotals : s.counters.totals = ∑ i, totalsOf (s.received i) := by
    refine h.counted.settled (fun i => ?_)
    rcases hjoin i with hi | hi
    · simp only [PortReceiver.held, PortReceiver.owed, hi, ReceiverState.totals_expecting]
    · simp only [PortReceiver.held, PortReceiver.owed, hi, ReceiverState.totals_expecting]
  simp only [PortCounters.totals, Prod.ext_iff, Prod.fst_sum, Prod.snd_sum] at htotals
  simp only [← ofNat_sum]
  exact htotals

/-! ### Against the receiver with one socket -/

section Lanes

variable {ι : Type} [DecidableEq ι] {xs : List (ι × Bytes)} {streamId : ι → UInt32}

theorem eventsOf_numbered_lane (hid : Function.Injective streamId)
    (hxs : ∀ x ∈ xs, 8 ≤ x.2.length → streamIdOf x.2 = streamId x.1) (i : ι) :
    eventsOf streamIdOf (streamId i) (numbered (xs.map Prod.snd)) = numbered (own i xs) := by
  have hnumbered : numbered (xs.map Prod.snd) =
      (xs.filter (fun x => 8 ≤ x.2.length)).map Prod.snd := List.filter_map ..
  have hlane : numbered (own i xs) = own i (xs.filter (fun x => 8 ≤ x.2.length)) := by
    rw [numbered, own, List.filter_map, own, List.filter_comm]
    rfl
  rw [hnumbered, hlane]
  refine eventsOf_lane hid (fun x hx => ?_) i
  obtain ⟨hmem, hlen⟩ := List.mem_filter.mp hx
  exact hxs x hmem (of_decide_eq_true hlen)

theorem sum_map_lanes [Fintype ι] (f : Bytes → ℕ) (xs : List (ι × Bytes)) :
    ((xs.map Prod.snd).map f).sum = ∑ i, ((own i xs).map f).sum := by
  induction xs with
  | nil => exact (Finset.sum_eq_zero (fun _ _ => rfl)).symm
  | cons x xs ih =>
    have hcons : ∀ i, ((own i (x :: xs)).map f).sum =
        (if i = x.1 then f x.2 else 0) + ((own i xs).map f).sum := by
      intro i
      by_cases hi : i = x.1
      · subst hi
        rw [if_pos rfl, own_cons_self, List.map_cons, List.sum_cons]
      · rw [if_neg hi, own_cons_ne (Ne.symm hi), Nat.zero_add]
    rw [Finset.sum_congr rfl (fun i _ => hcons i), Finset.sum_add_distrib, Finset.sum_ite_eq',
      if_pos (Finset.mem_univ _), ← ih, List.map_cons, List.map_cons, List.sum_cons]

theorem addNumbered_one {k : UInt32} {bufs : List Bytes} (h : OneStream k bufs) :
    ((Tally.new.addNumbered bufs).outOfOrder, (Tally.new.addNumbered bufs).packetsLost) =
      (run track none (numbered bufs)).2 := by
  have hself : eventsOf streamIdOf k (numbered bufs) = numbered bufs := by
    refine List.filter_eq_self.mpr (fun buf hbuf => ?_)
    obtain ⟨hmem, hlen⟩ := List.mem_filter.mp hbuf
    exact decide_eq_true (h buf hmem (of_decide_eq_true hlen))
  have htotal := runKeyed_total streamIdOf track Tally.new.streamStates (numbered bufs) {k} (by
    intro buf hbuf
    rw [← hself] at hbuf
    exact Finset.mem_singleton.mpr (mem_eventsOf.mp hbuf).2)
  rw [Finset.sum_singleton, hself] at htotal
  simp only [Tally.addNumbered, Tally.new, Nat.zero_add] at htotal ⊢
  exact htotal

/-- The figures of one socket are the sums of those of the lanes, when each has a stream. -/
theorem addNumbered_lanes [Fintype ι] (hid : Function.Injective streamId)
    (hone : ∀ i, OneStream (streamId i) (own i xs)) :
    (Tally.new.addNumbered (xs.map Prod.snd)).outOfOrder =
        ∑ i, (Tally.new.addNumbered (own i xs)).outOfOrder ∧
      (Tally.new.addNumbered (xs.map Prod.snd)).packetsLost =
        ∑ i, (Tally.new.addNumbered (own i xs)).packetsLost := by
  have hxs : ∀ x ∈ xs, 8 ≤ x.2.length → streamIdOf x.2 = streamId x.1 :=
    fun x hx => hone x.1 x.2 (mem_own hx)
  have htotal := runKeyed_total streamIdOf track Tally.new.streamStates
    (numbered (xs.map Prod.snd)) (Finset.univ.image streamId) (by
      intro buf hbuf
      obtain ⟨hmem, hlen⟩ := List.mem_filter.mp hbuf
      obtain ⟨x, hx, rfl⟩ := List.mem_map.mp hmem
      exact Finset.mem_image.mpr ⟨x.1, Finset.mem_univ _,
        (hxs x hx (of_decide_eq_true hlen)).symm⟩)
  rw [Finset.sum_image (fun _ _ _ _ h => hid h)] at htotal
  have hlane : ∀ i, (run track (Tally.new.streamStates (streamId i))
      (eventsOf streamIdOf (streamId i) (numbered (xs.map Prod.snd)))).2 =
      ((Tally.new.addNumbered (own i xs)).outOfOrder,
        (Tally.new.addNumbered (own i xs)).packetsLost) := by
    intro i
    rw [eventsOf_numbered_lane hid hxs i, addNumbered_one (hone i)]
    rfl
  rw [Finset.sum_congr rfl (fun i _ => hlane i)] at htotal
  constructor
  · have hfst := congrArg Prod.fst htotal
    rw [Prod.fst_sum] at hfst
    rw [← hfst]
    exact Nat.zero_add _
  · have hsnd := congrArg Prod.snd htotal
    rw [Prod.snd_sum] at hsnd
    rw [← hsnd]
    exact Nat.zero_add _

end Lanes

theorem after_agrees {k : UInt32} {bufs : List Bytes} (h : OneStream k bufs) :
    CountersAgree
      { Tally.new.addNumbered bufs with
        packetsLost := (Tally.new.addNumbered bufs).packetsLost + firstSeq bufs }
      (ReceiverState.after bufs) := by
  have hagree := (unseen_new k).foldl bufs h
  rw [foldl_onDatagram] at hagree
  exact hagree

/-- At every step the counters and what the tasks owe make up what the tasks alone would count on
what they have taken. When every port has a stream of its own, the call returns what the receiver
with one socket returns for the same datagrams in any order between the ports, but for the number
of the first datagram of each port, which it counts as losses. Counters of 64 bits wrap. -/
theorem multiPort_agrees (c : MultiCall) (s : MultiState c.ports.length)
    (h : Lts.Reachable (MultiState.step c) (MultiState.start c) s) :
    s.counters.totals + ∑ i, (s.receivers i).held = ∑ i, totalsOf (s.received i) ∧
      ∀ stats, s.main = .returned (.ok stats) →
        ∀ streamId : Fin c.ports.length → UInt32, Function.Injective streamId →
        (∀ i, OneStream (streamId i) (s.received i)) →
        ∀ (r : OneWayRun) single, recvOneWayServerWithSocket r = .ok single →
        ∀ xs : List (Fin c.ports.length × Bytes), r.arrivals = xs.map Prod.snd →
        (∀ i, own i xs = s.received i) →
        stats.bytesReceived = single.bytesReceived % 2 ^ 64 ∧
          stats.packetsReceived = single.packetsReceived % 2 ^ 64 ∧
          stats.outOfOrder = single.outOfOrder % 2 ^ 64 ∧
          stats.packetsLost =
            (single.packetsLost + ∑ i, firstSeq (s.received i)) % 2 ^ 64 := by
  have hinv := multiInv_reachable h
  refine ⟨hinv.counted, ?_⟩
  intro stats hret streamId hid hone r single hok xs harrivals hown
  have hsettled := hinv.settled
  unfold MultiState.Settled at hsettled
  rw [hret] at hsettled
  obtain ⟨hjoin, duration, rfl⟩ := hsettled
  obtain ⟨hbytes, hpackets, houtOfOrder, hpacketsLost⟩ := hinv.joined hjoin
  have hagree := fun i => after_agrees (hone i)
  obtain ⟨hlate, hlost⟩ := addNumbered_lanes hid (fun i => (hown i).symm ▸ hone i)
  simp only [hown] at hlate hlost
  have hsum : r.tally = Tally.new.addNumbered (xs.map Prod.snd) := by
    rw [r.tally_eq_addNumbered, harrivals]
  rw [stats_of_ok hok]
  simp only [PortCounters.stats, OneWayRun.stats, hsum]
  refine ⟨?_, ?_, ?_, ?_⟩
  · have hsame : (Tally.new.addNumbered (xs.map Prod.snd)).bytesReceived =
        ∑ i, (ReceiverState.after (s.received i)).bytesReceived := by
      refine (Nat.zero_add _).trans ((sum_map_lanes List.length xs).trans
        (Finset.sum_congr rfl (fun i _ => ?_)))
      rw [(hagree i).bytes, hown]
      exact (Nat.zero_add _).symm
    rw [hbytes, UInt64.toNat_ofNat', hsame]
  · have hsame : (Tally.new.addNumbered (xs.map Prod.snd)).packetsReceived =
        ∑ i, (ReceiverState.after (s.received i)).packetsReceived := by
      refine (Nat.zero_add _).trans ((List.length_map _).trans ((length_lanes xs).trans
        (Finset.sum_congr rfl (fun i _ => ?_))))
      rw [(hagree i).packets, hown]
      exact (Nat.zero_add _).symm
    rw [hpackets, UInt64.toNat_ofNat', hsame]
  · rw [houtOfOrder, UInt64.toNat_ofNat', Finset.sum_congr rfl (fun i _ => (hagree i).outOfOrder),
      hlate]
  · rw [hpacketsLost, UInt64.toNat_ofNat', Finset.sum_congr rfl (fun i _ => (hagree i).lost),
      Finset.sum_add_distrib, hlost]

/-- A call with two extra ports, of which the first cannot be bound. -/
def threePorts : MultiCall :=
  { port := 5201
    extraPorts := [5202, 5203]
    start := 0
    duration := 1000000000
    bufferSize := 12 }

def firstPort : Fin threePorts.ports.length := ⟨0, by decide⟩
def lastPort : Fin threePorts.ports.length := ⟨2, by decide⟩

/-- Stream 8 starts at the number 3 and has a late datagram, stream 9 starts at 0. -/
def threePortsSteps : List (MultiAction threePorts.ports.length) :=
  [.main (.bind (.ok ())), .receiver firstPort (.clock 0),
    .receiver firstPort (.recv (.datagram (datagram 3 8))), .main (.bind (.error .other)),
    .main (.bind (.ok ())), .receiver lastPort (.clock 1), .receiver firstPort .fetchAdd,
    .receiver lastPort (.recv (.datagram (datagram 0 9))), .receiver firstPort .fetchAdd,
    .receiver lastPort .fetchAdd, .receiver lastPort .fetchAdd, .receiver firstPort .fetchAdd,
    .receiver firstPort (.clock 2), .receiver firstPort (.recv (.datagram (datagram 2 8))),
    .receiver firstPort .fetchAdd, .receiver firstPort .fetchAdd, .receiver firstPort .fetchAdd,
    .receiver firstPort (.clock 3), .receiver firstPort (.recv .timeout),
    .receiver firstPort (.clock 1000000000), .receiver lastPort (.clock 1000000000),
    .main .join, .main .load, .main .load, .main .load, .main .load,
    .main (.finish 1000000001)]

def threePortsEnd : MultiState threePorts.ports.length :=
  (Lts.run (MultiState.step threePorts) (fun _ _ => True) (MultiState.start threePorts)
    threePortsSteps).getD (MultiState.start threePorts)

theorem threePorts_run :
    Lts.run (MultiState.step threePorts) (fun _ _ => True) (MultiState.start threePorts)
      threePortsSteps = some threePortsEnd :=
  rfl

def threePortsArrivals : List (Fin threePorts.ports.length × Bytes) :=
  [(lastPort, datagram 0 9), (firstPort, datagram 3 8), (firstPort, datagram 2 8)]

def threePortsStream (i : Fin threePorts.ports.length) : UInt32 :=
  if i = firstPort then 8 else if i = lastPort then 9 else 10

theorem multiPort_agrees_threePorts :
    ∃ stats, threePortsEnd.main = .returned (.ok stats) ∧
      stats.outOfOrder =
        (OneWayRun.deliver (threePortsArrivals.map Prod.snd)).stats.outOfOrder % 2 ^ 64 ∧
      stats.packetsLost =
        ((OneWayRun.deliver (threePortsArrivals.map Prod.snd)).stats.packetsLost +
          ∑ i, firstSeq (threePortsEnd.received i)) % 2 ^ 64 := by
  have hagree := (multiPort_agrees threePorts threePortsEnd (Lts.Reach.start.run threePorts_run)).2
    _ rfl threePortsStream (by decide) (by unfold OneStream; decide) _ _ (recv_deliver _)
    threePortsArrivals (arrivals_deliver _) (by decide)
  exact ⟨_, rfl, hagree.2.2⟩

example : threePortsEnd.counters.packetsLost = 3 ∧ threePortsEnd.counters.outOfOrder = 1 := by
  decide

end Rperf3
