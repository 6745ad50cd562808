import Rperf3.Library.LockScript
import Rperf3.DetailedResults

/-!
# The locks of the collector (`measurements.rs:942-1544`)

A collector has three mutexes. Here a method is what it does with them: the
order in which it locks and unlocks, as the scopes of its guards have it. Two
methods hold one lock while they take another, and they do so in opposite orders.
-/

namespace Rperf3
open LockScript

inductive CollectorLock where
  | inner
  | udpState
  | perStream
  deriving DecidableEq, Repr

/-- The public methods, with the values that decide which locks they take: the sequence number, the
`total_bytes_received` that `get` loads, and the protocol of the test. -/
inductive CollectorMethod where
  | recordBytesSent
  | recordBytesReceived
  | addInterval
  | recordUdpPacket
  | syncAtomicCounters
  | recordUdpPacketReceived (sequence : UInt64)
  | calculateUdpLoss
  | recordUdpLoss
  | updateJitter
  | setDuration
  | setStartTime
  | get (totalBytesReceived : UInt64)
  | getStreamStats
  | getDetailedResults (protocol : String)

/-- A guard in scope while `body` runs. -/
def locked (k : CollectorLock) (body : List (LockOp CollectorLock)) :
    List (LockOp CollectorLock) :=
  .acquire k :: body ++ [.release k]

namespace CollectorLocks

def getOrCreateStream : List (LockOp CollectorLock) := locked .perStream []

def calculateUdpLoss : List (LockOp CollectorLock) := locked .udpState []

/-- `build_udp_end_info` is called with the guard of `inner` in scope (`measurements.rs:1483`). -/
def buildUdpEndInfo : List (LockOp CollectorLock) := calculateUdpLoss

def recordUdpPacketReceived (sequence : UInt64) : List (LockOp CollectorLock) :=
  if sequence = u64Max then [] else locked .udpState (locked .inner [])

/-- The guard of `inner` is a temporary that is gone after the clone, and `streams` is dropped
before the loss is calculated. -/
def get (totalBytesReceived : UInt64) : List (LockOp CollectorLock) :=
  locked .inner [] ++ locked .perStream [] ++
    if totalBytesReceived > 0 then calculateUdpLoss else []

def getDetailedResults (protocol : String) : List (LockOp CollectorLock) :=
  locked .inner (if isUdp protocol then buildUdpEndInfo else [])

end CollectorLocks

def CollectorMethod.script : CollectorMethod → List (LockOp CollectorLock)
  | .recordBytesSent | .recordBytesReceived | .recordUdpPacket => CollectorLocks.getOrCreateStream
  | .recordUdpPacketReceived sequence => CollectorLocks.recordUdpPacketReceived sequence
  | .calculateUdpLoss => CollectorLocks.calculateUdpLoss
  | .get totalBytesReceived => CollectorLocks.get totalBytesReceived
  | .getDetailedResults protocol => CollectorLocks.getDetailedResults protocol
  | .addInterval | .syncAtomicCounters | .recordUdpLoss | .updateJitter | .setDuration
  | .setStartTime | .getStreamStats => locked .inner []

theorem script_wellFormed (m : CollectorMethod) : WellFormed [] m.script := by
  cases m with
  | recordUdpPacketReceived sequence =>
    change WellFormed [] (CollectorLocks.recordUdpPacketReceived sequence)
    unfold CollectorLocks.recordUdpPacketReceived
    split
    · decide
    · decide
  | get totalBytesReceived =>
    change WellFormed [] (CollectorLocks.get totalBytesReceived)
    unfold CollectorLocks.get
    split
    · decide
    · decide
  | getDetailedResults protocol =>
    change WellFormed [] (CollectorLocks.getDetailedResults protocol)
    unfold CollectorLocks.getDetailedResults
    split
    · decide
    · decide
  | _ => decide

theorem script_recordUdpPacketReceived {sequence : UInt64} (h : sequence ≠ u64Max) :
    (CollectorMethod.recordUdpPacketReceived sequence).script =
      [.acquire .udpState, .acquire .inner, .release .inner, .release .udpState] :=
  if_neg h

theorem script_getDetailedResults {protocol : String} (h : isUdp protocol = true) :
    (CollectorMethod.getDetailedResults protocol).script =
      [.acquire .inner, .acquire .udpState, .release .udpState, .release .inner] :=
  congrArg (locked .inner) (if_pos h)

/-- The two methods that take a lock while they hold another. -/
inductive Nested : CollectorMethod → CollectorLock → CollectorLock → Prop
  | recordUdpPacketReceived {sequence : UInt64} (h : sequence ≠ u64Max) :
    Nested (.recordUdpPacketReceived sequence) .udpState .inner
  | getDetailedResults {protocol : String} (h : isUdp protocol = true) :
    Nested (.getDetailedResults protocol) .inner .udpState

theorem nested_of_request {m : CollectorMethod} {guards : List CollectorLock} {k : CollectorLock}
    (h : (guards, k) ∈ requests [] m.script) (hne : guards ≠ []) :
    ∃ held, guards = [held] ∧ Nested m held k := by
  cases m with
  | recordUdpPacketReceived sequence =>
    by_cases hseq : sequence = u64Max
    · rw [show (CollectorMethod.recordUdpPacketReceived sequence).script = [] from if_pos hseq] at h
      exact absurd h List.not_mem_nil
    · rw [script_recordUdpPacketReceived hseq] at h
      obtain ⟨rfl, rfl⟩ | ⟨rfl, rfl⟩ : guards = [] ∧ k = .udpState ∨
          guards = [.udpState] ∧ k = .inner := by
        simpa [requests] using h
      · exact absurd rfl hne
      · exact ⟨.udpState, rfl, .recordUdpPacketReceived hseq⟩
  | getDetailedResults protocol =>
    by_cases hudp : isUdp protocol = true
    · rw [script_getDetailedResults hudp] at h
      obtain ⟨rfl, rfl⟩ | ⟨rfl, rfl⟩ : guards = [] ∧ k = .inner ∨
          guards = [.inner] ∧ k = .udpState := by
        simpa [requests] using h
      · exact absurd rfl hne
      · exact ⟨.inner, rfl, .getDetailedResults hudp⟩
    · have hscript : (CollectorMethod.getDetailedResults protocol).script = locked .inner [] :=
        congrArg (locked .inner) (if_neg hudp)
      rw [hscript] at h
      exact absurd (Prod.mk.inj (List.mem_singleton.mp h)).1 hne
  | get totalBytesReceived =>
    have hnil : ∀ r ∈ requests [] (CollectorLocks.get totalBytesReceived), r.1 = [] := by
      unfold CollectorLocks.get
      split
      · decide
      · decide
    exact absurd (hnil _ h) hne
  | _ => exact absurd (Prod.mk.inj (List.mem_singleton.mp h)).1 hne

/-- The locks of a collector cannot deadlock exactly when no two threads are such that one records
a received packet and the other reports a UDP test in detail. -/
theorem noDeadlock_iff {ι : Type} [DecidableEq ι] (calls : ι → List CollectorMethod) :
    (∀ s, Lts.Reachable (step CollectorMethod.script) (State.start calls) s → ¬ Deadlock s) ↔
      ¬ ∃ i j, i ≠ j ∧
        (∃ sequence, sequence ≠ u64Max ∧ .recordUdpPacketReceived sequence ∈ calls i) ∧
        (∃ protocol, isUdp protocol = true ∧ .getDetailedResults protocol ∈ calls j) := by
  constructor
  · rintro hfree ⟨i, j, hij, ⟨sequence, hseq, hm⟩, protocol, hudp, hm'⟩
    obtain ⟨s, hreach, hdead⟩ := deadlock_of_crossing script_wellFormed hij hm hm'
      (script_recordUdpPacketReceived hseq) (script_getDetailedResults hudp)
    exact hfree s hreach hdead
  · intro hnot s hreach hdead
    obtain ⟨i, j, hij, m, hm, m', hm', guards, k, guards', k', hne, hreq, hk, hreq'⟩ :=
      hdead.crossing (inv_reachable script_wellFormed hreach)
    obtain ⟨held, -, hnested⟩ := nested_of_request hreq hne
    obtain ⟨held', rfl, hnested'⟩ := nested_of_request hreq' (List.ne_nil_of_mem hk)
    obtain rfl := List.mem_singleton.mp hk
    cases hnested with
    | recordUdpPacketReceived hseq =>
      cases hnested' with
      | getDetailedResults hudp => exact hnot ⟨i, j, hij, ⟨_, hseq, hm⟩, _, hudp, hm'⟩
    | getDetailedResults hudp =>
      cases hnested' with
      | recordUdpPacketReceived hseq => exact hnot ⟨j, i, hij.symm, ⟨_, hseq, hm'⟩, _, hudp, hm⟩

/-- One thread records received packets, the other asks for the detailed results. -/
def recorderAndReporter : Bool → List CollectorMethod
  | true => [.recordUdpPacketReceived 0]
  | false => [.getDetailedResults "UDP"]

theorem recorderAndReporter_deadlock :
    ¬ ∀ (ι : Type) (_ : DecidableEq ι) (calls : ι → List CollectorMethod) (s),
      Lts.Reachable (step CollectorMethod.script) (State.start calls) s → ¬ Deadlock s := by
  intro h
  obtain ⟨s, hreach, hdead⟩ : ∃ s, Lts.Reachable (step CollectorMethod.script)
      (State.start recorderAndReporter) s ∧ Deadlock s :=
    deadlock_of_crossing (i := true) (j := false) script_wellFormed (by decide)
      (List.mem_singleton_self _) (List.mem_singleton_self _)
      (script_recordUdpPacketReceived (by decide)) (script_getDetailedResults (by decide))
  exact h Bool inferInstance recorderAndReporter s hreach hdead

end Rperf3
