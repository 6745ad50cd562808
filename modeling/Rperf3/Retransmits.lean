import Rperf3.ClientLoops
import Rperf3.DetailedJson
import Rperf3.Library.CounterDiff
import Rperf3.ServerLoops

/-!
# Retransmissions of an interval (`client.rs:1577-1615`, `server.rs:1219-1257`)

When an interval is due, `send_data` asks the kernel for the retransmissions so far
and reports the difference to the number it has kept. A failed `getsockopt` gives
the default statistics, whose number is zero, and that is kept too: the next report
has all retransmissions again. `retransmits_sum_iff` says when this makes no difference.
-/

namespace Rperf3
open CounterDiff

/-! ### `get_tcp_stats` (`measurements.rs:1705-1804`) -/

/-- The fields of `tcp_info` that are used. -/
structure TcpInfo where
  pmtu : UInt32
  rtt : UInt32
  rttvar : UInt32
  sndCwnd : UInt32
  sndMss : UInt32
  totalRetrans : UInt32

/-- `none` is a failed `getsockopt`. -/
def getTcpStats : Option TcpInfo → TcpStats
  | some info =>
    { retransmits := info.totalRetrans.toUInt64
      -- from segments to bytes
      sndCwnd := info.sndCwnd.toUInt64 * info.sndMss.toUInt64
      rtt := info.rtt.toUInt64
      rttvar := info.rttvar.toUInt64
      pmtu := info.pmtu.toUInt64
      flags := TcpStats.sndCwndPresent ||| TcpStats.rttPresent ||| TcpStats.rttvarPresent |||
        TcpStats.pmtuPresent }
  | none => TcpStats.default

def retransReading (info : Option TcpInfo) : Option UInt64 :=
  info.map (fun info => info.totalRetrans.toUInt64)

theorem getTcpStats_retransmits (info : Option TcpInfo) :
    (getTcpStats info).retransmits = (retransReading info).getD 0 := by
  cases info with
  | none => rfl
  | some info => rfl

/-! ### Reports of the server's `send_data` -/

structure TcpEvent extends LoopEvent UInt64 where
  /-- read when an interval is reported -/
  tcpInfo : Option TcpInfo

/-- The reports of `send_data` (`server.rs:1151-1278`), with `last_retransmits`. -/
def sendDataReports (cfg : LoopConfig) : LoopState → UInt64 → List TcpEvent → List IntervalReport
  | _, _, [] => []
  | st, lastRetransmits, e :: es =>
    if e.now - cfg.start < cfg.duration then
      match e.result with
      | .ok n =>
        let st := { st with intervalBytes := st.intervalBytes + n }
        if e.clock.check - st.lastInterval ≥ cfg.interval then
          let stats := intervalStats cfg u64Max st e.clock
          let currentRetransmits := (getTcpStats e.tcpInfo).retransmits
          let intervalRetransmits := saturatingSub currentRetransmits lastRetransmits
          tcpReport stats intervalRetransmits ::
            sendDataReports cfg ⟨e.clock.reset, 0, 0⟩ currentRetransmits es
        else sendDataReports cfg st lastRetransmits es
      | .error _ => []
      | .timeout => sendDataReports cfg st lastRetransmits es
    else []

def HandlerStep.interval : HandlerStep → Option IntervalStats
  | .call (.addInterval stats) => some stats
  | _ => none

def IntervalReport.stats (r : IntervalReport) : IntervalStats :=
  ⟨r.intervalStart, r.intervalEnd, r.bytes, r.bitsPerSecond, u64Max⟩

theorem sendDataReports_stats (cfg : LoopConfig) (st : LoopState) (last : UInt64)
    (es : List TcpEvent) :
    (sendDataReports cfg st last es).map IntervalReport.stats =
      (dataLoop sendData cfg st (es.map TcpEvent.toLoopEvent)).filterMap HandlerStep.interval := by
  induction es generalizing st last with
  | nil => rfl
  | cons e es ih =>
    unfold sendDataReports
    rw [List.map_cons, dataLoop]
    by_cases hnow : e.now - cfg.start < cfg.duration
    · rw [if_pos hnow, if_pos hnow]
      cases e.result with
      | ok n =>
        dsimp only [sendData]
        by_cases hdue : e.clock.check - st.lastInterval ≥ cfg.interval
        · rw [if_pos hdue, if_pos hdue, List.map_cons, ih]
          rfl
        · rw [if_neg hdue, if_neg hdue, ih, UInt64.add_zero]
          rfl
      | error kind => rfl
      | timeout => exact ih st last
    · rw [if_neg hnow, if_neg hnow]
      rfl

/-! ### The readings of a run and what is reported for them -/

def reportedRetransmits (lastRetransmits : UInt64) : List (Option UInt64) → List (Option UInt64)
  | [] => []
  | r :: rs =>
    let n := saturatingSub (r.getD 0) lastRetransmits
    (if n > 0 then some n else none) :: reportedRetransmits (r.getD 0) rs

/-- The readings at the ends of the intervals of a loop of the client. -/
def clientReadings {α : Type} (body : ClientBody α) (cfg : LoopConfig) :
    Instant → List (ClientTick α) → List (Option UInt64)
  | _, [] => []
  | lastInterval, t :: ts =>
    if t.now - cfg.start < cfg.duration then
      if t.cancelled then []
      else
        match t.result with
        | .ok a =>
          match body.onIo a with
          | none => []
          | some _ =>
            if t.clock.check - lastInterval ≥ cfg.interval then
              t.retransmits :: clientReadings body cfg t.clock.reset ts
            else clientReadings body cfg lastInterval ts
        | .error _ => []
        | .timeout =>
          if body.checksAfterTimeout ∧ t.clock.elapsed - cfg.start ≥ cfg.duration then []
          else clientReadings body cfg lastInterval ts
    else []

def serverReadings (cfg : LoopConfig) : Instant → List TcpEvent → List (Option UInt64)
  | _, [] => []
  | lastInterval, e :: es =>
    if e.now - cfg.start < cfg.duration then
      match e.result with
      | .ok _ =>
        if e.clock.check - lastInterval ≥ cfg.interval then
          retransReading e.tcpInfo :: serverReadings cfg e.clock.reset es
        else serverReadings cfg lastInterval es
      | .error _ => []
      | .timeout => serverReadings cfg lastInterval es
    else []

theorem clientLoop_retransmits {α : Type} {body : ClientBody α}
    (hbody : ∀ c, body.report c = tcpReport) (cfg : LoopConfig) (st : ClientLoop)
    (ts : List (ClientTick α)) :
    (clientLoop body cfg st ts).reports.map IntervalReport.retransmits =
      st.reports.map IntervalReport.retransmits ++
        reportedRetransmits st.lastRetransmits
          (clientReadings body cfg st.loop.lastInterval ts) := by
  induction ts generalizing st with
  | nil => exact (List.append_nil _).symm
  | cons t ts ih =>
    unfold clientLoop clientReadings
    by_cases hnow : t.now - cfg.start < cfg.duration
    · rw [if_pos hnow, if_pos hnow]
      by_cases hcancel : t.cancelled = true
      · rw [if_pos hcancel, if_pos hcancel]
        exact (List.append_nil _).symm
      · rw [if_neg hcancel, if_neg hcancel]
        cases t.result with
        | ok a =>
          dsimp only
          cases body.onIo a with
          | none => exact (List.append_nil _).symm
          | some transfer =>
            dsimp only
            rw [ih]
            unfold ClientLoop.record
            dsimp only
            by_cases hdue : t.clock.check - st.loop.lastInterval ≥ cfg.interval
            · rw [if_pos hdue, if_pos hdue]
              simp [hbody, tcpReport, reportedRetransmits]
            · rw [if_neg hdue, if_neg hdue]
        | error kind => exact (List.append_nil _).symm
        | timeout =>
          dsimp only
          split
          · exact (List.append_nil _).symm
          · exact ih st
    · rw [if_neg hnow, if_neg hnow]
      exact (List.append_nil _).symm

theorem sendDataReports_retransmits (cfg : LoopConfig) (st : LoopState) (last : UInt64)
    (es : List TcpEvent) :
    (sendDataReports cfg st last es).map IntervalReport.retransmits =
      reportedRetransmits last (serverReadings cfg st.lastInterval es) := by
  induction es generalizing st last with
  | nil => rfl
  | cons e es ih =>
    unfold sendDataReports serverReadings
    by_cases hnow : e.now - cfg.start < cfg.duration
    · rw [if_pos hnow, if_pos hnow]
      cases e.result with
      | ok n =>
        dsimp only
        by_cases hdue : e.clock.check - st.lastInterval ≥ cfg.interval
        · rw [if_pos hdue, if_pos hdue, List.map_cons, ih, reportedRetransmits,
            getTcpStats_retransmits]
          rfl
        · rw [if_neg hdue, if_neg hdue, ih]
      | error kind => rfl
      | timeout => exact ih st last
    · rw [if_neg hnow, if_neg hnow]
      rfl

/-! ### The sum of the reports -/

theorem saturatingSub_toNat (a b : UInt64) : (saturatingSub a b).toNat = a.toNat - b.toNat := by
  unfold saturatingSub
  split
  · next h => exact UInt64.toNat_sub_of_le a b h
  · next h =>
    have hlt : a.toNat < b.toNat := UInt64.lt_iff_toNat_lt.mp (UInt64.not_le.mp h)
    rw [Nat.sub_eq_zero_of_le hlt.le]
    rfl

theorem reported_toNat (n : UInt64) :
    ((if n > 0 then some n else none).getD 0).toNat = n.toNat := by
  split
  · rfl
  · next h =>
    have hzero : ¬ 0 < n.toNat := fun hpos => h (UInt64.lt_iff_toNat_lt.mpr hpos)
    simp only [Option.getD_none]
    have hnone : (0 : UInt64).toNat = 0 := rfl
    omega

theorem reportedRetransmits_toNat (last : UInt64) (rs : List (Option UInt64)) :
    (reportedRetransmits last rs).map (fun n => (n.getD 0).toNat) =
      differences last.toNat (rs.map (Option.map UInt64.toNat)) := by
  induction rs generalizing last with
  | nil => rfl
  | cons r rs ih =>
    have hgetD : (r.map UInt64.toNat).getD 0 = (r.getD 0).toNat := by cases r <;> rfl
    simp only [reportedRetransmits, List.map_cons, differences, reported_toNat,
      saturatingSub_toNat, ih, hgetD]

/-! ### Both senders -/

inductive SendDataRun where
  | client (cfg : LoopConfig) (c : MeasurementsCollector) (ticks : List (ClientTick ℕ))
  | server (cfg : LoopConfig) (events : List TcpEvent)

namespace SendDataRun

def reports : SendDataRun → List IntervalReport
  | .client cfg c ticks => (clientLoop Client.sendData cfg (.init cfg c) ticks).reports
  | .server cfg events => sendDataReports cfg cfg.first 0 events

/-- The readings at the ends of the intervals; a failed one is `none`. -/
def readings : SendDataRun → List (Option ℕ)
  | .client cfg _ ticks =>
    (clientReadings Client.sendData cfg cfg.start ticks).map (Option.map UInt64.toNat)
  | .server cfg events => (serverReadings cfg cfg.start events).map (Option.map UInt64.toNat)

/-- The retransmissions reported for the intervals sum to the last reading that succeeded. -/
def Telescopes (r : SendDataRun) : Prop :=
  (r.reports.map (fun report => (report.retransmits.getD 0).toNat)).sum = lastRead 0 r.readings

theorem reports_differences (r : SendDataRun) :
    r.reports.map (fun report => (report.retransmits.getD 0).toNat) =
      differences 0 r.readings := by
  have hmap : r.reports.map (fun report => (report.retransmits.getD 0).toNat) =
      (r.reports.map IntervalReport.retransmits).map (fun n => (n.getD 0).toNat) := by
    rw [List.map_map]
    rfl
  rw [hmap]
  cases r with
  | client cfg c ticks =>
    rw [reports, clientLoop_retransmits (fun _ => rfl), readings]
    exact reportedRetransmits_toNat 0 _
  | server cfg events =>
    rw [reports, sendDataReports_retransmits, readings]
    exact reportedRetransmits_toNat 0 _

end SendDataRun

/-- For a counter that never decreases, the reports telescope unless a reading fails between a
reading above zero and a later one. -/
theorem retransmits_sum_iff (r : SendDataRun) (h : Grows 0 r.readings) :
    r.Telescopes ↔ NoGap r.readings := by
  unfold SendDataRun.Telescopes
  rw [r.reports_differences]
  exact sum_differences_iff h

def everySecond (infos : List (Option TcpInfo)) : SendDataRun :=
  .server ⟨0, Duration.fromSecs 10, Duration.fromSecs 1⟩
    (infos.zipIdx.map fun info =>
      let after := Duration.fromSecs (info.2 + 1)
      ⟨⟨Duration.fromSecs info.2, .ok 1000, ⟨after, after, after, after⟩⟩, info.1⟩)

def retransmitted (n : UInt32) : Option TcpInfo := some ⟨1500, 100, 50, 10, 1448, n⟩

theorem retransmits_sum_early :
    (everySecond [retransmitted 0, none, retransmitted 5, none]).Telescopes := by
  refine (retransmits_sum_iff (everySecond [retransmitted 0, none, retransmitted 5, none])
    (by unfold Grows; decide)).mpr ?_
  exact sum_differences_iff (by unfold Grows; decide) |>.mp (by decide)

/-- Five retransmissions are reported twice. -/
theorem retransmits_sum_failed :
    ¬ ∀ r : SendDataRun, Grows 0 r.readings → r.Telescopes := by
  intro h
  have hfailed := h (everySecond [retransmitted 5, none, retransmitted 5])
    (by unfold Grows; decide)
  exact absurd hfailed (by unfold SendDataRun.Telescopes; decide)

end Rperf3
