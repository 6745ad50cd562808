import Rperf3.ClientLoops
import Rperf3.Library.Segments
import Rperf3.ServerSessions

/-!
# The intervals of a transfer (`client.rs:943-1763`, `server.rs:881-1382`)

Every loop that reports intervals counts a transfer in the collector and in its
running interval, and stores the interval when it is due. Seen as a list of
transfers, the stored intervals are the segments that a due transfer closes
(`metered`); what is counted after the last of them is in no interval.
-/

namespace Rperf3
open Segments

/-! ### Transfers and the intervals they close -/

/-- A transfer that a loop has counted, with the clock readings after it. -/
structure Move where
  bytes : UInt64
  clock : IntervalClock

def closes (interval : Duration) (lastInterval : Instant) (m : Move) : Option Instant :=
  if m.clock.check - lastInterval ≥ interval then some m.clock.reset else none

def movedBytes (ms : List Move) : UInt64 := total Move.bytes ms

namespace MeasurementsCollector

def counted (c : MeasurementsCollector) : UInt64 := c.atomicBytesSent + c.atomicBytesReceived

def intervalBytes (c : MeasurementsCollector) : List UInt64 :=
  c.inner.intervals.intervals.map (fun stats => stats.bytes)

end MeasurementsCollector

/-- Between `c` and `c'` a loop has counted the transfers `ms` and stored the intervals they close;
`current` is in its running interval already. -/
structure Metered (interval : Duration) (c c' : MeasurementsCollector) (lastInterval : Instant)
    (current ms : List Move) : Prop where
  counted : c'.counted = c.counted + movedBytes ms
  intervals : c.intervalBytes.length +
      (segments (closes interval) lastInterval current ms).1.length ≤ maxIntervals →
    c'.intervalBytes =
      c.intervalBytes ++ (segments (closes interval) lastInterval current ms).1.map movedBytes

section Metered

variable {interval : Duration} {c c₁ c' : MeasurementsCollector} {lastInterval : Instant}
  {current ms : List Move} {m : Move}

theorem metered_nil (interval : Duration) (c : MeasurementsCollector) (lastInterval : Instant)
    (current : List Move) : Metered interval c c lastInterval current [] := by
  constructor
  · exact (UInt64.add_zero _).symm
  · intro _
    simp

theorem movedBytes_cons (m : Move) (ms : List Move) :
    movedBytes (m :: ms) = m.bytes + movedBytes ms := by
  simp [movedBytes, total]

theorem movedBytes_snoc (ms : List Move) (m : Move) :
    movedBytes (ms ++ [m]) = movedBytes ms + m.bytes := by
  rw [movedBytes, total_append]
  simp [movedBytes, total]

theorem addInterval_intervalBytes (c : MeasurementsCollector) (stats : IntervalStats)
    (h : c.intervalBytes.length < maxIntervals) :
    (c.addInterval stats).intervalBytes = c.intervalBytes ++ [stats.bytes] := by
  have hroom : ¬ c.inner.intervals.intervals.length ≥ maxIntervals := by
    rw [MeasurementsCollector.intervalBytes, List.length_map] at h
    omega
  simp [MeasurementsCollector.addInterval, MeasurementsCollector.intervalBytes,
    Measurements.addInterval, CircularIntervalBuffer.pushBack, if_neg hroom]

theorem Metered.stays (hdue : ¬ m.clock.check - lastInterval ≥ interval)
    (hcounted : c₁.counted = c.counted + m.bytes) (hsame : c₁.intervalBytes = c.intervalBytes)
    (h : Metered interval c₁ c' lastInterval (current ++ [m]) ms) :
    Metered interval c c' lastInterval current (m :: ms) := by
  have hopen : closes interval lastInterval m = none := if_neg hdue
  constructor
  · rw [h.counted, hcounted, movedBytes_cons, UInt64.add_assoc]
  · intro hroom
    rw [segments_stays hopen] at hroom ⊢
    rw [← hsame] at hroom ⊢
    exact h.intervals hroom

/-- A transfer after which the running interval is stored and a new one begins. -/
theorem Metered.closes (hdue : m.clock.check - lastInterval ≥ interval)
    (hcounted : c₁.counted = c.counted + m.bytes) (hsame : c₁.intervalBytes = c.intervalBytes)
    {stats : IntervalStats} (hstats : stats.bytes = movedBytes current + m.bytes)
    (h : Metered interval (c₁.addInterval stats) c' m.clock.reset [] ms) :
    Metered interval c c' lastInterval current (m :: ms) := by
  have hclosed : Rperf3.closes interval lastInterval m = some m.clock.reset := if_pos hdue
  constructor
  · have hadd : (c₁.addInterval stats).counted = c₁.counted := rfl
    rw [h.counted, hadd, hcounted, movedBytes_cons, UInt64.add_assoc]
  · intro hroom
    rw [segments_closes hclosed, List.length_cons] at hroom
    rw [segments_closes hclosed]
    have hstored := addInterval_intervalBytes c₁ stats (by rw [hsame]; omega)
    have hroom' : (c₁.addInterval stats).intervalBytes.length +
        (segments (Rperf3.closes interval) m.clock.reset [] ms).1.length ≤ maxIntervals := by
      rw [hstored, hsame, List.length_append, List.length_singleton]
      omega
    have hrest := h.intervals hroom'
    rw [hrest, hstored, hsame, hstats, List.map_cons, movedBytes_snoc, List.append_assoc]
    rfl

end Metered

/-! ### Calls that store no interval -/

def CollectorCall.storesInterval : CollectorCall → Bool
  | .addInterval _ => true
  | _ => false

theorem call_intervalBytes (c : MeasurementsCollector) {x : CollectorCall}
    (h : x.storesInterval = false) : (c.call x).intervalBytes = c.intervalBytes := by
  have hframe : ∀ interval, x ≠ .addInterval interval := by
    rintro interval rfl
    exact nomatch h
  rw [MeasurementsCollector.intervalBytes, call_intervals c hframe,
    MeasurementsCollector.intervalBytes]

theorem calls_intervalBytes (c : MeasurementsCollector) {cs : List CollectorCall}
    (h : ∀ x ∈ cs, x.storesInterval = false) : (c.calls cs).intervalBytes = c.intervalBytes := by
  induction cs generalizing c with
  | nil => rfl
  | cons x cs ih =>
    rw [MeasurementsCollector.calls_cons, ih _ (fun y hy => h y (List.mem_cons_of_mem _ hy)),
      call_intervalBytes c (h x (List.mem_cons_self ..))]

theorem calls_counted (c : MeasurementsCollector) (cs : List CollectorCall) :
    (c.calls cs).counted = c.counted +
      ((cs.map CollectorCall.sent).sum + (cs.map CollectorCall.received).sum) := by
  obtain ⟨hsent, hreceived⟩ := calls_atomics c cs
  simp only [MeasurementsCollector.counted, hsent, hreceived]
  ac_rfl

/-! ### The loops of the client -/

section Client

def clientMoves {α : Type} (body : ClientBody α) (cfg : LoopConfig) :
    List (ClientTick α) → List Move
  | [] => []
  | t :: ts =>
    if t.now - cfg.start < cfg.duration then
      if t.cancelled then []
      else
        match t.result with
        | .ok a =>
          match body.onIo a with
          | none => []
          | some transfer =>
            ⟨UInt64.ofNat (transfer.sent + transfer.received), t.clock⟩ :: clientMoves body cfg ts
        | .error _ => []
        | .timeout =>
          if body.checksAfterTimeout ∧ t.clock.elapsed - cfg.start ≥ cfg.duration then []
          else clientMoves body cfg ts
    else []

def ClientBody.StoresNone {α : Type} (body : ClientBody α) : Prop :=
  ∀ a transfer, body.onIo a = some transfer → ∀ x ∈ transfer.calls, x.storesInterval = false

theorem record_metered {α : Type} {body : ClientBody α} {cfg : LoopConfig} {st : ClientLoop}
    {transfer : Transfer} {t : ClientTick α} {c' : MeasurementsCollector} {current ms : List Move}
    (hcalls : ∀ x ∈ transfer.calls, x.storesInterval = false)
    (hrunning : st.loop.intervalBytes = movedBytes current)
    (h : ∀ next, (st.record body cfg transfer t).loop.intervalBytes = movedBytes next →
      Metered cfg.interval (st.record body cfg transfer t).collector c'
        (st.record body cfg transfer t).loop.lastInterval next ms) :
    Metered cfg.interval st.collector c' st.loop.lastInterval current
      (⟨UInt64.ofNat (transfer.sent + transfer.received), t.clock⟩ :: ms) := by
  have hsame := calls_intervalBytes st.collector hcalls
  have hcounted : (st.collector.calls transfer.calls).counted =
      st.collector.counted + UInt64.ofNat (transfer.sent + transfer.received) := by
    rw [calls_counted, transfer.countsSent, transfer.countsReceived, UInt64.ofNat_add]
  unfold ClientLoop.record at h
  dsimp only at h
  by_cases hdue : t.clock.check - st.loop.lastInterval ≥ cfg.interval
  · rw [if_pos hdue] at h
    exact .closes hdue hcounted hsame (by simp only [intervalStats, hrunning]) (h [] rfl)
  · rw [if_neg hdue] at h
    exact .stays hdue hcounted hsame (h _ (by simp only [movedBytes_snoc, hrunning]))

theorem clientLoop_metered {α : Type} {body : ClientBody α} (hbody : body.StoresNone)
    (cfg : LoopConfig) (ts : List (ClientTick α)) :
    ∀ (st : ClientLoop) (current : List Move), st.loop.intervalBytes = movedBytes current →
      Metered cfg.interval st.collector (clientLoop body cfg st ts).collector st.loop.lastInterval
        current (clientMoves body cfg ts) := by
  induction ts with
  | nil => exact fun st current _ => metered_nil ..
  | cons t ts ih =>
    intro st current hrunning
    unfold clientLoop clientMoves
    by_cases hnow : t.now - cfg.start < cfg.duration
    · rw [if_pos hnow, if_pos hnow]
      by_cases hcancel : t.cancelled = true
      · rw [if_pos hcancel, if_pos hcancel]
        exact metered_nil ..
      · rw [if_neg hcancel, if_neg hcancel]
        cases t.result with
        | ok a =>
          dsimp only
          cases hio : body.onIo a with
          | none => exact metered_nil ..
          | some transfer => exact record_metered (hbody a transfer hio) hrunning (ih _)
        | error e => exact metered_nil ..
        | timeout =>
          dsimp only
          split
          · exact metered_nil ..
          · exact ih st current hrunning
    · rw [if_neg hnow, if_neg hnow]
      exact metered_nil ..

theorem sendData_storesNone : Client.sendData.StoresNone := by
  rintro n transfer hio x hx
  obtain rfl := Option.some.inj hio
  obtain rfl := List.mem_singleton.mp hx
  rfl

theorem receiveData_storesNone : Client.receiveData.StoresNone := by
  rintro n transfer hio x hx
  by_cases hzero : n = 0
  · simp [Client.receiveData, hzero] at hio
  · simp only [Client.receiveData, if_neg hzero] at hio
    obtain rfl := Option.some.inj hio
    obtain rfl := List.mem_singleton.mp hx
    rfl

theorem udpReceive_storesNone : Client.udpReceive.StoresNone := by
  rintro a transfer hio x hx
  obtain rfl := Option.some.inj hio
  cases hparse : parsePacket a.1 with
  | none =>
    simp only [hparse, Option.map_none, Option.toList_none, List.nil_append] at hx
    obtain rfl := List.mem_singleton.mp hx
    rfl
  | some p =>
    simp only [hparse, Option.map_some, Option.toList_some, List.mem_append,
      List.mem_singleton] at hx
    rcases hx with rfl | rfl <;> rfl

end Client

/-! ### The senders of UDP on the client -/

section Sender

def standardMoves (cfg : LoopConfig) : List SendTick → List Move
  | [] => []
  | t :: ts =>
    if t.now - cfg.start < cfg.duration then
      if t.cancelled then []
      else
        match t.result with
        | .error _ => []
        | .ok n => ⟨UInt64.ofNat n, t.clock⟩ :: standardMoves cfg ts
    else []

def batchedMoves (p : SendParams) : BatchedState → List BatchTick → List Move
  | _, [] => []
  | st, t :: ts =>
    if t.now - p.loop.start < p.loop.duration then
      if t.cancelled then []
      else
        let st := fillBatch p st t.fills
        if st.batch.isEmpty then batchedMoves p st ts
        else
          match st.batch.send t.kernel with
          | (.error _, _) => []
          | (.ok (bytesSent, packetsSent), batch) =>
            let sent : SendState := { st.toSendState with
              collector := recordSent st.collector bytesSent packetsSent
              handed := st.handed ++ st.batch.handedBy t.kernel }
            ⟨UInt64.ofNat bytesSent, t.clock⟩ ::
              batchedMoves p ⟨sent.count p t.clock bytesSent packetsSent, batch⟩ ts
    else []

theorem recordSent_counted (c : MeasurementsCollector) (bytes packets : ℕ) :
    (recordSent c bytes packets).counted = c.counted + UInt64.ofNat bytes := by
  have hgrown := grown_recordSent c bytes packets
  simp only [MeasurementsCollector.counted, hgrown.sent, hgrown.received]
  rw [show UInt64.ofNat 0 = 0 from rfl, UInt64.add_zero]
  ac_rfl

theorem recordSent_intervalBytes (c : MeasurementsCollector) (bytes packets : ℕ) :
    (recordSent c bytes packets).intervalBytes = c.intervalBytes := by
  rw [recordSent_eq_calls]
  refine calls_intervalBytes c fun x hx => ?_
  rcases List.mem_cons.mp hx with rfl | hx
  · rfl
  · rw [List.eq_of_mem_replicate hx]
    rfl

theorem count_metered (st : SendState) {p : SendParams} {c c' : MeasurementsCollector}
    {clock : IntervalClock} {bytes packets : ℕ} {current ms : List Move}
    (hst : st.collector = recordSent c bytes packets)
    (hrunning : st.loop.intervalBytes = movedBytes current)
    (h : ∀ next, (st.count p clock bytes packets).loop.intervalBytes = movedBytes next →
      Metered p.loop.interval (st.count p clock bytes packets).collector c'
        (st.count p clock bytes packets).loop.lastInterval next ms) :
    Metered p.loop.interval c c' st.loop.lastInterval current
      (⟨UInt64.ofNat bytes, clock⟩ :: ms) := by
  have hcounted := recordSent_counted c bytes packets
  have hsame := recordSent_intervalBytes c bytes packets
  rw [← hst] at hcounted hsame
  unfold SendState.count at h
  dsimp only at h
  by_cases hdue : clock.check - st.loop.lastInterval ≥ p.loop.interval
  · rw [if_pos hdue] at h
    exact .closes hdue hcounted hsame (by simp only [intervalStats, hrunning]) (h [] rfl)
  · rw [if_neg hdue] at h
    exact .stays hdue hcounted hsame (h _ (by simp only [movedBytes_snoc, hrunning]))

theorem standardLoop_metered (p : SendParams) (ts : List SendTick) :
    ∀ (st : SendState) (current : List Move), st.loop.intervalBytes = movedBytes current →
      Metered p.loop.interval st.collector (standardLoop p st ts).collector st.loop.lastInterval
        current (standardMoves p.loop ts) := by
  induction ts with
  | nil => exact fun st current _ => metered_nil ..
  | cons t ts ih =>
    intro st current hrunning
    unfold standardLoop standardMoves
    by_cases hnow : t.now - p.loop.start < p.loop.duration
    · rw [if_pos hnow, if_pos hnow]
      by_cases hcancel : t.cancelled = true
      · rw [if_pos hcancel, if_pos hcancel]
        exact metered_nil ..
      · rw [if_neg hcancel, if_neg hcancel]
        cases t.result with
        | error e => exact metered_nil ..
        | ok n =>
          dsimp only
          exact count_metered { st with
            collector := recordSent st.collector n 1
            sequence := st.sequence + 1
            handed := st.handed ++ [⟨testPacket p st.sequence t.stamp, p.peer, n⟩] }
            rfl hrunning (ih _)
    · rw [if_neg hnow, if_neg hnow]
      exact metered_nil ..

theorem fillBatch_loop (p : SendParams) (st : BatchedState) (fills : List Fill) :
    (fillBatch p st fills).loop = st.loop := by
  induction fills generalizing st with
  | nil => rfl
  | cons f fs ih =>
    unfold fillBatch
    split
    · exact ih _
    · rfl

theorem batchedLoop_metered (p : SendParams) (ts : List BatchTick) :
    ∀ (st : BatchedState) (current : List Move), st.loop.intervalBytes = movedBytes current →
      Metered p.loop.interval st.collector (batchedLoop p st ts).collector st.loop.lastInterval
        current (batchedMoves p st ts) := by
  induction ts with
  | nil => exact fun st current _ => metered_nil ..
  | cons t ts ih =>
    intro st current hrunning
    unfold batchedLoop batchedMoves
    by_cases hnow : t.now - p.loop.start < p.loop.duration
    · rw [if_pos hnow, if_pos hnow]
      by_cases hcancel : t.cancelled = true
      · rw [if_pos hcancel, if_pos hcancel]
        exact metered_nil ..
      · rw [if_neg hcancel, if_neg hcancel]
        have hcollector := (fillBatch_frame p st t.fills).1
        have hloop := fillBatch_loop p st t.fills
        rw [← hloop] at hrunning ⊢
        rw [← hcollector]
        generalize fillBatch p st t.fills = filled at hrunning ⊢
        dsimp only
        by_cases hempty : filled.batch.isEmpty = true
        · rw [if_pos hempty, if_pos hempty]
          exact ih filled current hrunning
        · rw [if_neg hempty, if_neg hempty]
          rcases filled.batch.send t.kernel with ⟨kind | ⟨bytesSent, packetsSent⟩, batch⟩
          · exact metered_nil ..
          · dsimp only
            exact count_metered { filled.toSendState with
              collector := recordSent filled.collector bytesSent packetsSent
              handed := filled.handed ++ filled.batch.handedBy t.kernel }
              rfl hrunning (ih ⟨_, batch⟩)
    · rw [if_neg hnow, if_neg hnow]
      exact metered_nil ..

end Sender

/-! ### The loops of the server -/

section Server

def loopMoves {α : Type} (body : LoopBody α) (cfg : LoopConfig) : List (LoopEvent α) → List Move
  | [] => []
  | e :: es =>
    if e.now - cfg.start < cfg.duration then
      match e.result with
      | .ok a =>
        match body.onIo a with
        | none => []
        | some (_, bytes, _) => ⟨bytes, e.clock⟩ :: loopMoves body cfg es
      | .error _ => []
      | .timeout => loopMoves body cfg es
    else []

/-- The collector after the steps of a handler that has it alone. -/
def afterSteps (c : MeasurementsCollector) (steps : List HandlerStep) : MeasurementsCollector :=
  steps.foldl server.step c

theorem afterSteps_calls (c : MeasurementsCollector) (cs : List CollectorCall)
    (steps : List HandlerStep) :
    afterSteps c (cs.map .call ++ steps) = afterSteps (c.calls cs) steps := by
  rw [afterSteps, List.foldl_append, List.foldl_map]
  rfl

/-- The calls made for an outcome count its bytes and store no interval, and what is read before an
interval is stored changes nothing. -/
structure LoopBody.Counts {α : Type} (body : LoopBody α) : Prop where
  bytes : ∀ a cs n k, body.onIo a = some (cs, n, k) →
    (cs.map CollectorCall.sent).sum + (cs.map CollectorCall.received).sum = n
  storesNone : ∀ a cs n k, body.onIo a = some (cs, n, k) → ∀ x ∈ cs, x.storesInterval = false
  reads : ∀ c, afterSteps c body.reads = c

theorem afterSteps_stored {α : Type} {body : LoopBody α} (hbody : body.Counts)
    (c : MeasurementsCollector) (stats : IntervalStats) (steps : List HandlerStep) :
    afterSteps c (body.reads ++ (.call (.addInterval stats) :: steps)) =
      afterSteps (c.addInterval stats) steps := by
  have hreads := hbody.reads c
  rw [afterSteps] at hreads
  rw [afterSteps, List.foldl_append, hreads]
  rfl

theorem dataLoop_metered {α : Type} {body : LoopBody α} (hbody : body.Counts) (cfg : LoopConfig)
    (es : List (LoopEvent α)) :
    ∀ (c : MeasurementsCollector) (st : LoopState) (current : List Move),
      st.intervalBytes = movedBytes current →
      Metered cfg.interval c (afterSteps c (dataLoop body cfg st es)) st.lastInterval current
        (loopMoves body cfg es) := by
  induction es with
  | nil => exact fun c st current _ => metered_nil ..
  | cons e es ih =>
    intro c st current hrunning
    unfold dataLoop loopMoves
    by_cases hnow : e.now - cfg.start < cfg.duration
    · rw [if_pos hnow, if_pos hnow]
      cases e.result with
      | ok a =>
        dsimp only
        rcases hio : body.onIo a with _ | ⟨cs, bytes, packets⟩
        · exact metered_nil ..
        · have hsame := calls_intervalBytes c (hbody.storesNone a cs bytes packets hio)
          have hcounted : (c.calls cs).counted = c.counted + bytes := by
            rw [calls_counted, hbody.bytes a cs bytes packets hio]
          dsimp only
          by_cases hdue : e.clock.check - st.lastInterval ≥ cfg.interval
          · rw [if_pos hdue, afterSteps_calls, afterSteps_stored hbody]
            exact .closes hdue hcounted hsame (by simp only [intervalStats, hrunning])
              (ih _ ⟨e.clock.reset, 0, 0⟩ [] rfl)
          · rw [if_neg hdue, afterSteps_calls]
            exact .stays hdue hcounted hsame (ih _ _ _ (by simp only [movedBytes_snoc, hrunning]))
      | error e => exact metered_nil ..
      | timeout => exact ih c st current hrunning
    · rw [if_neg hnow, if_neg hnow]
      exact metered_nil ..

theorem sendData_counts : LoopBody.Counts sendData where
  bytes := by
    rintro a cs n k hio
    cases hio
    exact (UInt64.add_zero _).trans (UInt64.add_zero _)
  storesNone := by
    rintro a cs n k hio x hx
    cases hio
    obtain rfl := List.mem_singleton.mp hx
    rfl
  reads _ := rfl

theorem receiveData_counts : LoopBody.Counts receiveData where
  bytes := by
    rintro a cs n k hio
    obtain ⟨-, hio⟩ := Option.ite_none_left_eq_some.mp hio
    cases hio
    simp [CollectorCall.sent, CollectorCall.received]
  storesNone := by
    rintro a cs n k hio x hx
    obtain ⟨-, hio⟩ := Option.ite_none_left_eq_some.mp hio
    cases hio
    obtain rfl := List.mem_singleton.mp hx
    rfl
  reads _ := rfl

theorem sendUdpData_counts : LoopBody.Counts sendUdpData where
  bytes := by
    rintro a cs n k hio
    cases hio
    simp [CollectorCall.sent, CollectorCall.received]
  storesNone := by
    rintro a cs n k hio x hx
    cases hio
    simp only [List.mem_cons, List.not_mem_nil, or_false] at hx
    rcases hx with rfl | rfl <;> rfl
  reads _ := rfl

theorem receiveUdpData_counts : LoopBody.Counts receiveUdpData where
  bytes := by
    rintro a cs n k hio
    unfold receiveUdpData at hio
    dsimp only at hio
    split at hio
    · cases hio
      rfl
    · cases hio
      simp [CollectorCall.sent, CollectorCall.received]
  storesNone := by
    rintro a cs n k hio x hx
    unfold receiveUdpData at hio
    dsimp only at hio
    split at hio
    · cases hio
      exact absurd hx List.not_mem_nil
    · cases hio
      simp only [List.mem_cons, List.not_mem_nil, or_false] at hx
      rcases hx with rfl | rfl <;> rfl
  reads _ := rfl

end Server

/-! ### All loops -/

/-- A run of a loop that reports intervals, on a fresh collector. -/
inductive ReportingLoop where
  | clientSend (cfg : LoopConfig) (ticks : List (ClientTick ℕ))
  | clientReceive (cfg : LoopConfig) (ticks : List (ClientTick ℕ))
  | clientUdpSend (p : SendParams) (ticks : List SendTick)
  | clientUdpSendBatched (p : SendParams) (ticks : List BatchTick)
  | clientUdpReceive (cfg : LoopConfig) (ticks : List (ClientTick (Bytes × UInt64)))
  | serverSend (cfg : LoopConfig) (events : List (LoopEvent UInt64))
  | serverReceive (cfg : LoopConfig) (events : List (LoopEvent UInt64))
  | serverUdpSend (cfg : LoopConfig) (events : List (LoopEvent UInt64))
  | serverUdpReceive (cfg : LoopConfig) (events : List (LoopEvent (Bytes × UInt64)))

namespace ReportingLoop

def config : ReportingLoop → LoopConfig
  | .clientSend cfg _ | .clientReceive cfg _ | .clientUdpReceive cfg _ | .serverSend cfg _
  | .serverReceive cfg _ | .serverUdpSend cfg _ | .serverUdpReceive cfg _ => cfg
  | .clientUdpSend p _ | .clientUdpSendBatched p _ => p.loop

def exit : ReportingLoop → MeasurementsCollector
  | .clientSend cfg ticks => (clientLoop Client.sendData cfg (.init cfg .new) ticks).collector
  | .clientReceive cfg ticks =>
    (clientLoop Client.receiveData cfg (.init cfg .new) ticks).collector
  | .clientUdpSend p ticks => (standardLoop p (.init p .new) ticks).collector
  | .clientUdpSendBatched p ticks => (batchedLoop p ⟨.init p .new, .new⟩ ticks).collector
  | .clientUdpReceive cfg ticks =>
    (clientLoop Client.udpReceive cfg (.init cfg .new) ticks).collector
  | .serverSend cfg events => afterSteps .new (dataLoop sendData cfg cfg.first events)
  | .serverReceive cfg events => afterSteps .new (dataLoop receiveData cfg cfg.first events)
  | .serverUdpSend cfg events => afterSteps .new (dataLoop sendUdpData cfg cfg.first events)
  | .serverUdpReceive cfg events => afterSteps .new (dataLoop receiveUdpData cfg cfg.first events)

def moves : ReportingLoop → List Move
  | .clientSend cfg ticks => clientMoves Client.sendData cfg ticks
  | .clientReceive cfg ticks => clientMoves Client.receiveData cfg ticks
  | .clientUdpSend p ticks => standardMoves p.loop ticks
  | .clientUdpSendBatched p ticks => batchedMoves p ⟨.init p .new, .new⟩ ticks
  | .clientUdpReceive cfg ticks => clientMoves Client.udpReceive cfg ticks
  | .serverSend cfg events => loopMoves sendData cfg events
  | .serverReceive cfg events => loopMoves receiveData cfg events
  | .serverUdpSend cfg events => loopMoves sendUdpData cfg events
  | .serverUdpReceive cfg events => loopMoves receiveUdpData cfg events

/-- The transfers of each interval that comes due, and those after the last. -/
def split (l : ReportingLoop) : List (List Move) × List Move :=
  segments (closes l.config.interval) l.config.start [] l.moves

/-- The byte counts of the intervals sum to the bytes sent and received. -/
def Partitioned (l : ReportingLoop) : Prop :=
  (l.exit.get.intervals.intervals.map (fun stats => stats.bytes)).sum =
    l.exit.get.totalBytesSent + l.exit.get.totalBytesReceived

theorem metered (l : ReportingLoop) :
    Metered l.config.interval .new l.exit l.config.start [] l.moves := by
  cases l with
  | clientSend cfg ticks =>
    exact clientLoop_metered sendData_storesNone cfg ticks (.init cfg .new) [] rfl
  | clientReceive cfg ticks =>
    exact clientLoop_metered receiveData_storesNone cfg ticks (.init cfg .new) [] rfl
  | clientUdpSend p ticks => exact standardLoop_metered p ticks (.init p .new) [] rfl
  | clientUdpSendBatched p ticks => exact batchedLoop_metered p ticks ⟨.init p .new, .new⟩ [] rfl
  | clientUdpReceive cfg ticks =>
    exact clientLoop_metered udpReceive_storesNone cfg ticks (.init cfg .new) [] rfl
  | serverSend cfg events => exact dataLoop_metered sendData_counts cfg events _ _ [] rfl
  | serverReceive cfg events => exact dataLoop_metered receiveData_counts cfg events _ _ [] rfl
  | serverUdpSend cfg events => exact dataLoop_metered sendUdpData_counts cfg events _ _ [] rfl
  | serverUdpReceive cfg events =>
    exact dataLoop_metered receiveUdpData_counts cfg events _ _ [] rfl

/-- The stored intervals are those that came due, each with the bytes of its transfers, and every
byte counted is one of an interval or of the transfers after the last. -/
theorem intervals_eq (l : ReportingLoop) (h : l.split.1.length ≤ maxIntervals) :
    l.exit.intervalBytes = l.split.1.map movedBytes ∧
      l.exit.counted = (l.split.1.map movedBytes).sum + movedBytes l.split.2 := by
  have hmetered := l.metered
  have hnone : MeasurementsCollector.new.intervalBytes = [] := rfl
  constructor
  · have hstored := hmetered.intervals (by rw [hnone, List.length_nil, Nat.zero_add]; exact h)
    rwa [hnone, List.nil_append] at hstored
  · have hzero : MeasurementsCollector.new.counted = 0 := rfl
    have htotal := total_segments (closes l.config.interval) Move.bytes l.config.start []
      l.moves
    rw [List.nil_append] at htotal
    rw [hmetered.counted, hzero, UInt64.zero_add]
    exact htotal.symm

end ReportingLoop

theorem get_intervals (c : MeasurementsCollector) : c.get.intervals = c.inner.intervals := by
  unfold MeasurementsCollector.get
  dsimp only
  split <;> rfl

/-- The intervals make up the transfer unless bytes were counted after the last of them. -/
theorem partitioned_iff (l : ReportingLoop) (h : l.split.1.length ≤ maxIntervals) :
    l.Partitioned ↔ movedBytes l.split.2 = 0 := by
  obtain ⟨hintervals, hcounted⟩ := l.intervals_eq h
  unfold MeasurementsCollector.intervalBytes at hintervals
  unfold MeasurementsCollector.counted at hcounted
  unfold ReportingLoop.Partitioned
  rw [get_intervals, (get_totals _).1, (get_totals _).2, hintervals, hcounted]
  exact UInt64.left_eq_add

/-- One write of 1000 bytes in a test of one second, over at `elapsed`. -/
def oneMove (elapsed : Instant) : ReportingLoop :=
  .clientSend ⟨0, Duration.fromSecs 1, Duration.fromSecs 1⟩
    [⟨0, false, .ok 1000, ⟨elapsed, elapsed, elapsed, elapsed⟩, none⟩]

/-- Two intervals of one second in a test of two seconds, of two writes and of one. -/
def twoIntervals : ReportingLoop :=
  .clientSend ⟨0, Duration.fromSecs 2, Duration.fromSecs 1⟩
    ([(0, 1000, 400000000), (400000000, 700, 1000000000), (1200000000, 300, 2000000000)].map
      fun (now, bytes, after) =>
        ⟨now, false, .ok bytes, ⟨after, after, after, after⟩, none⟩)

theorem partitioned_twoIntervals :
    twoIntervals.split.1.map movedBytes = [1700, 300] ∧ twoIntervals.Partitioned :=
  ⟨by decide, (partitioned_iff twoIntervals (by decide)).mpr (by decide)⟩

/-- The bytes of the last second are in no interval. -/
theorem partitioned_early :
    ¬ ∀ l : ReportingLoop, l.split.1.length ≤ maxIntervals → l.Partitioned := by
  intro h
  have hearly := h (oneMove 500000000) (by decide)
  exact absurd hearly (by unfold ReportingLoop.Partitioned; decide)

end Rperf3
