import Rperf3.ClientRun
import Rperf3.Library.Pipeline

/-!
# The client and its reporter task (`client.rs:545-1480`, `interval_reporter.rs:114-174`)

The data loop hands its reports to a task of their own, through a queue; the task
of `Client::run` waits for it before it announces the end of the test. Here the
two take their steps in any order. `Rperf3.ClientRun` is the run in which the
reporter does all its work at the end, and every order gives the same events
(`clientTasks_run`).
-/

namespace Rperf3
open Pipeline (Iteration Emits stepProducer stepConsumer)

/-! ### One iteration of a data loop -/

/-- The reports that an iteration sends. -/
def ClientLoop.newReports {α : Type} (st : ClientLoop) (body : ClientBody α) (cfg : LoopConfig)
    (transfer : Transfer) (t : ClientTick α) : List IntervalReport :=
  (st.record body cfg transfer t).reports.drop st.reports.length

def clientIteration {α : Type} (body : ClientBody α) (cfg : LoopConfig) :
    ClientLoop × List (ClientTick α) →
      Iteration (ClientLoop × List (ClientTick α)) ClientLoop IntervalReport
  | (st, []) => .leave st
  | (st, t :: ts) =>
    if t.now - cfg.start < cfg.duration then
      if t.cancelled then .leave st
      else
        match t.result with
        | .ok a =>
          match body.onIo a with
          | none => .leave st
          | some transfer =>
            .again (st.record body cfg transfer t, ts) (st.newReports body cfg transfer t)
        | .error _ => .leave st
        | .timeout =>
          if body.checksAfterTimeout ∧ t.clock.elapsed - cfg.start ≥ cfg.duration then .leave st
          else .again (st, ts) []
    else .leave st

def standardIteration (p : SendParams) :
    SendState × List SendTick → Iteration (SendState × List SendTick) SendState IntervalReport
  | (st, []) => .leave st
  | (st, t :: ts) =>
    if t.now - p.loop.start < p.loop.duration then
      if t.cancelled then .leave st
      else
        let packet := testPacket p st.sequence t.stamp
        match t.result with
        | .error _ => .leave st
        | .ok n =>
          let st : SendState := { st with
            collector := recordSent st.collector n 1
            sequence := st.sequence + 1
            handed := st.handed ++ [⟨packet, p.peer, n⟩] }
          .again (st.count p t.clock n 1, ts) (st.reportOf p t.clock n 1)
    else .leave st

def batchedIteration (p : SendParams) :
    BatchedState × List BatchTick →
      Iteration (BatchedState × List BatchTick) BatchedState IntervalReport
  | (st, []) => .leave st
  | (st, t :: ts) =>
    if t.now - p.loop.start < p.loop.duration then
      if t.cancelled then .leave st
      else
        let st := fillBatch p st t.fills
        if st.batch.isEmpty then .again (st, ts) []
        else
          match st.batch.send t.kernel with
          | (.error _, batch) => .leave { st with batch := batch }
          | (.ok (bytesSent, packetsSent), batch) =>
            let sent : SendState := { st.toSendState with
              collector := recordSent st.collector bytesSent packetsSent
              handed := st.handed ++ st.batch.handedBy t.kernel }
            .again (⟨sent.count p t.clock bytesSent packetsSent, batch⟩, ts)
              (sent.reportOf p t.clock bytesSent packetsSent)
    else .leave st

inductive DataTask where
  | tcpSend (l : ClientLoop × List (ClientTick ℕ))
  | tcpReceive (l : ClientLoop × List (ClientTick ℕ))
  | udpReceive (l : ClientLoop × List (ClientTick (Bytes × UInt64)))
  | udpStandard (l : SendState × List SendTick)
  | udpBatched (l : BatchedState × List BatchTick)

namespace Client

def iterate (c : Client) (net : Network) :
    DataTask → Iteration DataTask MeasurementsCollector IntervalReport
  | .tcpSend l =>
    (clientIteration sendData (c.loopConfig net) l).map .tcpSend ClientLoop.collector
  | .tcpReceive l =>
    (clientIteration receiveData (c.loopConfig net) l).map .tcpReceive ClientLoop.collector
  | .udpReceive l =>
    (clientIteration udpReceive (c.loopConfig net) l).map .udpReceive ClientLoop.collector
  | .udpStandard l =>
    (standardIteration (c.sendParams net) l).map .udpStandard SendState.collector
  | .udpBatched l =>
    (batchedIteration (c.sendParams net) l).map .udpBatched (fun st => st.collector)

/-! ### The two tasks -/

def tcpTask (c : Client) (net : Network) : DataTask :=
  let st := ClientLoop.init (c.loopConfig net) (c.measurements.setStartTime net.startTime)
  if c.config.reverse then .tcpReceive (st, net.reads) else .tcpSend (st, net.writes)

def udpTask (c : Client) (net : Network) : DataTask :=
  if c.config.reverse then
    .udpReceive (ClientLoop.init (c.loopConfig net) c.measurements, net.datagrams)
  else
    match net.sender with
    | .batched ticks =>
      .udpBatched (⟨SendState.init (c.sendParams net) c.measurements, UdpSendBatch.new⟩, ticks)
    | .standard ticks => .udpStandard (SendState.init (c.sendParams net) c.measurements, ticks)

/-- How a run starts: up to a data loop and its reporter, or with the events and the result of a
run that has none. -/
abbrev Start := (List ProgressEvent × RunResult) ⊕ DataTask

def startTcp (c : Client) (net : Network) : Start :=
  match handshake net with
  | .error e => .inl ([], .err e)
  | .ok () => .inr (c.tcpTask net)

def startUdp (c : Client) (net : Network) : Start :=
  match handshake net with
  | .error e => .inl ([], .err e)
  | .ok () =>
    match net.socket with
    | .error e => .inl ([.testStarted], .err e)
    | .ok () =>
      match c.config.oneWay with
      | .send => .inl ([.testStarted], (c.runOneWaySend net).result)
      | .receive => .inl ([.testStarted], (c.runOneWayReceive net).result)
      | .none =>
        if c.config.reverse then
          match net.init with
          | .error e => .inl ([.testStarted], .err e)
          | .ok () => .inr (c.udpTask net)
        else .inr (c.udpTask net)

def startTask (c : Client) (net : Network) : Start :=
  match c.serverAddr with
  | none => .inl ([], .err (.config "Server address not set"))
  | some _ =>
    match c.config.protocol with
    | .tcp => c.startTcp net
    | .udp => c.startUdp net

def completed (c : Client) (m : MeasurementsCollector) : ProgressEvent :=
  match c.config.protocol with
  | .tcp => tcpCompleted m
  | .udp => udpCompleted m

/-- Only the TCP sender flushes. -/
def flush (c : Client) (net : Network) : Except Error Unit :=
  if c.config.protocol = .tcp ∧ ¬ c.config.reverse then net.flush else .ok ()

/-- What follows the reporter: the last event and the end of the run. -/
def finishTask (c : Client) (net : Network) (m : MeasurementsCollector) :
    List ProgressEvent × RunResult :=
  let m := m.setDuration (net.finish - net.loopStart)
  match c.flush net with
  | .error e => ([], .err e)
  | .ok () => ([c.completed m], .ofExcept net.output)

end Client

def IntervalReport.event (r : IntervalReport) : ProgressEvent :=
  .intervalUpdate r.intervalStart r.intervalEnd r.bytes r.bitsPerSecond r.packets r.jitterMs
    r.lostPackets r.lostPercent r.retransmits

inductive RunPhase where
  | starting
  /-- the data loop, then waiting for the reporter -/
  | testing (p : Pipeline.State DataTask MeasurementsCollector IntervalReport)
  /-- `sent` are the reports that the loop has sent -/
  | finished (result : RunResult) (sent : List IntervalReport)

structure ClientTasks where
  phase : RunPhase
  /-- the events the callback has received -/
  callbacks : List ProgressEvent

inductive ClientTask where
  | main
  | reporter

namespace ClientTasks

def start : ClientTasks := ⟨.starting, []⟩

def stepMain (c : Client) (net : Network) (s : ClientTasks) : Option ClientTasks :=
  match s.phase with
  | .starting =>
    match c.startTask net with
    | .inl (events, result) => some ⟨.finished result [], s.callbacks ++ c.notify events⟩
    | .inr task => some ⟨.testing (Pipeline.start task), s.callbacks ++ c.notify [.testStarted]⟩
  | .testing p =>
    match p.producer with
    | .running _ => (stepProducer (c.iterate net) p).map fun p => { s with phase := .testing p }
    | .left m =>
      match p.consumer with
      | .finished =>
        let (events, result) := c.finishTask net m
        some ⟨.finished result p.sent, s.callbacks ++ c.notify events⟩
      | _ => none
  | .finished .. => none

def stepReporter (c : Client) (s : ClientTasks) : Option ClientTasks :=
  match s.phase with
  | .testing p => (stepConsumer p).map fun p' =>
      ⟨.testing p', s.callbacks ++ c.notify (p.consumer.held.map IntervalReport.event)⟩
  | _ => none

def step (c : Client) (net : Network) (s : ClientTasks) : ClientTask → Option ClientTasks
  | .main => s.stepMain c net
  | .reporter => s.stepReporter c

end ClientTasks

/-! ### The loops, one iteration after the other -/

theorem record_reports {α : Type} (st : ClientLoop) (body : ClientBody α) (cfg : LoopConfig)
    (transfer : Transfer) (t : ClientTick α) :
    (st.record body cfg transfer t).reports =
      st.reports ++ st.newReports body cfg transfer t := by
  have hprefix : st.reports <+: (st.record body cfg transfer t).reports := by
    unfold ClientLoop.record
    dsimp only
    split
    · exact List.prefix_append ..
    · exact List.prefix_rfl
  obtain ⟨new, hnew⟩ := hprefix
  rw [ClientLoop.newReports, ← hnew, List.drop_left]

theorem clientLoop_emits {α : Type} (body : ClientBody α) (cfg : LoopConfig) (st : ClientLoop)
    (ts : List (ClientTick α)) :
    ∃ out, Emits (clientIteration body cfg) (st, ts) out (clientLoop body cfg st ts) ∧
      (clientLoop body cfg st ts).reports = st.reports ++ out := by
  have hleave : ∀ {st ts}, clientIteration body cfg (st, ts) = .leave st →
      ∃ out, Emits (clientIteration body cfg) (st, ts) out st ∧ st.reports = st.reports ++ out :=
    fun hiter => ⟨[], .leave hiter, (List.append_nil _).symm⟩
  induction ts generalizing st with
  | nil => exact hleave rfl
  | cons t ts ih =>
    unfold clientLoop
    by_cases hnow : t.now - cfg.start < cfg.duration
    · rw [if_pos hnow]
      by_cases hcancel : t.cancelled = true
      · rw [if_pos hcancel]
        exact hleave (by rw [clientIteration, if_pos hnow, if_pos hcancel])
      · rw [if_neg hcancel]
        cases hresult : t.result with
        | error kind =>
          exact hleave (by rw [clientIteration, if_pos hnow, if_neg hcancel, hresult])
        | timeout =>
          dsimp only
          split
          · next hover =>
            exact hleave (by
              simp only [clientIteration, if_pos hnow, if_neg hcancel, hresult, if_pos hover])
          · next hover =>
            obtain ⟨out, hemits, hreports⟩ := ih st
            refine ⟨out, .silent ?_ hemits, hreports⟩
            simp only [clientIteration, if_pos hnow, if_neg hcancel, hresult, if_neg hover]
        | ok a =>
          dsimp only
          cases hio : body.onIo a with
          | none =>
            exact hleave (by
              simp only [clientIteration, if_pos hnow, if_neg hcancel, hresult, hio])
          | some transfer =>
            obtain ⟨out, hemits, hreports⟩ := ih (st.record body cfg transfer t)
            refine ⟨st.newReports body cfg transfer t ++ out, .again ?_ hemits, ?_⟩
            · simp only [clientIteration, if_pos hnow, if_neg hcancel, hresult, hio]
            · rw [hreports, record_reports, List.append_assoc]
    · rw [if_neg hnow]
      exact hleave (by rw [clientIteration, if_neg hnow])

theorem standardLoop_emits (p : SendParams) (st : SendState) (ts : List SendTick) :
    Emits (standardIteration p) (st, ts) (standardReports p st ts) (standardLoop p st ts) := by
  induction ts generalizing st with
  | nil => exact .leave rfl
  | cons t ts ih =>
    unfold standardLoop standardReports
    by_cases hnow : t.now - p.loop.start < p.loop.duration
    · rw [if_pos hnow, if_pos hnow]
      by_cases hcancel : t.cancelled = true
      · rw [if_pos hcancel, if_pos hcancel]
        exact .leave (by rw [standardIteration, if_pos hnow, if_pos hcancel])
      · rw [if_neg hcancel, if_neg hcancel]
        cases hresult : t.result with
        | error kind =>
          exact .leave (by simp only [standardIteration, if_pos hnow, if_neg hcancel, hresult])
        | ok n =>
          refine .again ?_ (ih _)
          simp only [standardIteration, if_pos hnow, if_neg hcancel, hresult]
    · rw [if_neg hnow, if_neg hnow]
      exact .leave (by rw [standardIteration, if_neg hnow])

theorem batchedLoop_emits (p : SendParams) (st : BatchedState) (ts : List BatchTick) :
    Emits (batchedIteration p) (st, ts) (batchedReports p st ts) (batchedLoop p st ts) := by
  induction ts generalizing st with
  | nil => exact .leave rfl
  | cons t ts ih =>
    unfold batchedLoop batchedReports
    by_cases hnow : t.now - p.loop.start < p.loop.duration
    · rw [if_pos hnow, if_pos hnow]
      by_cases hcancel : t.cancelled = true
      · rw [if_pos hcancel, if_pos hcancel]
        exact .leave (by rw [batchedIteration, if_pos hnow, if_pos hcancel])
      · rw [if_neg hcancel, if_neg hcancel]
        by_cases hempty : (fillBatch p st t.fills).batch.isEmpty = true
        · simp only [if_pos hempty]
          refine .silent ?_ (ih _)
          simp only [batchedIteration, if_pos hnow, if_neg hcancel, if_pos hempty]
        · simp only [if_neg hempty]
          rcases hsend : (fillBatch p st t.fills).batch.send t.kernel with
            ⟨kind | ⟨bytesSent, packetsSent⟩, batch⟩
          · refine .leave ?_
            simp only [batchedIteration, if_pos hnow, if_neg hcancel, if_neg hempty, hsend]
          · refine .again ?_ (ih _)
            simp only [batchedIteration, if_pos hnow, if_neg hcancel, if_neg hempty, hsend]
    · rw [if_neg hnow, if_neg hnow]
      exact .leave (by rw [batchedIteration, if_neg hnow])

/-! ### What the loop of a run sends, and the collector it leaves -/

theorem intervalUpdates_eq (reports : List IntervalReport) :
    intervalUpdates reports = reports.map IntervalReport.event := by
  unfold intervalUpdates
  induction reports with
  | nil => rfl
  | cons r reports ih => exact congrArg (r.event :: ·) ih

namespace Client

variable {c : Client} {net : Network}

theorem clientLoop_iterate {α : Type} {body : ClientBody α}
    (task : ClientLoop × List (ClientTick α) → DataTask)
    (hiterate : ∀ l, c.iterate net (task l) =
      (clientIteration body (c.loopConfig net) l).map task ClientLoop.collector)
    {st : ClientLoop} (hstart : st.reports = []) (ts : List (ClientTick α)) :
    Emits (c.iterate net) (task (st, ts)) (clientLoop body (c.loopConfig net) st ts).reports
      (clientLoop body (c.loopConfig net) st ts).collector := by
  obtain ⟨out, hemits, hreports⟩ := clientLoop_emits body (c.loopConfig net) st ts
  rw [hreports, hstart]
  exact hemits.map task ClientLoop.collector hiterate

theorem completed_tcp (hprotocol : c.config.protocol = .tcp) (m : MeasurementsCollector) :
    c.completed m = tcpCompleted m := by
  unfold completed
  rw [hprotocol]

theorem completed_udp (hprotocol : c.config.protocol = .udp) (m : MeasurementsCollector) :
    c.completed m = udpCompleted m := by
  unfold completed
  rw [hprotocol]

/-- The run `r` is the one whose loop sends `out` and leaves the collector `m`. -/
structure Finishes (c : Client) (net : Network) (out : List IntervalReport)
    (m : MeasurementsCollector) (r : ClientRun) : Prop where
  result : r.result = (c.finishTask net m).2
  events : r.events =
    c.notify (.testStarted :: (out.map IntervalReport.event ++ (c.finishTask net m).1))

theorem finishes_ok {r : ClientRun} {out : List IntervalReport} {m : MeasurementsCollector}
    (hflush : c.flush net = .ok ()) (hresult : r.result = .ofExcept net.output)
    (hevents : r.events = c.notify (.testStarted :: (intervalUpdates out ++
      [c.completed (m.setDuration (net.finish - net.loopStart))]))) : Finishes c net out m r := by
  have hfinish : c.finishTask net m =
      ([c.completed (m.setDuration (net.finish - net.loopStart))], .ofExcept net.output) := by
    unfold finishTask
    simp only [hflush]
  constructor
  · rw [hresult, hfinish]
  · rw [hevents, hfinish, intervalUpdates_eq]

theorem finishes_err {r : ClientRun} {out : List IntervalReport} {m : MeasurementsCollector}
    {e : Error} (hflush : c.flush net = .error e) (hresult : r.result = .err e)
    (hevents : r.events = c.notify (.testStarted :: intervalUpdates out)) :
    Finishes c net out m r := by
  have hfinish : c.finishTask net m = ([], .err e) := by
    unfold finishTask
    simp only [hflush]
  constructor
  · rw [hresult, hfinish]
  · rw [hevents, hfinish, intervalUpdates_eq, List.append_nil]

theorem runTcp_finishes (hprotocol : c.config.protocol = .tcp)
    (hhandshake : handshake net = .ok ()) :
    ∃ out m, Emits (c.iterate net) (c.tcpTask net) out m ∧
      Finishes c net out m (c.runTcp net) := by
  unfold runTcp tcpTask
  rw [hhandshake]
  dsimp only
  by_cases hreverse : c.config.reverse = true
  · have hflush : c.flush net = .ok () := if_neg (fun h => h.2 hreverse)
    simp only [if_pos hreverse]
    refine ⟨_, _, clientLoop_iterate .tcpReceive (fun _ => rfl) rfl net.reads, ?_⟩
    refine finishes_ok hflush rfl ?_
    rw [completed_tcp hprotocol]
    rfl
  · have hflush : c.flush net = net.flush := if_pos ⟨hprotocol, hreverse⟩
    simp only [if_neg hreverse]
    refine ⟨_, _, clientLoop_iterate .tcpSend (fun _ => rfl) rfl net.writes, ?_⟩
    cases hnet : net.flush with
    | error e => exact finishes_err (hflush.trans hnet) rfl rfl
    | ok _ =>
      refine finishes_ok (hflush.trans hnet) rfl ?_
      rw [completed_tcp hprotocol]
      rfl

theorem udpRun_finishes (hprotocol : c.config.protocol = .udp) (m : MeasurementsCollector)
    (out : List IntervalReport) (sent received : ℕ) :
    Finishes c net out m
      (c.udpRun net (m.setDuration (net.finish - net.loopStart)) out sent received) := by
  have hflush : c.flush net = .ok () := by
    unfold flush
    rw [hprotocol]
    exact if_neg (fun h => nomatch h.1)
  refine finishes_ok hflush rfl ?_
  rw [completed_udp hprotocol]
  rfl

theorem runUdpReceive_finishes (hprotocol : c.config.protocol = .udp)
    (hreverse : c.config.reverse = true) :
    ∃ out m, Emits (c.iterate net) (c.udpTask net) out m ∧
      Finishes c net out m (c.runUdpReceive net) := by
  unfold udpTask
  rw [if_pos hreverse]
  exact ⟨_, _, clientLoop_iterate .udpReceive (fun _ => rfl) rfl net.datagrams,
    udpRun_finishes hprotocol ..⟩

theorem runUdpSend_finishes (hprotocol : c.config.protocol = .udp)
    (hforward : ¬ c.config.reverse = true) :
    ∃ out m, Emits (c.iterate net) (c.udpTask net) out m ∧
      Finishes c net out m (c.runUdpSend net) := by
  unfold udpTask runUdpSend
  rw [if_neg hforward]
  cases net.sender with
  | batched ticks =>
    have hiterate : ∀ l, c.iterate net (.udpBatched l) =
        (batchedIteration (c.sendParams net) l).map .udpBatched (fun st => st.collector) :=
      fun _ => rfl
    exact ⟨_, _, (batchedLoop_emits (c.sendParams net) _ ticks).map _ _ hiterate,
      udpRun_finishes hprotocol ..⟩
  | standard ticks =>
    have hiterate : ∀ l, c.iterate net (.udpStandard l) =
        (standardIteration (c.sendParams net) l).map .udpStandard SendState.collector :=
      fun _ => rfl
    exact ⟨_, _, (standardLoop_emits (c.sendParams net) _ ticks).map _ _ hiterate,
      udpRun_finishes hprotocol ..⟩

theorem notify_nil (c : Client) : c.notify [] = [] := by
  unfold notify
  split <;> rfl

theorem notify_append (c : Client) (events events' : List ProgressEvent) :
    c.notify (events ++ events') = c.notify events ++ c.notify events' := by
  unfold notify
  split <;> rfl

/-- A run without a reporter. -/
structure Alone (c : Client) (r : ClientRun) (told : List ProgressEvent) (outcome : RunResult) :
    Prop where
  result : r.result = outcome
  events : r.events = c.notify told
  oneWay : outcome = .ok → c.oneWayUdp = true

/-- The run `r` goes on from its start. -/
inductive Begins (c : Client) (net : Network) : Start → ClientRun → Prop
  | alone {r told outcome} : Alone c r told outcome → Begins c net (.inl (told, outcome)) r
  | task {r task out m} : Emits (c.iterate net) task out m → Finishes c net out m r →
      Begins c net (.inr task) r

theorem begins_failed {r : ClientRun} {e : Error} (hresult : r.result = .err e)
    (hevents : r.events = []) : Begins c net (.inl ([], .err e)) r :=
  .alone ⟨hresult, hevents.trans (notify_nil c).symm, nofun⟩

theorem begins_unrecorded {e : Error} :
    Begins c net (.inl ([.testStarted], .err e)) (c.unrecorded (.err e) 0 0) :=
  .alone ⟨rfl, rfl, nofun⟩

theorem begins_oneWay (hprotocol : c.config.protocol = .udp) (hmode : c.config.oneWay ≠ .none)
    {r : ClientRun} (hevents : r.events = c.notify [.testStarted]) :
    Begins c net (.inl ([.testStarted], r.result)) r :=
  .alone ⟨rfl, hevents, fun _ => decide_eq_true ⟨hprotocol, hmode⟩⟩

theorem startTcp_begins (hprotocol : c.config.protocol = .tcp) :
    Begins c net (c.startTcp net) (c.runTcp net) := by
  unfold startTcp
  cases hhandshake : handshake net with
  | error e =>
    unfold runTcp
    rw [hhandshake]
    exact begins_failed rfl rfl
  | ok _ =>
    obtain ⟨out, m, hemits, hfinishes⟩ := runTcp_finishes hprotocol hhandshake
    exact .task hemits hfinishes

theorem startUdp_begins (hprotocol : c.config.protocol = .udp) :
    Begins c net (c.startUdp net) (c.runUdp net) := by
  unfold startUdp runUdp
  cases handshake net with
  | error e => exact begins_failed rfl rfl
  | ok _ =>
    dsimp only
    cases net.socket with
    | error e => exact begins_unrecorded
    | ok _ =>
      dsimp only
      cases hmode : c.config.oneWay with
      | send =>
        obtain ⟨result, sent, hsend⟩ := runOneWaySend_eq c net
        exact begins_oneWay hprotocol (by rw [hmode]; exact nofun) (by rw [hsend]; rfl)
      | receive => exact begins_oneWay hprotocol (by rw [hmode]; exact nofun) rfl
      | none =>
        dsimp only
        by_cases hreverse : c.config.reverse = true
        · rw [if_pos hreverse, if_pos hreverse]
          cases net.init with
          | error e => exact begins_unrecorded
          | ok _ =>
            obtain ⟨out, m, hemits, hfinishes⟩ := runUdpReceive_finishes hprotocol hreverse
            exact .task hemits hfinishes
        · rw [if_neg hreverse, if_neg hreverse]
          obtain ⟨out, m, hemits, hfinishes⟩ := runUdpSend_finishes hprotocol hreverse
          exact .task hemits hfinishes

theorem startTask_begins (c : Client) (net : Network) :
    Begins c net (c.startTask net) (c.run net) := by
  unfold startTask run
  cases c.serverAddr with
  | none => exact begins_failed rfl rfl
  | some addr =>
    cases hprotocol : c.config.protocol with
    | tcp => exact startTcp_begins hprotocol
    | udp => exact startUdp_begins hprotocol

end Client

/-! ### The invariant -/

namespace ClientTasks

variable {c : Client} {net : Network} {s s' : ClientTasks}

def Inv (c : Client) (net : Network) (s : ClientTasks) : Prop :=
  match s.phase with
  | .starting => s.callbacks = []
  | .testing p => ∃ task, c.startTask net = .inr task ∧ Pipeline.Inv (c.iterate net) task p ∧
      s.callbacks = c.notify (.testStarted :: p.handled.map IntervalReport.event)
  | .finished result sent =>
    (∃ events, c.startTask net = .inl (events, result) ∧ s.callbacks = c.notify events) ∨
    ∃ task m, c.startTask net = .inr task ∧ Emits (c.iterate net) task sent m ∧
      (c.finishTask net m).2 = result ∧ s.callbacks =
        c.notify (.testStarted :: (sent.map IntervalReport.event ++ (c.finishTask net m).1))

theorem inv_stepMain (h : s.Inv c net) (hs : s.stepMain c net = some s') : s'.Inv c net := by
  obtain ⟨phase, callbacks⟩ := s
  unfold stepMain at hs
  unfold Inv at h
  cases phase with
  | starting =>
    simp only at h hs
    subst h
    cases hstart : c.startTask net with
    | inl early =>
      rw [hstart] at hs
      cases hs
      exact .inl ⟨_, hstart, rfl⟩
    | inr task =>
      rw [hstart] at hs
      cases hs
      exact ⟨task, hstart, Pipeline.inv_start task, rfl⟩
  | testing p =>
    obtain ⟨task, hstart, hinv, hcallbacks⟩ := h
    simp only at hcallbacks hs
    cases hproducer : p.producer with
    | running l =>
      rw [hproducer] at hs
      obtain ⟨p', hp', rfl⟩ := Option.map_eq_some_iff.mp hs
      refine ⟨task, hstart, Pipeline.inv_stepProducer hinv hp', ?_⟩
      rw [Pipeline.stepProducer_handled hp']
      exact hcallbacks
    | left m =>
      cases hconsumer : p.consumer with
      | waiting =>
        rw [hproducer, hconsumer] at hs
        exact nomatch hs
      | handling r =>
        rw [hproducer, hconsumer] at hs
        exact nomatch hs
      | finished =>
        rw [hproducer, hconsumer] at hs
        cases hs
        obtain ⟨m', hleft, hemits, hhandled⟩ := hinv.finished hconsumer
        obtain rfl := Pipeline.Producer.left.inj (hproducer.symm.trans hleft)
        refine .inr ⟨task, m, hstart, hemits, rfl, ?_⟩
        simp only
        rw [hcallbacks, hhandled, ← c.notify_append]
        rfl
  | finished result sent => exact nomatch hs

theorem inv_stepReporter (h : s.Inv c net) (hs : s.stepReporter c = some s') : s'.Inv c net := by
  obtain ⟨phase, callbacks⟩ := s
  unfold stepReporter at hs
  cases phase with
  | starting => exact nomatch hs
  | finished result sent => exact nomatch hs
  | testing p =>
    obtain ⟨task, hstart, hinv, hcallbacks⟩ := h
    obtain ⟨p', hp', rfl⟩ := Option.map_eq_some_iff.mp hs
    refine ⟨task, hstart, Pipeline.inv_stepConsumer hinv hp', ?_⟩
    simp only at hcallbacks ⊢
    rw [(Pipeline.stepConsumer_frame hp').2.2, hcallbacks, ← c.notify_append, List.map_append]
    rfl

theorem inv_reachable (h : Lts.Reachable (step c net) start s) : s.Inv c net := by
  refine h.invariant rfl (fun s task s' hinv _ hs => ?_)
  cases task with
  | main => exact inv_stepMain hinv hs
  | reporter => exact inv_stepReporter hinv hs

/-- Neither task waits for the other for ever: while the run goes on, one of them can step. -/
theorem exists_step (h : Lts.Reachable (step c net) start s)
    (hgoing : ∀ result sent, s.phase ≠ .finished result sent) :
    ∃ task s', step c net s task = some s' := by
  have hinv := inv_reachable h
  obtain ⟨phase, callbacks⟩ := s
  cases phase with
  | finished result sent => exact absurd rfl (hgoing result sent)
  | starting =>
    refine ⟨.main, ?_⟩
    unfold step stepMain
    cases hstart : c.startTask net with
    | inl early => exact ⟨_, rfl⟩
    | inr task => exact ⟨_, rfl⟩
  | testing p =>
    obtain ⟨task, -, hinv, -⟩ := hinv
    by_cases hconsumer : p.consumer = .finished
    · obtain ⟨m, hleft, -, -⟩ := hinv.finished hconsumer
      refine ⟨.main, ?_⟩
      unfold step stepMain
      simp only [hleft, hconsumer]
      exact ⟨_, rfl⟩
    · obtain ⟨turn, p', hp'⟩ := hinv.exists_step hconsumer
      cases turn with
      | producer =>
        obtain ⟨l, hrunning, -⟩ := Pipeline.stepProducer_cases hp'
        refine ⟨.main, ⟨.testing p', callbacks⟩, ?_⟩
        unfold step stepMain
        simp only [hrunning]
        exact Option.map_eq_some_iff.mpr ⟨p', hp', rfl⟩
      | consumer =>
        exact ⟨.reporter, _, Option.map_eq_some_iff.mpr ⟨p', hp', rfl⟩⟩

end ClientTasks

/-! ### Finished runs -/

section Finished

variable {c : Client} {net : Network} {s : ClientTasks} {result : RunResult}
  {sent : List IntervalReport}

/-- In any order of their steps, the two tasks do what they do one after the other. -/
theorem clientTasks_run (h : Lts.Reachable (ClientTasks.step c net) ClientTasks.start s)
    (hfinished : s.phase = .finished result sent) :
    result = (c.run net).result ∧ s.callbacks = (c.run net).events := by
  have hinv := ClientTasks.inv_reachable h
  have hbegins := c.startTask_begins net
  unfold ClientTasks.Inv at hinv
  rw [hfinished] at hinv
  rcases hinv with ⟨events, hstart, hcallbacks⟩ | ⟨task, m, hstart, hemits, hresult, hcallbacks⟩
  · rw [hstart] at hbegins
    cases hbegins with
    | alone halone => exact ⟨halone.result.symm, hcallbacks.trans halone.events.symm⟩
  · rw [hstart] at hbegins
    cases hbegins with
    | task hemits' hfinishes =>
      obtain ⟨rfl, rfl⟩ := hemits.unique hemits'
      exact ⟨hresult.symm.trans hfinishes.result.symm, hcallbacks.trans hfinishes.events.symm⟩

theorem finishTask_ok {m : MeasurementsCollector} (hok : (c.finishTask net m).2 = .ok) :
    (c.finishTask net m).1 = [c.completed (m.setDuration (net.finish - net.loopStart))] := by
  unfold Client.finishTask at hok ⊢
  cases hflush : c.flush net with
  | error e =>
    rw [hflush] at hok
    exact nomatch hok
  | ok _ => rfl

/-- The callback of a successful run that is not a one-way test of UDP gets the start of the test,
then an update with the figures of each report that the loop sent, in the order sent, then the
completion of the collector that the loop has left. -/
theorem callbacks_inOrder (hcallback : c.callback = true) (hmode : c.oneWayUdp = false)
    (h : Lts.Reachable (ClientTasks.step c net) ClientTasks.start s)
    (hok : s.phase = .finished .ok sent) :
    ∃ task m, c.startTask net = .inr task ∧ Emits (c.iterate net) task sent m ∧
      s.callbacks =
        .testStarted ::
          (sent.map (fun r => .intervalUpdate r.intervalStart r.intervalEnd r.bytes r.bitsPerSecond
            r.packets r.jitterMs r.lostPackets r.lostPercent r.retransmits) ++
          [c.completed (m.setDuration (net.finish - net.loopStart))]) := by
  have hinv := ClientTasks.inv_reachable h
  unfold ClientTasks.Inv at hinv
  rw [hok] at hinv
  rcases hinv with ⟨events, hstart, -⟩ | ⟨task, m, hstart, hemits, hresult, hcallbacks⟩
  · have hbegins := c.startTask_begins net
    rw [hstart] at hbegins
    cases hbegins with
    | alone halone => exact absurd (hmode.symm.trans (halone.oneWay rfl)) Bool.false_ne_true
  · refine ⟨task, m, hstart, hemits, ?_⟩
    rw [hcallbacks, notify_of_callback hcallback, finishTask_ok hresult]
    rfl

end Finished

/-- A client that reports after every write, and a network that takes two. -/
def eagerClient : Client := { smallClient .tcp .none with interval := 1 }

def twoWrites : Network :=
  { smallNetwork with writes :=
      [⟨1, false, .ok 1200, ⟨1, 1, 1, 1⟩, none⟩, ⟨2, false, .ok 700, ⟨2, 2, 2, 2⟩, none⟩] }

/-- The reporter takes its first message when the loop has sent both reports. -/
def lateReporter : List ClientTask :=
  [.main, .main, .main, .reporter, .main, .reporter, .reporter, .reporter, .reporter, .main]

theorem callbacks_inOrder_twoReports : ∃ (s : ClientTasks) (sent : List IntervalReport)
    (m : MeasurementsCollector), sent.map IntervalReport.bytes = [1200, 700] ∧
      s.callbacks =
        .testStarted ::
          (sent.map (fun r => .intervalUpdate r.intervalStart r.intervalEnd r.bytes r.bitsPerSecond
            r.packets r.jitterMs r.lostPackets r.lostPercent r.retransmits) ++
          [eagerClient.completed (m.setDuration (twoWrites.finish - twoWrites.loopStart))]) := by
  obtain ⟨s, sent, hrun, hok, htwo⟩ : ∃ (s : ClientTasks) (sent : List IntervalReport),
      Lts.run (ClientTasks.step eagerClient twoWrites) (fun _ _ => True) ClientTasks.start
        lateReporter = some s ∧ s.phase = .finished .ok sent ∧
        sent.map IntervalReport.bytes = [1200, 700] :=
    ⟨_, _, rfl, rfl, rfl⟩
  obtain ⟨-, m, -, -, hcallbacks⟩ := callbacks_inOrder rfl rfl (Lts.Reach.start.run hrun) hok
  exact ⟨s, sent, m, htwo, hcallbacks⟩

end Rperf3
