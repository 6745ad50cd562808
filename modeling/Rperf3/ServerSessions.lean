import Rperf3.Library.SharedRun
import Rperf3.ServerLoops
import Mathlib.Algebra.BigOperators.Group.List.Basic
import Mathlib.Data.UInt

/-!
# Sessions of one server (`server.rs:313-345`, `measurements.rs:838-849`)

`run_tcp` gives every client handler a clone of the server's collector, that is,
the same counters. What a session reports is read from these counters: the bytes
of its `Result` message and, in `receive_udp_data`, the loss figures. A session
reports what it would report on a fresh server as long as no other session has
recorded anything the report depends on.
-/

namespace Rperf3
open SharedRun

inductive Report where
  /-- sent and received bytes of the `Result` message, when there is one -/
  | result (bytes : Option (ℕ × ℕ))
  | loss (lost expected outOfOrder : UInt64)
  deriving DecidableEq

def Message.resultBytes : Message → Option (ℕ × ℕ)
  | .result _ bytesSent bytesReceived _ _ _ _ _ _ _ _ => some (bytesSent, bytesReceived)
  | _ => none

def reportResult (c : MeasurementsCollector) : Report :=
  .result ((resultMessage c.get).bind Message.resultBytes)

def reportLoss (c : MeasurementsCollector) : Report :=
  .loss c.get.lostPackets c.get.totalPackets c.get.outOfOrderPackets

/-- A server: the collector all its handlers share. -/
def server : System MeasurementsCollector HandlerStep Report where
  step c
    | .call x => c.call x
    | .readStats => c
    | .sendResult => c
  report c
    | .call _ => none
    | .readStats => some (reportLoss c)
    | .sendResult => some (reportResult c)

def serve (steps : List (ℕ × HandlerStep)) : List (ℕ × Report) :=
  server.runTagged MeasurementsCollector.new steps

def Session.alone (s : Session) : List Report := server.run MeasurementsCollector.new s.steps

/-- An interleaving of handler steps, every handler as far as it has got. -/
def Interleaves (sessions : ℕ → Session) (steps : List (ℕ × HandlerStep)) : Prop :=
  ∀ i, own i steps <+: (sessions i).steps

/-! ### What each report depends on -/

namespace HandlerStep

def sent : HandlerStep → UInt64
  | .call x => x.sent
  | _ => 0

def received : HandlerStep → UInt64
  | .call x => x.received
  | _ => 0

end HandlerStep

def bytesSentIn (steps : List HandlerStep) : UInt64 := (steps.map HandlerStep.sent).sum
def bytesReceivedIn (steps : List HandlerStep) : UInt64 := (steps.map HandlerStep.received).sum

inductive ReportKind where
  | result
  | loss
  /-- the loss figures when bytes have been received -/
  | figures
  deriving DecidableEq

/-- The session has received bytes, and the counter of the server, which wraps, shows some. -/
def HasReceived (i : ℕ) (pre : List (ℕ × HandlerStep)) : Prop :=
  bytesReceivedIn (own i pre) ≠ 0 ∧ bytesReceivedIn (pre.map Prod.snd) ≠ 0

instance (i : ℕ) (pre : List (ℕ × HandlerStep)) : Decidable (HasReceived i pre) :=
  inferInstanceAs (Decidable (_ ∧ _))

/-- The kind of the report that a step makes after the steps `pre`. -/
def reportKind : KindOf ℕ HandlerStep ReportKind := fun pre x =>
  match x.2 with
  | .call _ => none
  | .readStats => some (if HasReceived x.1 pre then .figures else .loss)
  | .sendResult => some .result

def CollectorCall.seenBy : ReportKind → CollectorCall → Bool
  | .result, .recordBytesSent .. => true
  | .result, .recordBytesReceived .. => true
  | .result, .recordUdpPacket .. => true
  | .loss, .recordBytesReceived .. => true
  | .loss, .recordUdpPacket .. => true
  | .loss, .recordUdpPacketReceived .. => true
  | .figures, .recordUdpPacketReceived .. => true
  | _, _ => false

def HandlerStep.seenBy (k : ReportKind) : HandlerStep → Prop
  | .call x => x.seenBy k = true
  | _ => False

instance (k : ReportKind) : DecidablePred (HandlerStep.seenBy k) := fun s =>
  match s with
  | .call x => inferInstanceAs (Decidable (x.seenBy k = true))
  | .readStats => inferInstanceAs (Decidable False)
  | .sendResult => inferInstanceAs (Decidable False)

def resultView (c : MeasurementsCollector) : Option PerStreamMeasurements := c.perStream.head?

def lossView (c : MeasurementsCollector) :
    UdpPacketState × UInt64 × UInt64 × UInt64 × UInt64 :=
  (c.udpState, c.inner.outOfOrderPackets, c.inner.lostPackets, c.atomicBytesReceived,
    c.atomicPackets)

def figuresView (c : MeasurementsCollector) : UdpPacketState × UInt64 :=
  (c.udpState, c.inner.outOfOrderPackets)

inductive ReportView where
  | result (first : Option PerStreamMeasurements)
  | loss (fields : UdpPacketState × UInt64 × UInt64 × UInt64 × UInt64)
  | figures (fields : UdpPacketState × UInt64)

def view : ReportKind → MeasurementsCollector → ReportView
  | .result, c => .result (resultView c)
  | .loss, c => .loss (lossView c)
  | .figures, c => .figures (figuresView c)

theorem reportResult_eq (c : MeasurementsCollector) :
    reportResult c =
      .result ((resultView c).map fun s => (s.bytesSent.toNat, s.bytesReceived.toNat)) := by
  have hstreams : c.get.streams =
      c.perStream.map (fun s => s.toStreamStats c.inner.totalDuration) := by
    unfold MeasurementsCollector.get
    dsimp only
    split <;> rfl
  unfold reportResult resultMessage resultView
  rw [hstreams, List.head?_map]
  cases c.perStream.head? <;> rfl

theorem reportLoss_eq (c : MeasurementsCollector) :
    reportLoss c =
      if c.atomicBytesReceived > 0 then
        .loss c.calculateUdpLoss.1 c.calculateUdpLoss.2 c.inner.outOfOrderPackets
      else .loss c.inner.lostPackets c.atomicPackets c.inner.outOfOrderPackets := by
  unfold reportLoss MeasurementsCollector.get
  dsimp only
  split <;> rfl

theorem calculateUdpLoss_congr {c d : MeasurementsCollector} (h : c.udpState = d.udpState) :
    c.calculateUdpLoss = d.calculateUdpLoss := by
  unfold MeasurementsCollector.calculateUdpLoss
  rw [h]

/-! ### How calls change the views -/

def onFirst (streamId : ℕ) (f : PerStreamMeasurements → PerStreamMeasurements) :
    Option PerStreamMeasurements → Option PerStreamMeasurements
  | none => some (f (PerStreamMeasurements.new streamId))
  | some s => some (if s.streamId = streamId then f s else s)

theorem head_modifyStream (c : MeasurementsCollector) (k : ℕ)
    (f : PerStreamMeasurements → PerStreamMeasurements) :
    (modifyStream k f (c.getOrCreateStream k).perStream).head? = onFirst k f (resultView c) := by
  unfold MeasurementsCollector.getOrCreateStream resultView
  cases hs : c.perStream with
  | nil => simp [modifyStream, onFirst, PerStreamMeasurements.new]
  | cons s ss =>
    by_cases hk : s.streamId = k
    · simp [hs, hk, modifyStream, onFirst]
    · cases hfind : ss.find? (fun s => s.streamId = k) with
      | none => simp [hk, hfind, modifyStream, onFirst]
      | some t => simp [hs, hk, hfind, modifyStream, onFirst]

def CollectorCall.onResult : CollectorCall → Option PerStreamMeasurements →
    Option PerStreamMeasurements
  | .recordBytesSent k bytes => onFirst k (fun s => { s with bytesSent := s.bytesSent + bytes })
  | .recordBytesReceived k bytes =>
    onFirst k (fun s => { s with bytesReceived := s.bytesReceived + bytes })
  | .recordUdpPacket k => onFirst k (fun s => { s with packets := s.packets + 1 })
  | _ => id

theorem call_resultView (c : MeasurementsCollector) (x : CollectorCall) :
    resultView (c.call x) = x.onResult (resultView c) := by
  cases x with
  | recordBytesSent k bytes => exact head_modifyStream { c with
      atomicBytesSent := c.atomicBytesSent + bytes } k _
  | recordBytesReceived k bytes => exact head_modifyStream { c with
      atomicBytesReceived := c.atomicBytesReceived + bytes } k _
  | recordUdpPacket k => exact head_modifyStream { c with
      atomicPackets := c.atomicPackets + 1 } k _
  | recordUdpPacketReceived seq sent received =>
    unfold resultView
    rw [MeasurementsCollector.call, (recordUdpPacketReceived_frame c seq sent received).1]
    rfl
  | addInterval interval => rfl
  | setDuration duration => rfl
  | setStartTime time => rfl
  | get => rfl

theorem recordUdpPacketReceived_lossView {c d : MeasurementsCollector}
    (h : lossView c = lossView d) (seq sent received : UInt64) :
    lossView (c.recordUdpPacketReceived seq sent received) =
      lossView (d.recordUdpPacketReceived seq sent received) := by
  simp only [lossView, Prod.mk.injEq] at h
  obtain ⟨hudp, hooo, hlost, hreceived, hpackets⟩ := h
  unfold MeasurementsCollector.recordUdpPacketReceived
  by_cases hinit : seq = u64Max
  · simp only [if_pos hinit, lossView, hudp, hooo, hlost, hreceived, hpackets]
  · simp only [if_neg hinit, lossView, hudp, hooo, hlost, hreceived, hpackets]

theorem call_lossView {c d : MeasurementsCollector} (h : lossView c = lossView d)
    (x : CollectorCall) : lossView (c.call x) = lossView (d.call x) := by
  have h' := h
  simp only [lossView, Prod.mk.injEq] at h'
  obtain ⟨hudp, hooo, hlost, hreceived, hpackets⟩ := h'
  cases x with
  | recordUdpPacketReceived seq sent received =>
    exact recordUdpPacketReceived_lossView h seq sent received
  | recordBytesSent k bytes =>
    simp [MeasurementsCollector.call, MeasurementsCollector.recordBytesSent, lossView, hudp, hooo,
      hlost, hreceived, hpackets]
  | recordBytesReceived k bytes =>
    simp [MeasurementsCollector.call, MeasurementsCollector.recordBytesReceived, lossView, hudp,
      hooo, hlost, hreceived, hpackets]
  | recordUdpPacket k =>
    simp [MeasurementsCollector.call, MeasurementsCollector.recordUdpPacket, lossView, hudp, hooo,
      hlost, hreceived, hpackets]
  | addInterval interval => exact h
  | setDuration duration => exact h
  | setStartTime time => exact h
  | get => exact h

theorem call_lossView_of_not_seen (c : MeasurementsCollector) (x : CollectorCall)
    (h : x.seenBy .loss = false) : lossView (c.call x) = lossView c := by
  cases x with
  | recordBytesSent k bytes =>
    simp [MeasurementsCollector.call, MeasurementsCollector.recordBytesSent, lossView]
  | recordBytesReceived k bytes => exact Bool.noConfusion h
  | recordUdpPacket k => exact Bool.noConfusion h
  | recordUdpPacketReceived seq sent received => exact Bool.noConfusion h
  | addInterval interval => rfl
  | setDuration duration => rfl
  | setStartTime time => rfl
  | get => rfl

theorem recordUdpPacketReceived_figuresView {c d : MeasurementsCollector}
    (h : figuresView c = figuresView d) (seq sent received : UInt64) :
    figuresView (c.recordUdpPacketReceived seq sent received) =
      figuresView (d.recordUdpPacketReceived seq sent received) := by
  simp only [figuresView, Prod.mk.injEq] at h
  obtain ⟨hudp, hooo⟩ := h
  unfold MeasurementsCollector.recordUdpPacketReceived
  by_cases hinit : seq = u64Max
  · simp only [if_pos hinit, figuresView, hudp, hooo]
  · simp only [if_neg hinit, figuresView, hudp, hooo]

theorem call_figuresView_of_not_seen (c : MeasurementsCollector) (x : CollectorCall)
    (h : x.seenBy .figures = false) : figuresView (c.call x) = figuresView c := by
  cases x with
  | recordBytesSent k bytes =>
    simp [MeasurementsCollector.call, MeasurementsCollector.recordBytesSent, figuresView]
  | recordBytesReceived k bytes =>
    simp [MeasurementsCollector.call, MeasurementsCollector.recordBytesReceived, figuresView]
  | recordUdpPacket k =>
    simp [MeasurementsCollector.call, MeasurementsCollector.recordUdpPacket, figuresView]
  | recordUdpPacketReceived seq sent received => exact Bool.noConfusion h
  | addInterval interval => rfl
  | setDuration duration => rfl
  | setStartTime time => rfl
  | get => rfl

theorem call_figuresView {c d : MeasurementsCollector} (h : figuresView c = figuresView d)
    (x : CollectorCall) : figuresView (c.call x) = figuresView (d.call x) := by
  cases hseen : x.seenBy .figures with
  | false => rw [call_figuresView_of_not_seen c x hseen, call_figuresView_of_not_seen d x hseen, h]
  | true =>
    cases x with
    | recordUdpPacketReceived seq sent received =>
      exact recordUdpPacketReceived_figuresView h seq sent received
    | _ => exact Bool.noConfusion hseen

theorem call_resultView_of_not_seen (c : MeasurementsCollector) (x : CollectorCall)
    (h : x.seenBy .result = false) : resultView (c.call x) = resultView c := by
  rw [call_resultView]
  cases x with
  | recordBytesSent k bytes => exact Bool.noConfusion h
  | recordBytesReceived k bytes => exact Bool.noConfusion h
  | recordUdpPacket k => exact Bool.noConfusion h
  | _ => rfl

/-! ### Isolation -/

def serverViews : Views server ReportKind ReportView where
  view := view
  visible k s := s.seenBy k
  consistent := by
    intro c d s k hview
    cases s with
    | call x =>
      cases k with
      | result =>
        have h : resultView c = resultView d := ReportView.result.inj hview
        exact congrArg ReportView.result (by rw [server, call_resultView, call_resultView, h])
      | loss => exact congrArg ReportView.loss (call_lossView (ReportView.loss.inj hview) x)
      | figures =>
        exact congrArg ReportView.figures (call_figuresView (ReportView.figures.inj hview) x)
    | readStats => exact hview
    | sendResult => exact hview
  invisible := by
    intro c s k h
    cases s with
    | call x =>
      have hseen : x.seenBy k = false := Bool.eq_false_iff.mpr h
      cases k with
      | result => exact congrArg ReportView.result (call_resultView_of_not_seen c x hseen)
      | loss => exact congrArg ReportView.loss (call_lossView_of_not_seen c x hseen)
      | figures => exact congrArg ReportView.figures (call_figuresView_of_not_seen c x hseen)
    | readStats => rfl
    | sendResult => rfl

theorem server_received (c : MeasurementsCollector) (steps : List HandlerStep) :
    (server.after c steps).atomicBytesReceived =
      c.atomicBytesReceived + bytesReceivedIn steps := by
  induction steps generalizing c with
  | nil => exact (UInt64.add_zero _).symm
  | cons step steps ih =>
    have hrest : (server.after c (step :: steps)).atomicBytesReceived =
        (server.step c step).atomicBytesReceived + bytesReceivedIn steps := ih _
    have hstep : (server.step c step).atomicBytesReceived =
        c.atomicBytesReceived + step.received := by
      cases step with
      | call x => exact (call_atomics c x).2
      | readStats => exact (UInt64.add_zero _).symm
      | sendResult => exact (UInt64.add_zero _).symm
    rw [hrest, hstep, UInt64.add_assoc]
    rfl

theorem received_pos {steps : List HandlerStep} (h : bytesReceivedIn steps ≠ 0) :
    (server.after MeasurementsCollector.new steps).atomicBytesReceived > 0 := by
  have hreceived := server_received MeasurementsCollector.new steps
  rw [show MeasurementsCollector.new.atomicBytesReceived = 0 from rfl, UInt64.zero_add] at hreceived
  rw [hreceived]
  exact UInt64.pos_iff_ne_zero.mpr h

theorem serverViews_determine :
    serverViews.Determines reportKind MeasurementsCollector.new where
  quiet pre i step h t := by
    cases step with
    | call x => rfl
    | readStats => exact nomatch h
    | sendResult => exact nomatch h
  determined pre i step k hk hview := by
    cases step with
    | call x => exact nomatch hk
    | sendResult =>
      cases hk
      have h := ReportView.result.inj hview
      refine congrArg some ?_
      rw [reportResult_eq, reportResult_eq, h]
    | readStats =>
      have hk' : (if HasReceived i pre then ReportKind.figures else .loss) = k := Option.some.inj hk
      by_cases hreceived : HasReceived i pre
      · rw [if_pos hreceived] at hk'
        subst hk'
        have h := ReportView.figures.inj hview
        simp only [figuresView, Prod.mk.injEq] at h
        obtain ⟨hudp, hooo⟩ := h
        refine congrArg some ?_
        rw [reportLoss_eq, reportLoss_eq, if_pos (received_pos hreceived.2),
          if_pos (received_pos hreceived.1), calculateUdpLoss_congr hudp, hooo]
      · rw [if_neg hreceived] at hk'
        subst hk'
        have h := ReportView.loss.inj hview
        simp only [lossView, Prod.mk.injEq] at h
        obtain ⟨hudp, hooo, hlost, hreceived, hpackets⟩ := h
        refine congrArg some ?_
        rw [reportLoss_eq, reportLoss_eq, calculateUdpLoss_congr hudp, hooo, hlost, hreceived,
          hpackets]

/-- Before each report of a session, no other session has made a call that this report can
see. -/
def Undisturbed (steps : List (ℕ × HandlerStep)) : Prop :=
  ∀ pre i step post k, steps = pre ++ (i, step) :: post → reportKind pre (i, step) = some k →
    ∀ x ∈ pre, x.1 ≠ i → ¬ x.2.seenBy k

theorem run_mono {as bs : List HandlerStep} (h : as <+: bs) (c : MeasurementsCollector) :
    server.run c as <+: server.run c bs := by
  obtain ⟨rest, rfl⟩ := h
  rw [run_append]
  exact List.prefix_append ..

/-- In an undisturbed interleaving every session reports what it reports on a server of its own,
as far as it has got, and all of it once it has finished. -/
theorem session_isolated (sessions : ℕ → Session) (steps : List (ℕ × HandlerStep))
    (hrun : Interleaves sessions steps) (h : Undisturbed steps) (i : ℕ) :
    reportsOf i (serve steps) <+: (sessions i).alone ∧
    (own i steps = (sessions i).steps → reportsOf i (serve steps) = (sessions i).alone) := by
  have hown : reportsOf i (serve steps) = server.run MeasurementsCollector.new (own i steps) :=
    reportsOf_run serverViews serverViews_determine steps h i
  rw [hown]
  refine ⟨run_mono (hrun i) _, fun hall => ?_⟩
  rw [hall]
  rfl

/-! ### Two tests on one server -/

def tcpTest (n : UInt64) : Session :=
  { startTime := 0
    loop := ⟨0, 10, 1000⟩
    phase := .tcpForward [⟨0, .ok n, ⟨0, 0, 0, 0⟩⟩]
    finish := 10 }

/-- Session 0 makes its first `n` steps, then session 1 runs. -/
def oneThenOther (n : ℕ) (first second : Session) : List (ℕ × HandlerStep) :=
  (first.steps.take n).map (Prod.mk 0) ++ second.steps.map (Prod.mk 1)

def pairOf (first second : Session) : ℕ → Session
  | 0 => first
  | _ => second

theorem own_one_oneThenOther (n : ℕ) (first second : Session) :
    own 1 (oneThenOther n first second) = second.steps := by
  rw [oneThenOther, own_append, own_map_mk_ne (by decide), own_map_mk_self, List.nil_append]

theorem interleaves_oneThenOther (n : ℕ) (first second : Session) :
    Interleaves (pairOf first second) (oneThenOther n first second) := by
  intro i
  match i with
  | 0 =>
    rw [oneThenOther, own_append, own_map_mk_self, own_map_mk_ne (by decide), List.append_nil]
    exact List.take_prefix ..
  | 1 =>
    rw [own_one_oneThenOther]
    exact List.prefix_refl _
  | i + 2 =>
    rw [oneThenOther, own_append, own_map_mk_ne (by omega), own_map_mk_ne (by omega)]
    exact List.nil_prefix

/-- The second of two tests reports the bytes of both. -/
theorem session_not_isolated :
    ¬ ∀ (sessions : ℕ → Session) (steps : List (ℕ × HandlerStep)), Interleaves sessions steps →
      ∀ i, own i steps = (sessions i).steps →
        reportsOf i (serve steps) = (sessions i).alone := by
  intro h
  have hsecond := h _ _ (interleaves_oneThenOther 10 (tcpTest 1000) (tcpTest 500)) 1
    (own_one_oneThenOther ..)
  have hshared : reportsOf 1 (serve (oneThenOther 10 (tcpTest 1000) (tcpTest 500))) =
      [.result (some (0, 1500))] := by decide
  have halone : (tcpTest 500).alone = [.result (some (0, 500))] := by decide
  rw [hshared] at hsecond
  exact absurd (hsecond.trans halone) (by decide)

/-- A UDP test that receives the datagrams 0 and 2 and reads its figures after each. -/
def skippingTest : Session :=
  { startTime := 20
    loop := ⟨20, 10, 1⟩
    phase := .udpForward
      [⟨21, .ok (createPacket 0 0 4 7, 9), ⟨22, 22, 22, 22⟩⟩,
        ⟨23, .ok (createPacket 0 2 4 8, 9), ⟨24, 24, 24, 24⟩⟩]
    finish := 30 }

theorem undisturbed_of_take {steps : List (ℕ × HandlerStep)}
    (h : ∀ n, (hn : n < steps.length) → ∀ k ∈ reportKind (steps.take n) steps[n],
      ∀ x ∈ steps.take n, x.1 ≠ steps[n].1 → ¬ x.2.seenBy k) : Undisturbed steps := by
  intro pre i step post k hsplit hk x hx hne
  subst hsplit
  have hn : pre.length < (pre ++ (i, step) :: post).length := by simp
  have hat := h pre.length hn
  rw [List.take_left, List.getElem_append_right (Nat.le_refl _)] at hat
  simp only [Nat.sub_self, List.getElem_cons_zero] at hat
  exact hat k hk x hx hne

/-- The figures do not show the 1000 bytes that the TCP test before it has received. -/
theorem session_isolated_started :
    reportsOf 1 (serve (oneThenOther 10 (tcpTest 1000) skippingTest)) =
      [.loss 0 1 0, .loss 1 3 0] := by
  have hrun := interleaves_oneThenOther 10 (tcpTest 1000) skippingTest
  have hquiet : Undisturbed (oneThenOther 10 (tcpTest 1000) skippingTest) :=
    undisturbed_of_take (by decide +kernel)
  have halone : skippingTest.alone = [.loss 0 1 0, .loss 1 3 0] := by decide +kernel
  rw [← halone]
  exact (session_isolated _ _ hrun hquiet 1).2 (own_one_oneThenOther ..)

/-! ### What a result counts -/

/-- The server records on stream 0 only. -/
def HandlerStep.OnStreamZero : HandlerStep → Prop
  | .call (.recordBytesSent k _) => k = 0
  | .call (.recordBytesReceived k _) => k = 0
  | .call (.recordUdpPacket k) => k = 0
  | _ => True

def others {ι : Type*} [DecidableEq ι] (i : ι) (steps : List (ι × HandlerStep)) :
    List HandlerStep :=
  (steps.filter (fun x => x.1 ≠ i)).map Prod.snd

def LoopBody.OnStreamZero {α : Type} (body : LoopBody α) : Prop :=
  (∀ a out, body.onIo a = some out → ∀ x ∈ out.1, (HandlerStep.call x).OnStreamZero) ∧
    ∀ step ∈ body.reads, step.OnStreamZero

theorem dataLoop_onStreamZero {α : Type} {body : LoopBody α} (hbody : body.OnStreamZero)
    (cfg : LoopConfig) (st : LoopState) (es : List (LoopEvent α)) :
    ∀ step ∈ dataLoop body cfg st es, step.OnStreamZero := by
  induction es generalizing st with
  | nil => exact fun _ h => absurd h List.not_mem_nil
  | cons e es ih =>
    intro step hstep
    unfold dataLoop at hstep
    split at hstep
    · cases hresult : e.result with
      | error kind =>
        rw [hresult] at hstep
        exact absurd hstep List.not_mem_nil
      | timeout =>
        rw [hresult] at hstep
        exact ih st step hstep
      | ok a =>
        rw [hresult] at hstep
        cases hout : body.onIo a with
        | none =>
          simp only [hout] at hstep
          exact absurd hstep List.not_mem_nil
        | some out =>
          obtain ⟨calls, bytes, packets⟩ := out
          have hcalls : ∀ step ∈ calls.map HandlerStep.call, step.OnStreamZero := by
            intro step h
            obtain ⟨x, hx, rfl⟩ := List.mem_map.mp h
            exact hbody.1 a _ hout x hx
          simp only [hout] at hstep
          split at hstep
          · rcases List.mem_append.mp hstep with h | h
            · exact hcalls step h
            · rcases List.mem_append.mp h with h | h
              · exact hbody.2 step h
              · rcases List.mem_cons.mp h with rfl | h
                · trivial
                · exact ih _ step h
          · rcases List.mem_append.mp hstep with h | h
            · exact hcalls step h
            · exact ih _ step h
    · exact absurd hstep List.not_mem_nil

theorem sendData_onStreamZero : sendData.OnStreamZero := by
  constructor
  · intro n out hout x hx
    cases hout
    obtain rfl := List.mem_singleton.mp hx
    rfl
  · exact fun _ h => absurd h List.not_mem_nil

theorem receiveData_onStreamZero : receiveData.OnStreamZero := by
  constructor
  · intro n out hout x hx
    obtain ⟨-, hsome⟩ := Option.ite_none_left_eq_some.mp hout
    cases hsome
    obtain rfl := List.mem_singleton.mp hx
    rfl
  · exact fun _ h => absurd h List.not_mem_nil

theorem sendUdpData_onStreamZero : sendUdpData.OnStreamZero := by
  constructor
  · intro n out hout x hx
    cases hout
    rcases List.mem_cons.mp hx with rfl | hx
    · rfl
    · obtain rfl := List.mem_singleton.mp hx
      rfl
  · exact fun _ h => absurd h List.not_mem_nil

theorem receiveUdpData_onStreamZero : receiveUdpData.OnStreamZero := by
  constructor
  · intro a out hout x hx
    simp only [receiveUdpData] at hout
    cases hparse : parsePacket a.1 with
    | none =>
      rw [hparse] at hout
      cases hout
      exact absurd hx List.not_mem_nil
    | some p =>
      rw [hparse] at hout
      cases hout
      rcases List.mem_cons.mp hx with rfl | hx
      · rfl
      · obtain rfl := List.mem_singleton.mp hx
        trivial
  · intro step h
    obtain rfl := List.mem_singleton.mp h
    trivial

theorem session_onStreamZero (s : Session) : ∀ step ∈ s.steps, step.OnStreamZero := by
  have hlast : ∀ (loop : List HandlerStep) (a b : HandlerStep),
      (∀ step ∈ loop, step.OnStreamZero) → a.OnStreamZero → b.OnStreamZero →
        ∀ step ∈ loop ++ [a, b], step.OnStreamZero := by
    intro loop a b hloop ha hb step h
    rcases List.mem_append.mp h with h | h
    · exact hloop step h
    · rcases List.mem_cons.mp h with rfl | h
      · exact ha
      · exact List.mem_singleton.mp h ▸ hb
  intro step hstep
  rcases List.mem_cons.mp hstep with rfl | hstep
  · trivial
  · cases hphase : s.phase with
    | tcpForward es =>
      rw [hphase] at hstep
      exact hlast _ _ _ (dataLoop_onStreamZero receiveData_onStreamZero _ _ _) (by trivial)
        (by trivial)
        _ hstep
    | tcpReverse es =>
      rw [hphase] at hstep
      exact hlast _ _ _ (dataLoop_onStreamZero sendData_onStreamZero _ _ _) (by trivial)
        (by trivial)
        _ hstep
    | udpForward es =>
      rw [hphase] at hstep
      exact hlast _ _ _ (dataLoop_onStreamZero receiveUdpData_onStreamZero _ _ _) (by trivial)
        (by trivial)
        _ hstep
    | udpSending es =>
      rw [hphase] at hstep
      exact hlast _ _ _ (dataLoop_onStreamZero sendUdpData_onStreamZero _ _ _) (by trivial)
        (by trivial)
        _ hstep
    | oneWaySend =>
      rw [hphase] at hstep
      obtain rfl := List.mem_singleton.mp hstep
      trivial

theorem onFirst_zero {f : PerStreamMeasurements → PerStreamMeasurements}
    {v : Option PerStreamMeasurements} (h : (v.getD (.new 0)).streamId = 0) :
    onFirst 0 f v = some (f (v.getD (.new 0))) := by
  cases v with
  | none => rfl
  | some s =>
    rw [Option.getD_some] at h
    rw [onFirst, if_pos h]
    rfl

/-- What a session is told of the entry of stream 0. -/
structure EntryOf (v : Option PerStreamMeasurements) (seen : Prop) (sent received : UInt64) :
    Prop where
  isSome : v.isSome ↔ seen
  streamId : (v.getD (.new 0)).streamId = 0
  sent : (v.getD (.new 0)).bytesSent = sent
  received : (v.getD (.new 0)).bytesReceived = received

theorem EntryOf.step {c : MeasurementsCollector} {seen : Prop} {sent received : UInt64}
    (h : EntryOf (resultView c) seen sent received) {step : HandlerStep}
    (hstep : step.OnStreamZero) :
    EntryOf (resultView (server.step c step)) (seen ∨ step.seenBy .result) (sent + step.sent)
      (received + step.received) := by
  have hsame : ∀ P : Prop, ¬ P → EntryOf (resultView c) (seen ∨ P) (sent + 0) (received + 0) := by
    intro P hP
    rwa [or_iff_left hP, UInt64.add_zero, UInt64.add_zero]
  cases step with
  | readStats => exact hsame _ not_false
  | sendResult => exact hsame _ not_false
  | call x =>
    have hview : resultView (server.step c (.call x)) = x.onResult (resultView c) :=
      call_resultView c x
    rw [hview]
    cases x with
    | recordBytesSent k n =>
      obtain rfl : k = 0 := hstep
      rw [CollectorCall.onResult, onFirst_zero h.streamId]
      exact ⟨iff_of_true rfl (.inr rfl), h.streamId, congrArg (· + n) h.sent,
        h.received.trans (UInt64.add_zero _).symm⟩
    | recordBytesReceived k n =>
      obtain rfl : k = 0 := hstep
      rw [CollectorCall.onResult, onFirst_zero h.streamId]
      exact ⟨iff_of_true rfl (.inr rfl), h.streamId, h.sent.trans (UInt64.add_zero _).symm,
        congrArg (· + n) h.received⟩
    | recordUdpPacket k =>
      obtain rfl : k = 0 := hstep
      rw [CollectorCall.onResult, onFirst_zero h.streamId]
      exact ⟨iff_of_true rfl (.inr rfl), h.streamId, h.sent.trans (UInt64.add_zero _).symm,
        h.received.trans (UInt64.add_zero _).symm⟩
    | recordUdpPacketReceived sequence sent received => exact hsame _ Bool.false_ne_true
    | addInterval interval => exact hsame _ Bool.false_ne_true
    | setDuration d => exact hsame _ Bool.false_ne_true
    | setStartTime t => exact hsame _ Bool.false_ne_true
    | get => exact hsame _ Bool.false_ne_true

theorem resultView_after (steps : List HandlerStep) (h : ∀ step ∈ steps, step.OnStreamZero) :
    EntryOf (resultView (server.after MeasurementsCollector.new steps))
      (∃ step ∈ steps, step.seenBy .result) (bytesSentIn steps) (bytesReceivedIn steps) := by
  induction steps using List.reverseRecOn with
  | nil => exact ⟨by simp [System.after, resultView, MeasurementsCollector.new], rfl, rfl, rfl⟩
  | append_singleton steps step ih =>
    have hbefore := ih fun step hs => h step (List.mem_append_left _ hs)
    have hstep := h step (List.mem_append_right _ (List.mem_singleton.mpr rfl))
    have hafter : server.after MeasurementsCollector.new (steps ++ [step]) =
        server.step (server.after MeasurementsCollector.new steps) step := List.foldl_append ..
    have hsent : bytesSentIn (steps ++ [step]) = bytesSentIn steps + step.sent := by
      simp [bytesSentIn]
    have hreceived : bytesReceivedIn (steps ++ [step]) = bytesReceivedIn steps + step.received := by
      simp [bytesReceivedIn]
    have hseen : (∃ s ∈ steps ++ [step], s.seenBy .result) ↔
        (∃ s ∈ steps, s.seenBy .result) ∨ step.seenBy .result := by
      simp [or_and_right, exists_or]
    rw [hafter, hsent, hreceived, hseen]
    exact hbefore.step hstep

/-- The bytes of a `Result` are those recorded so far; without a record there is none. -/
theorem reportResult_after (steps : List HandlerStep) (h : ∀ step ∈ steps, step.OnStreamZero) :
    reportResult (server.after MeasurementsCollector.new steps) =
      .result (if ∃ step ∈ steps, step.seenBy .result then
        some ((bytesSentIn steps).toNat, (bytesReceivedIn steps).toNat) else none) := by
  have hentry := resultView_after steps h
  rw [reportResult_eq]
  cases hview : resultView (server.after MeasurementsCollector.new steps) with
  | none =>
    rw [if_neg fun hany => by simpa [hview] using hentry.isSome.mpr hany]
    rfl
  | some s =>
    have hs := hentry.sent
    have hr := hentry.received
    rw [hview, Option.getD_some] at hs hr
    rw [if_pos (hentry.isSome.mp (by rw [hview]; rfl)), Option.map_some, hs, hr]

theorem exists_seen_iff {ι : Type*} {steps : List (ι × HandlerStep)} {k : ReportKind} :
    (∃ step ∈ steps.map Prod.snd, step.seenBy k) ↔ ∃ x ∈ steps, x.2.seenBy k := by
  simp only [List.mem_map, exists_exists_and_eq_and]

/-- What the steps of all sessions add up to is what those of one and of the others do. -/
theorem bytesIn_split {ι : Type*} [DecidableEq ι] (i : ι) (steps : List (ι × HandlerStep)) :
    bytesSentIn (steps.map Prod.snd) = bytesSentIn (own i steps) + bytesSentIn (others i steps) ∧
      bytesReceivedIn (steps.map Prod.snd) =
        bytesReceivedIn (own i steps) + bytesReceivedIn (others i steps) := by
  have hperm : (own i steps ++ others i steps).Perm (steps.map Prod.snd) := by
    have h := (List.filter_append_perm (fun x : ι × HandlerStep => decide (x.1 = i)) steps).map
      Prod.snd
    simpa only [own, others, List.map_append, decide_not] using h
  constructor
  · rw [bytesSentIn, ← (hperm.map HandlerStep.sent).sum_eq, List.map_append, List.sum_append]
    rfl
  · rw [bytesReceivedIn, ← (hperm.map HandlerStep.received).sum_eq, List.map_append,
      List.sum_append]
    rfl

/-- In every interleaving, the `Result` a session sends counts its own bytes and all that the
other sessions have moved by then. -/
theorem result_counts_all (sessions : ℕ → Session) (steps : List (ℕ × HandlerStep))
    (hrun : Interleaves sessions steps) (i : ℕ) (pre post : List (ℕ × HandlerStep))
    (hsplit : steps = pre ++ (i, .sendResult) :: post) :
    server.report (server.after MeasurementsCollector.new (pre.map Prod.snd)) .sendResult =
      some (.result (if ∃ x ∈ pre, x.2.seenBy .result then
        some ((bytesSentIn (own i pre) + bytesSentIn (others i pre)).toNat,
          (bytesReceivedIn (own i pre) + bytesReceivedIn (others i pre)).toNat) else none)) := by
  have hzero : ∀ step ∈ pre.map Prod.snd, step.OnStreamZero := by
    intro step hstep
    obtain ⟨x, hx, rfl⟩ := List.mem_map.mp hstep
    have hmem : x ∈ steps := hsplit ▸ List.mem_append_left _ hx
    have hown : x.2 ∈ own x.1 steps :=
      List.mem_map.mpr ⟨x, List.mem_filter.mpr ⟨hmem, decide_eq_true rfl⟩, rfl⟩
    exact session_onStreamZero _ _ ((hrun x.1).subset hown)
  obtain ⟨hsent, hreceived⟩ := bytesIn_split i pre
  have hreport : server.report (server.after MeasurementsCollector.new (pre.map Prod.snd))
      .sendResult = some (reportResult (server.after MeasurementsCollector.new
        (pre.map Prod.snd))) := rfl
  rw [hreport, reportResult_after _ hzero, ← hsent, ← hreceived]
  simp only [exists_seen_iff]

def upToResult : List (ℕ × HandlerStep) :=
  (oneThenOther 10 (tcpTest 1000) (tcpTest 500)).dropLast

theorem result_counts_all_two :
    server.report (server.after MeasurementsCollector.new (upToResult.map Prod.snd)) .sendResult =
      some (.result (if ∃ x ∈ upToResult, x.2.seenBy .result then
        some ((bytesSentIn (own 1 upToResult) + bytesSentIn (others 1 upToResult)).toNat,
          (bytesReceivedIn (own 1 upToResult) + bytesReceivedIn (others 1 upToResult)).toNat)
        else none)) :=
  result_counts_all (pairOf (tcpTest 1000) (tcpTest 500)) _
    (interleaves_oneThenOther 10 (tcpTest 1000) (tcpTest 500)) 1 upToResult [] rfl

end Rperf3
