import Rperf3.ClientLoops
import Rperf3.Library.DatagramNet
import Rperf3.ServerSessions
import Rperf3.UdpArrivals
import Rperf3.UdpSend

/-!
# A UDP test from end to end (`client.rs:954-1310`, `server.rs:1022-1149`)

The client numbers its datagrams and the network loses and reorders them. The
server counts them with the collector. What it reports as lost are the datagrams
below the highest number received that are on their way or were lost, so that
those after it are in nobody's figure.
-/

namespace Rperf3
open SharedRun

/-! ### The datagrams of the client -/

/-- What either sender has handed to the kernel. -/
inductive SentBy (p : SendParams) (c : MeasurementsCollector) : List Handed → Prop
  | standard (ticks : List SendTick) (finish : Instant) :
      SentBy p c (runUdpSendStandard p c ticks finish).handed
  | batched (ticks : List BatchTick) (finish : Instant) :
      SentBy p c (runUdpSendBatched p c ticks finish).handed

def headerSequence (packet : Bytes) : ℕ :=
  ((parsePacket packet).map (fun x => x.1.sequence.toNat)).getD 0

theorem standardLoop_stream {p : SendParams} {st : SendState} (ticks : List SendTick)
    (h : ∃ stamps, stamps.length = st.sequence ∧
      st.handed.map Handed.packet = packetsFrom p 0 stamps) :
    ∃ stamps, (standardLoop p st ticks).handed.map Handed.packet = packetsFrom p 0 stamps := by
  induction ticks generalizing st with
  | nil =>
    obtain ⟨stamps, -, hstream⟩ := h
    exact ⟨stamps, hstream⟩
  | cons t ts ih =>
    obtain ⟨stamps, hlen, hstream⟩ := h
    unfold standardLoop
    by_cases hend : t.now - p.loop.start < p.loop.duration
    · rw [if_pos hend]
      by_cases hcancel : t.cancelled = true
      · rw [if_pos hcancel]
        exact ⟨stamps, hstream⟩
      · rw [if_neg hcancel]
        cases t.result with
        | error e => exact ⟨stamps, hstream⟩
        | ok n =>
          refine ih ⟨stamps ++ [t.stamp], ?_, ?_⟩
          · rw [(count_frame p _ t.clock n 1).2.1, List.length_append, hlen]
            rfl
          · rw [(count_frame p _ t.clock n 1).1, List.map_append, hstream, packetsFrom_append,
              Nat.zero_add, hlen]
            rfl
    · rw [if_neg hend]
      exact ⟨stamps, hstream⟩

theorem SentBy.stream {p : SendParams} {c : MeasurementsCollector} {hs : List Handed}
    (h : SentBy p c hs) : ∃ stamps, hs.map Handed.packet = packetsFrom p 0 stamps := by
  cases h with
  | standard ticks finish => exact standardLoop_stream ticks ⟨[], rfl, rfl⟩
  | batched ticks finish =>
    obtain ⟨stamps, -, hstream⟩ := (batchedInv_loop (batchedInv_init p c) ticks).stream
    refine ⟨stamps.take (runUdpSendBatched p c ticks finish).handed.length, ?_⟩
    rw [packetsFrom_take, ← hstream, ← List.length_map Handed.packet]
    exact List.take_left.symm

def IsTestPacket (payloadSize : ℕ) (packet : Bytes) : Prop :=
  ∃ sequence timestampUs, packet = packetBytes 0 sequence timestampUs payloadSize

theorem headerSequence_packetBytes (sequence : UInt32) (timestampUs : UInt64)
    (payloadSize : ℕ) :
    headerSequence (packetBytes 0 sequence timestampUs payloadSize) = sequence.toNat := by
  rw [headerSequence, parsePacket_packetBytes]
  rfl

theorem length_packetsFrom (p : SendParams) (n : ℕ) (stamps : List Stamp) :
    (packetsFrom p n stamps).length = stamps.length := by
  induction stamps generalizing n with
  | nil => rfl
  | cons s stamps ih => rw [packetsFrom, List.length_cons, List.length_cons, ih]

theorem headerSequence_packetsFrom (p : SendParams) (n : ℕ) (stamps : List Stamp)
    (h : n + stamps.length ≤ 2 ^ 32) :
    (packetsFrom p n stamps).map headerSequence = List.range' n stamps.length := by
  induction stamps generalizing n with
  | nil => rfl
  | cons s stamps ih =>
    rw [List.length_cons] at h
    have hfirst : headerSequence (testPacket p n s) = n := by
      refine (headerSequence_packetBytes ..).trans ?_
      rw [UInt32.toNat_ofNat']
      exact Nat.mod_eq_of_lt (by omega)
    rw [packetsFrom, List.map_cons, hfirst, ih (n + 1) (by omega), List.length_cons,
      List.range'_succ]

theorem mem_packetsFrom {p : SendParams} {n : ℕ} {stamps : List Stamp} {packet : Bytes}
    (h : packet ∈ packetsFrom p n stamps) : IsTestPacket p.payloadSize packet := by
  induction stamps generalizing n with
  | nil => exact absurd h List.not_mem_nil
  | cons s stamps ih =>
    rcases List.mem_cons.mp h with rfl | h
    · exact ⟨_, _, rfl⟩
    · exact ih h

theorem SentBy.numbers {p : SendParams} {c : MeasurementsCollector} {hs : List Handed}
    (h : SentBy p c hs) (hcount : hs.length ≤ 2 ^ 32) :
    (hs.map Handed.packet).map headerSequence = List.range (hs.map Handed.packet).length := by
  obtain ⟨stamps, hstream⟩ := h.stream
  have hlen : stamps.length = hs.length := by
    rw [← length_packetsFrom p 0 stamps, ← hstream, List.length_map]
  rw [hstream, headerSequence_packetsFrom p 0 stamps (by omega), length_packetsFrom,
    List.range_eq_range']

/-! ### The figures of the server -/

/-- The datagrams that the loop takes, with the wall clock at each. -/
def taken (cfg : LoopConfig) : List (LoopEvent (Bytes × UInt64)) → List (Bytes × UInt64)
  | [] => []
  | e :: es =>
    if e.now - cfg.start < cfg.duration then
      match e.result with
      | .ok a => a :: taken cfg es
      | .error _ => []
      | .timeout => taken cfg es
    else []

def takenCalls (a : Bytes × UInt64) : List CollectorCall :=
  match parsePacket a.1 with
  | none => []
  | some (header, _) =>
    [.recordBytesReceived 0 (UInt64.ofNat a.1.length),
      .recordUdpPacketReceived header.sequence.toUInt64 header.timestampUs a.2]

def UdpArrival.ofTaken (a : Bytes × UInt64) : Option UdpArrival :=
  (parsePacket a.1).map (fun x => ⟨x.1.sequence.toUInt64, x.1.timestampUs, a.2⟩)

theorem onIo_receiveUdpData (a : Bytes × UInt64) :
    ∃ bytes packets, receiveUdpData.onIo a = some (takenCalls a, bytes, packets) := by
  cases h : parsePacket a.1 with
  | none => exact ⟨0, 0, by simp only [receiveUdpData, takenCalls, h]⟩
  | some x => exact ⟨_, _, by simp only [receiveUdpData, takenCalls, h]; rfl⟩

theorem server_after_append (c : MeasurementsCollector) (xs ys : List HandlerStep) :
    server.after c (xs ++ ys) = server.after (server.after c xs) ys :=
  List.foldl_append ..

theorem server_after_calls (c : MeasurementsCollector) (xs : List CollectorCall) :
    server.after c (xs.map .call) = c.calls xs :=
  List.foldl_map ..

theorem calls_lossView {c d : MeasurementsCollector} (h : lossView c = lossView d)
    (xs : List CollectorCall) : lossView (c.calls xs) = lossView (d.calls xs) := by
  induction xs generalizing c d with
  | nil => exact h
  | cons x xs ih => exact ih (call_lossView h x)

/-- Closing intervals does not show in the figures. -/
theorem dataLoop_lossView {cfg : LoopConfig} {c d : MeasurementsCollector}
    (h : lossView c = lossView d) (st : LoopState) (events : List (LoopEvent (Bytes × UInt64))) :
    lossView (server.after c (dataLoop receiveUdpData cfg st events)) =
      lossView (d.calls ((taken cfg events).flatMap takenCalls)) := by
  induction events generalizing c d st with
  | nil => exact h
  | cons e es ih =>
    unfold dataLoop taken
    by_cases hnow : e.now - cfg.start < cfg.duration
    · rw [if_pos hnow, if_pos hnow]
      cases e.result with
      | error kind => exact h
      | timeout => exact ih h st
      | ok a =>
        obtain ⟨bytes, packets, hio⟩ := onIo_receiveUdpData a
        have hcalls := calls_lossView h (takenCalls a)
        have hrest : d.calls ((a :: taken cfg es).flatMap takenCalls) =
            (d.calls (takenCalls a)).calls ((taken cfg es).flatMap takenCalls) := by
          rw [List.flatMap_cons]
          exact List.foldl_append ..
        simp only [hio]
        rw [hrest]
        split
        · rw [server_after_append, server_after_calls]
          exact ih (c := (c.calls (takenCalls a)).addInterval _) hcalls _
        · rw [server_after_append, server_after_calls]
          exact ih hcalls _
    · rw [if_neg hnow, if_neg hnow]
      exact h

/-- Two collectors with the same record of what was received. -/
structure SameArrivals (c d : MeasurementsCollector) : Prop where
  udpState : c.udpState = d.udpState
  order : c.inner.outOfOrderPackets = d.inner.outOfOrderPackets

theorem SameArrivals.bytes {c d : MeasurementsCollector} (h : SameArrivals c d) (k : ℕ)
    (n : UInt64) : SameArrivals (c.recordBytesReceived k n) d := by
  have hstate := h.udpState
  have horder := h.order
  constructor
  · simp [MeasurementsCollector.recordBytesReceived, hstate]
  · simp [MeasurementsCollector.recordBytesReceived, horder]

theorem SameArrivals.record {c d : MeasurementsCollector} (h : SameArrivals c d)
    (x : UdpArrival) : SameArrivals (c.recordArrival x) (d.recordArrival x) := by
  unfold MeasurementsCollector.recordArrival MeasurementsCollector.recordUdpPacketReceived
  by_cases hinit : x.sequence = u64Max
  · rw [if_pos hinit, if_pos hinit]
    exact h
  · rw [if_neg hinit, if_neg hinit]
    constructor
    · simp only [h.udpState]
    · simp only [h.udpState, h.order]

theorem SameArrivals.takenCalls {c d : MeasurementsCollector} (h : SameArrivals c d)
    (a : Bytes × UInt64) :
    SameArrivals (c.calls (takenCalls a)) (d.recordArrivals (UdpArrival.ofTaken a).toList) := by
  unfold Rperf3.takenCalls UdpArrival.ofTaken
  cases parsePacket a.1 with
  | none => exact h
  | some x =>
    have hbytes := h.bytes 0 (UInt64.ofNat a.1.length)
    exact hbytes.record { sequence := x.1.sequence.toUInt64
                          sendTimestampUs := x.1.timestampUs
                          recvTimestampUs := a.2 }

theorem SameArrivals.calls {c d : MeasurementsCollector} (h : SameArrivals c d)
    (as : List (Bytes × UInt64)) :
    SameArrivals (c.calls (as.flatMap Rperf3.takenCalls))
      (d.recordArrivals (as.filterMap UdpArrival.ofTaken)) := by
  induction as generalizing c d with
  | nil => exact h
  | cons a as ih =>
    have hfirst := h.takenCalls a
    have hcalls : c.calls ((a :: as).flatMap Rperf3.takenCalls) =
        (c.calls (Rperf3.takenCalls a)).calls (as.flatMap Rperf3.takenCalls) := by
      rw [List.flatMap_cons]
      exact List.foldl_append ..
    have harrivals : d.recordArrivals ((a :: as).filterMap UdpArrival.ofTaken) =
        (d.recordArrivals (UdpArrival.ofTaken a).toList).recordArrivals
          (as.filterMap UdpArrival.ofTaken) := by
      rw [List.filterMap_cons]
      cases UdpArrival.ofTaken a <;> rfl
    rw [hcalls, harrivals]
    exact ih hfirst

theorem ofTaken_inRange (as : List (Bytes × UInt64)) :
    InRange32 (as.filterMap UdpArrival.ofTaken) := by
  intro x hx
  obtain ⟨a, -, ha⟩ := List.mem_filterMap.mp hx
  obtain ⟨y, -, rfl⟩ := Option.map_eq_some_iff.mp ha
  rw [UInt32.toNat_toUInt64]
  exact y.1.sequence.toNat_lt

section Received

variable {payloadSize : ℕ} {as : List (Bytes × UInt64)}
  (h : ∀ a ∈ as, IsTestPacket payloadSize a.1)
include h

theorem history_ofTaken : history (as.filterMap UdpArrival.ofTaken) =
    (as.map Prod.fst).reverse.map headerSequence := by
  induction as with
  | nil => rfl
  | cons a as ih =>
    obtain ⟨sequence, timestampUs, ha⟩ := h a (List.mem_cons_self ..)
    have hone : UdpArrival.ofTaken a = some ⟨sequence.toUInt64, timestampUs, a.2⟩ := by
      rw [UdpArrival.ofTaken, ha, parsePacket_packetBytes]
      rfl
    have hseq : headerSequence a.1 = sequence.toNat := by rw [ha, headerSequence_packetBytes]
    have hrest := ih (fun x hx => h x (List.mem_cons_of_mem _ hx))
    rw [history] at hrest ⊢
    rw [List.filterMap_cons_some hone, List.map_cons, List.reverse_cons, List.reverse_cons,
      List.map_append, List.map_append, hrest]
    simp only [List.map_cons, List.map_nil, hseq, UInt32.toNat_toUInt64]

theorem length_ofTaken : (as.filterMap UdpArrival.ofTaken).length = as.length := by
  rw [← length_history, history_ofTaken h, List.length_map, List.length_reverse, List.length_map]

theorem SameArrivals.figures {c : MeasurementsCollector}
    (hsame : SameArrivals c
      (MeasurementsCollector.new.recordArrivals (as.filterMap UdpArrival.ofTaken)))
    (hcount : as.length < 2 ^ 64) {numbers : List ℕ}
    (hnumbers : (as.map Prod.fst).reverse.map headerSequence = numbers) :
    c.calculateUdpLoss =
        (UInt64.ofNat (Arrivals.expected numbers - as.length),
          UInt64.ofNat (Arrivals.expected numbers)) ∧
      c.inner.outOfOrderPackets = UInt64.ofNat (Arrivals.drops numbers) := by
  have hrange := ofTaken_inRange as
  obtain ⟨hlost, hspan⟩ := calculateUdpLoss_eq hrange
  have horder := (tracked hrange).order
  rw [history_ofTaken h, hnumbers] at hspan horder
  rw [history_ofTaken h, hnumbers, length_ofTaken h, Nat.mod_eq_of_lt hcount] at hlost
  have hfits : Arrivals.expected numbers < 2 ^ 64 := hspan ▸ UInt64.toNat_lt _
  refine ⟨?_, hsame.order.trans horder⟩
  rw [calculateUdpLoss_congr hsame.udpState]
  refine Prod.ext (UInt64.toNat_inj.mp ?_) (UInt64.toNat_inj.mp ?_)
  · rw [hlost, UInt64.toNat_ofNat', Nat.mod_eq_of_lt (by omega)]
  · rw [hspan, UInt64.toNat_ofNat', Nat.mod_eq_of_lt hfits]

theorem sum_lengths : ((as.map Prod.fst).map List.length).sum =
    as.length * (UdpPacketHeader.size + payloadSize) := by
  induction as with
  | nil => exact (Nat.zero_mul _).symm
  | cons a as ih =>
    obtain ⟨sequence, timestampUs, ha⟩ := h a (List.mem_cons_self ..)
    have hlen : a.1.length = UdpPacketHeader.size + payloadSize := by
      rw [ha]
      exact length_packetBytes ..
    rw [List.map_cons, List.map_cons, List.sum_cons, hlen,
      ih (fun x hx => h x (List.mem_cons_of_mem _ hx)), List.length_cons, Nat.add_mul, Nat.one_mul,
      Nat.add_comm]

theorem received_takenCalls :
    ((as.flatMap takenCalls).map CollectorCall.received).sum =
      UInt64.ofNat ((as.map Prod.fst).map List.length).sum := by
  induction as with
  | nil => rfl
  | cons a as ih =>
    obtain ⟨sequence, timestampUs, ha⟩ := h a (List.mem_cons_self ..)
    have hone : (takenCalls a).map CollectorCall.received = [UInt64.ofNat a.1.length, 0] := by
      rw [takenCalls, ha, parsePacket_packetBytes]
      rfl
    rw [List.flatMap_cons, List.map_append, List.sum_append,
      ih (fun x hx => h x (List.mem_cons_of_mem _ hx)), hone, List.map_cons, List.map_cons]
    simp only [List.sum_cons, List.sum_nil, add_zero, UInt64.ofNat_add]

end Received

/-! ### The test -/

theorem udpForward_lossView {s : Session} {events : List (LoopEvent (Bytes × UInt64))}
    (h : s.phase = .udpForward events) (c : MeasurementsCollector) :
    lossView (server.after c s.steps) =
      lossView (c.calls ((taken s.loop events).flatMap takenCalls)) := by
  unfold Session.steps
  simp only [h]
  exact (congrArg lossView (server_after_append ..)).trans
    (dataLoop_lossView (c := c.setStartTime s.startTime) (d := c) rfl s.loop.first events)

theorem figures_of_taken {payloadSize : ℕ} {as : List (Bytes × UInt64)}
    {c : MeasurementsCollector}
    (hview : lossView c = lossView (MeasurementsCollector.new.calls (as.flatMap takenCalls)))
    (hpackets : ∀ a ∈ as, IsTestPacket payloadSize a.1)
    (hbytes : as.length * (UdpPacketHeader.size + payloadSize) < 2 ^ 64) {numbers : List ℕ}
    (hnumbers : (as.map Prod.fst).reverse.map headerSequence = numbers) :
    reportLoss c =
        .loss (UInt64.ofNat (Arrivals.expected numbers - as.length))
          (UInt64.ofNat (Arrivals.expected numbers)) (UInt64.ofNat (Arrivals.drops numbers)) ∧
      c.atomicBytesReceived =
        UInt64.ofNat (as.length * (UdpPacketHeader.size + payloadSize)) := by
  have hcounted : (MeasurementsCollector.new.calls (as.flatMap takenCalls)).atomicBytesReceived =
      UInt64.ofNat (as.length * (UdpPacketHeader.size + payloadSize)) := by
    rw [(calls_atomics _ _).2, received_takenCalls hpackets, sum_lengths hpackets]
    exact UInt64.zero_add _
  have hcalls : SameArrivals (MeasurementsCollector.new.calls (as.flatMap takenCalls))
      (MeasurementsCollector.new.recordArrivals (as.filterMap UdpArrival.ofTaken)) :=
    SameArrivals.calls ⟨rfl, rfl⟩ as
  simp only [lossView, Prod.mk.injEq] at hview
  obtain ⟨hudp, hooo, hnoLoss, hreceived, hnoPackets⟩ := hview
  have hsame : SameArrivals c
      (MeasurementsCollector.new.recordArrivals (as.filterMap UdpArrival.ofTaken)) :=
    ⟨hudp.trans hcalls.udpState, hooo.trans hcalls.order⟩
  rw [hreceived, hcounted]
  refine ⟨?_, rfl⟩
  cases as with
  | nil =>
    subst hnumbers
    rw [reportLoss_eq, hreceived, hooo, hnoLoss, hnoPackets]
    rfl
  | cons a as =>
    have hsize : 0 < UdpPacketHeader.size + payloadSize := Nat.add_pos_left (by decide) _
    have hsome : UInt64.ofNat ((a :: as).length * (UdpPacketHeader.size + payloadSize)) > 0 := by
      rw [gt_iff_lt, UInt64.lt_iff_toNat_lt, UInt64.toNat_ofNat', Nat.mod_eq_of_lt hbytes]
      exact Nat.mul_pos (Nat.succ_pos _) hsize
    have hshort : (a :: as).length < 2 ^ 64 :=
      lt_of_le_of_lt (Nat.le_mul_of_pos_right _ hsize) hbytes
    obtain ⟨hloss, horder⟩ := hsame.figures hpackets hshort hnumbers
    rw [reportLoss_eq, hreceived, hcounted, if_pos hsome, hloss, horder]

/-- Wherever the test stands, the server reports as lost the datagrams below the highest one it
received that are on their way or lost, and as expected these and the ones it received. When
nothing is on its way, the figure is that of the network if and only if the last datagram of the
client was received or there was none. -/
theorem udpUpload_counted (p : SendParams) (c : MeasurementsCollector) (hs : List Handed)
    (hsent : SentBy p c hs) (hcount : hs.length ≤ 2 ^ 32)
    (hfits : UdpPacketHeader.size + p.payloadSize ≤ 65536)
    (net : DatagramNet.State Bytes)
    (hnet : Lts.Reachable DatagramNet.step (DatagramNet.start (hs.map Handed.packet)) net)
    (s : Session) (events : List (LoopEvent (Bytes × UInt64)))
    (hphase : s.phase = .udpForward events)
    (htaken : (taken s.loop events).map Prod.fst = net.arrived) :
    let lost := DatagramNet.behind headerSequence net
    reportLoss (server.after MeasurementsCollector.new s.steps) =
        .loss (UInt64.ofNat lost) (UInt64.ofNat (net.arrived.length + lost))
          (UInt64.ofNat (Arrivals.drops (DatagramNet.numbers headerSequence net))) ∧
      (server.after MeasurementsCollector.new s.steps).atomicBytesReceived =
        UInt64.ofNat (net.arrived.length * (UdpPacketHeader.size + p.payloadSize)) ∧
      hs.length = net.pending.length + (net.arrived.length + (net.flying ++ net.lost).length) ∧
      (net.pending = [] → net.flying = [] → (lost = net.lost.length ↔
        hs.length = Arrivals.expected (DatagramNet.numbers headerSequence net))) := by
  intro lost
  have hconserved := DatagramNet.conserved_of_reachable hnet
  have hexpected : Arrivals.expected (DatagramNet.numbers headerSequence net) =
      net.arrived.length + lost :=
    DatagramNet.expected_eq (hsent.numbers hcount) hconserved
  have htotal := hconserved.length
  rw [List.length_map] at htotal
  have hpackets : ∀ a ∈ taken s.loop events, IsTestPacket p.payloadSize a.1 := by
    intro a ha
    obtain ⟨stamps, hstream⟩ := hsent.stream
    have hsource := hconserved.mem (htaken ▸ List.mem_map_of_mem ha)
    rw [hstream] at hsource
    exact mem_packetsFrom hsource
  have hlength : (taken s.loop events).length = net.arrived.length := by
    rw [← htaken, List.length_map]
  have hbound : net.arrived.length * (UdpPacketHeader.size + p.payloadSize) ≤ 2 ^ 32 * 65536 :=
    Nat.mul_le_mul (by omega) hfits
  have hnumbers : ((taken s.loop events).map Prod.fst).reverse.map headerSequence =
      DatagramNet.numbers headerSequence net := by
    rw [htaken]
    rfl
  obtain ⟨hreport, hbytes⟩ := figures_of_taken (udpForward_lossView hphase .new) hpackets
    (by rw [hlength]; omega) hnumbers
  rw [hlength, hexpected, Nat.add_sub_cancel_left] at hreport
  rw [hlength] at hbytes
  refine ⟨hreport, hbytes, htotal, fun hpending hflying => ?_⟩
  rw [hpending, hflying, List.nil_append, List.length_nil] at htotal
  rw [hexpected]
  omega

/-- Three datagrams of four bytes after the header. -/
def threeSends : List SendTick :=
  let stamp : Stamp := ⟨TimestampCache.new 0 0, ⟨0, 0, 0⟩⟩
  [⟨1, false, stamp, .ok 24, ⟨1, 1, 1, 1⟩⟩, ⟨2, false, stamp, .ok 24, ⟨2, 2, 2, 2⟩⟩,
    ⟨3, false, stamp, .ok 24, ⟨3, 3, 3, 3⟩⟩]

def threeHanded : List Handed := (runUdpSendStandard smallTest .new threeSends 6).handed

/-- The third arrives, the first is lost and the second is on its way. -/
def overtakingNet : DatagramNet.State Bytes :=
  (Lts.run DatagramNet.step (fun _ _ => True)
    (DatagramNet.start (threeHanded.map Handed.packet))
    [.send, .send, .send, .deliver 2, .lose 0]).getD (DatagramNet.start [])

def overtakingSession : Session :=
  { startTime := 0
    loop := ⟨0, 10, 1000⟩
    phase := .udpForward (overtakingNet.arrived.map (fun packet =>
      ⟨4, .ok (packet, 100), ⟨4, 4, 4, 4⟩⟩))
    finish := 10 }

theorem overtakingNet_run :
    Lts.run DatagramNet.step (fun _ _ => True)
      (DatagramNet.start (threeHanded.map Handed.packet))
      [.send, .send, .send, .deliver 2, .lose 0] = some overtakingNet :=
  rfl

theorem udpUpload_counted_overtaking :
    reportLoss (server.after MeasurementsCollector.new overtakingSession.steps) = .loss 2 3 0 :=
  (udpUpload_counted smallTest .new threeHanded (.standard threeSends 6) (by decide) (by decide)
    overtakingNet (Lts.Reach.start.run overtakingNet_run) overtakingSession _ rfl (by decide)).1

end Rperf3
