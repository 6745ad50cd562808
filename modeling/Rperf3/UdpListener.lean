import Rperf3.ClientLoops
import Rperf3.RecvMmsg

/-!
# The UDP listener (`server.rs:353-640`)

A server in UDP mode records what arrives on one socket, from any sender, until
it is cancelled. On Linux it takes up to 64 datagrams with one system call and
looks at its interval once for all of them; elsewhere it does so datagram by
datagram. Whatever the batched listener does, the plain one does too, on the same
datagrams and with a clock in order.
-/

namespace Rperf3

structure ListenerState where
  collector : MeasurementsCollector
  loop : LoopState
  reports : List IntervalReport

namespace ListenerState

def init (cfg : LoopConfig) (c : MeasurementsCollector) : ListenerState := ⟨c, cfg.first, []⟩

def packet (st : ListenerState) (bytes : Bytes) (wallUs : UInt64) : ListenerState :=
  match parsePacket bytes with
  | none => st
  | some (header, _) =>
    let n := UInt64.ofNat bytes.length
    let c := st.collector.recordUdpPacketReceived header.sequence.toUInt64 header.timestampUs wallUs
    { st with
      collector := c.recordBytesReceived 0 n
      loop := { st.loop with
        intervalBytes := st.loop.intervalBytes + n
        intervalPackets := st.loop.intervalPackets + 1 } }

def closeInterval (st : ListenerState) (cfg : LoopConfig) (clock : IntervalClock) :
    ListenerState :=
  if clock.check - st.loop.lastInterval ≥ cfg.interval then
    let stats := intervalStats cfg st.loop.intervalPackets st.loop clock
    let c := st.collector.addInterval stats
    { collector := c
      loop := ⟨clock.reset, 0, 0⟩
      reports := st.reports ++ [udpReport c stats] }
  else st

/-- The loop `for i in 0..count` over the buffers of a batch. -/
def packets (st : ListenerState) (batch : UdpRecvBatch) (wallUs : ℕ → UInt64) (count : ℕ) :
    ListenerState :=
  (List.range count).foldl (fun st i =>
    match batch.get i with
    | some (bytes, _) => st.packet bytes (wallUs i)
    | none => st) st

end ListenerState

abbrev Incoming := Bytes × UInt64

/-- One `recv_from` and the clocks read after it. -/
structure RecvEvent where
  result : Except ErrorKind Bytes
  wallUs : UInt64
  clock : IntervalClock

/-- One `UdpRecvBatch::recv` and the clocks read after it. -/
structure BatchEvent where
  call : MmsgCall
  wallUs : ℕ → UInt64
  clock : IntervalClock

/-- `run_udp_standard` (`server.rs:372-480`), on the calls before the token is cancelled. -/
def runUdpStandard (cfg : LoopConfig) : ListenerState → List RecvEvent → ListenerState
  | st, [] => st
  | st, e :: es =>
    match e.result with
    | .ok payload =>
      runUdpStandard cfg ((st.packet (payload.take 65536) e.wallUs).closeInterval cfg e.clock) es
    | .error _ => runUdpStandard cfg st es

/-- `run_udp_batched` (`server.rs:485-620`). -/
def runUdpBatched (cfg : LoopConfig) :
    ListenerState → UdpRecvBatch → List BatchEvent → ListenerState
  | st, _, [] => st
  | st, batch, e :: es =>
    match batch.recvMmsg e.call with
    | (.ok count, batch) =>
      if count = 0 then runUdpBatched cfg st batch es
      else
        runUdpBatched cfg ((st.packets batch e.wallUs count).closeInterval cfg e.clock) batch es
    | (.error _, batch) => runUdpBatched cfg st batch es

/-! ### Bursts -/

structure Burst where
  incoming : List Incoming
  clock : IntervalClock

def BatchEvent.burst (e : BatchEvent) : Burst :=
  ⟨e.call.received.mapIdx (fun i msg => (msg.payload, e.wallUs i)), e.clock⟩

def standardBursts (es : List RecvEvent) : List Burst :=
  es.filterMap fun e =>
    match e.result with
    | .ok payload => some ⟨[(payload, e.wallUs)], e.clock⟩
    | .error _ => none

/-- The bursts of the batched listener: the datagrams of the calls that succeed. -/
def batchedBursts : UdpRecvBatch → List BatchEvent → List Burst
  | _, [] => []
  | batch, e :: es =>
    match batch.recvMmsg e.call with
    | (.ok count, batch) =>
      if count = 0 then batchedBursts batch es else e.burst :: batchedBursts batch es
    | (.error _, batch) => batchedBursts batch es

def incoming (bs : List Burst) : List Incoming := bs.flatMap Burst.incoming

/-- The readings of a listener are in order; those of an interval are taken when it is due. -/
def Timely (interval : Duration) (last now : Instant) : List IntervalClock → Prop
  | [] => True
  | c :: cs =>
    now ≤ c.check ∧
      if c.check - last ≥ interval then
        c.check ≤ c.elapsed ∧ c.elapsed ≤ c.since ∧ c.since ≤ c.reset ∧
          Timely interval c.reset c.reset cs
      else Timely interval last c.check cs

namespace ListenerState

variable {cfg : LoopConfig}

def arrive (st : ListenerState) (a : Incoming) : ListenerState := st.packet (a.1.take 65536) a.2

def burst (cfg : LoopConfig) (st : ListenerState) (b : Burst) : ListenerState :=
  (b.incoming.foldl arrive st).closeInterval cfg b.clock

theorem packets_of_shows {batch : UdpRecvBatch} {msgs : List MmsgIn} (h : batch.Shows msgs)
    (st : ListenerState) (wallUs : ℕ → UInt64) :
    st.packets batch wallUs msgs.length =
      (msgs.mapIdx (fun i msg => (msg.payload, wallUs i))).foldl arrive st := by
  have hprefix : ∀ k ≤ msgs.length, st.packets batch wallUs k =
      ((msgs.mapIdx (fun i msg => (msg.payload, wallUs i))).take k).foldl arrive st := by
    intro k
    induction k with
    | zero => exact fun _ => rfl
    | succ k ih =>
      intro hk
      have hlt : k < msgs.length := by omega
      obtain ⟨addr, -, hget⟩ := h.get k msgs[k] (List.getElem?_eq_getElem hlt)
      have hsofar := ih (by omega)
      unfold packets at hsofar ⊢
      rw [List.range_succ, List.foldl_append, hsofar, List.take_add_one,
        List.getElem?_mapIdx, List.getElem?_eq_getElem hlt, List.foldl_append]
      simp only [List.foldl_cons, List.foldl_nil, hget]
      rfl
  have hall := hprefix msgs.length le_rfl
  rwa [List.take_of_length_le (by rw [List.length_mapIdx])] at hall

theorem packet_lastInterval (st : ListenerState) (bytes : Bytes) (wallUs : UInt64) :
    (st.packet bytes wallUs).loop.lastInterval = st.loop.lastInterval := by
  unfold packet
  split <;> rfl

theorem foldl_arrive_lastInterval (st : ListenerState) (as : List Incoming) :
    (as.foldl arrive st).loop.lastInterval = st.loop.lastInterval := by
  induction as generalizing st with
  | nil => rfl
  | cons a as ih => rw [List.foldl_cons, ih, arrive, packet_lastInterval]

theorem burst_due {st : ListenerState} {b : Burst}
    (h : b.clock.check - st.loop.lastInterval ≥ cfg.interval) :
    (st.burst cfg b).loop.lastInterval = b.clock.reset := by
  rw [burst, closeInterval, foldl_arrive_lastInterval, if_pos h]

theorem burst_open {st : ListenerState} {b : Burst}
    (h : ¬ b.clock.check - st.loop.lastInterval ≥ cfg.interval) :
    st.burst cfg b = b.incoming.foldl arrive st := by
  rw [burst, closeInterval, foldl_arrive_lastInterval, if_neg h]

end ListenerState

theorem UdpRecvBatch.recvMmsg_count {b b' : UdpRecvBatch} {call : MmsgCall} {n : ℕ}
    (h : b.recvMmsg call = (.ok n, b')) : b'.count = n := by
  have hreadable : ∀ b : UdpRecvBatch, b.recvReadable call = (.ok n, b') → b'.count = n := by
    intro b h
    unfold recvReadable at h
    split at h
    · cases h
    · split at h
      · cases h
      · cases h
        rfl
  unfold recvMmsg at h
  split at h
  · split at h
    · cases h
      rfl
    · exact hreadable _ h
  · exact hreadable _ h
  · cases h

theorem runUdpStandard_bursts (cfg : LoopConfig) (st : ListenerState) (es : List RecvEvent) :
    runUdpStandard cfg st es = (standardBursts es).foldl (ListenerState.burst cfg) st := by
  induction es generalizing st with
  | nil => rfl
  | cons e es ih =>
    cases h : e.result with
    | ok payload =>
      rw [runUdpStandard, h, standardBursts, List.filterMap_cons, h]
      exact ih _
    | error kind =>
      rw [runUdpStandard, h, standardBursts, List.filterMap_cons, h]
      exact ih _

theorem runUdpBatched_bursts (cfg : LoopConfig) (st : ListenerState) (batch : UdpRecvBatch)
    (es : List BatchEvent) :
    runUdpBatched cfg st batch es =
      (batchedBursts batch es).foldl (ListenerState.burst cfg) st := by
  induction es generalizing st batch with
  | nil => rfl
  | cons e es ih =>
    rw [runUdpBatched, batchedBursts]
    rcases hrun : batch.recvMmsg e.call with ⟨result, batch'⟩
    cases result with
    | error kind => exact ih st batch'
    | ok count =>
      have hshows := UdpRecvBatch.recvMmsg_shows hrun
      have hcount : count = e.call.received.length := by
        rw [← hshows.count, UdpRecvBatch.recvMmsg_count hrun]
      by_cases hzero : count = 0
      · simp only [if_pos hzero]
        exact ih st batch'
      · simp only [if_neg hzero, List.foldl_cons]
        rw [ih, hcount, ListenerState.packets_of_shows hshows]
        rfl

/-! ### One datagram at a time -/

/-- The datagrams of a burst by themselves: the clock stands still until the last of them. -/
def Burst.singles (now : Instant) (clock : IntervalClock) : List Incoming → List Burst
  | [] => []
  | [a] => [⟨[a], clock⟩]
  | a :: as => ⟨[a], ⟨now, now, now, now⟩⟩ :: Burst.singles now clock as

def unbatch (interval : Duration) : (last now : Instant) → List Burst → List Burst
  | _, _, [] => []
  | last, now, b :: bs =>
    Burst.singles now b.clock b.incoming ++
      if b.clock.check - last ≥ interval then unbatch interval b.clock.reset b.clock.reset bs
      else unbatch interval last b.clock.check bs

section Singles

variable {cfg : LoopConfig} {now : Instant} {clock : IntervalClock}

theorem incoming_singles (as : List Incoming) : incoming (Burst.singles now clock as) = as := by
  induction as with
  | nil => rfl
  | cons a as ih =>
    cases as with
    | nil => rfl
    | cons a' as =>
      have hhead : incoming (Burst.singles now clock (a :: a' :: as)) =
          a :: incoming (Burst.singles now clock (a' :: as)) := rfl
      rw [hhead, ih]

theorem foldl_singles {st : ListenerState} {as : List Incoming} (hne : as ≠ [])
    (hnow : now - st.loop.lastInterval < cfg.interval) :
    (Burst.singles now clock as).foldl (ListenerState.burst cfg) st =
      st.burst cfg ⟨as, clock⟩ := by
  induction as generalizing st with
  | nil => exact absurd rfl hne
  | cons a as ih =>
    cases as with
    | nil => rfl
    | cons a' as =>
      have hfirst : st.burst cfg ⟨[a], ⟨now, now, now, now⟩⟩ = st.arrive a :=
        ListenerState.burst_open (not_le.mpr hnow)
      have hlast : (st.arrive a).loop.lastInterval = st.loop.lastInterval :=
        ListenerState.packet_lastInterval ..
      rw [Burst.singles, List.foldl_cons, hfirst, ih (List.cons_ne_nil _ _) (by rwa [hlast])]
      · rfl
      · exact List.cons_ne_nil _ _

theorem timely_singles {interval : Duration} {last : Instant} {as : List Incoming}
    {rest : List IntervalClock} (hne : as ≠ []) (hnow : now - last < interval) :
    Timely interval last now ((Burst.singles now clock as).map Burst.clock ++ rest) ↔
      Timely interval last now (clock :: rest) := by
  induction as with
  | nil => exact absurd rfl hne
  | cons a as ih =>
    cases as with
    | nil => rfl
    | cons a' as =>
      rw [Burst.singles, List.map_cons, List.cons_append, Timely, if_neg (not_le.mpr hnow),
        ih (List.cons_ne_nil _ _)]
      · exact and_iff_right le_rfl
      · exact List.cons_ne_nil _ _

end Singles

section Unbatch

variable {cfg : LoopConfig} {bs : List Burst}

theorem incoming_unbatch (interval : Duration) (last now : Instant) (bs : List Burst) :
    incoming (unbatch interval last now bs) = incoming bs := by
  induction bs generalizing last now with
  | nil => rfl
  | cons b bs ih =>
    have htail : incoming (if b.clock.check - last ≥ interval then
        unbatch interval b.clock.reset b.clock.reset bs
        else unbatch interval last b.clock.check bs) = incoming bs := by
      split <;> exact ih _ _
    have hhead : incoming (Burst.singles now b.clock b.incoming) = b.incoming :=
      incoming_singles b.incoming
    unfold incoming at hhead htail ⊢
    rw [unbatch, List.flatMap_append, hhead, htail, List.flatMap_cons]

theorem foldl_unbatch {st : ListenerState} {now : Instant} (hinterval : 0 < cfg.interval)
    (hne : ∀ b ∈ bs, b.incoming ≠ []) (hnow : now - st.loop.lastInterval < cfg.interval) :
    (unbatch cfg.interval st.loop.lastInterval now bs).foldl (ListenerState.burst cfg) st =
      bs.foldl (ListenerState.burst cfg) st := by
  induction bs generalizing st now with
  | nil => rfl
  | cons b bs ih =>
    obtain ⟨hb, hbs⟩ := List.forall_mem_cons.mp hne
    rw [unbatch, List.foldl_append, foldl_singles hb hnow, List.foldl_cons]
    by_cases hdue : b.clock.check - st.loop.lastInterval ≥ cfg.interval
    · have hlast := ListenerState.burst_due (b := b) hdue
      rw [if_pos hdue, ← hlast]
      exact ih hbs (by rwa [Nat.sub_self])
    · have hlast : (st.burst cfg b).loop.lastInterval = st.loop.lastInterval := by
        rw [ListenerState.burst_open hdue, ListenerState.foldl_arrive_lastInterval]
      rw [if_neg hdue, ← hlast]
      exact ih hbs (by rw [hlast]; exact not_le.mp hdue)

theorem timely_unbatch {interval : Duration} {last now : Instant} (hinterval : 0 < interval)
    (hne : ∀ b ∈ bs, b.incoming ≠ []) (hnow : now - last < interval) :
    Timely interval last now ((unbatch interval last now bs).map Burst.clock) ↔
      Timely interval last now (bs.map Burst.clock) := by
  induction bs generalizing last now with
  | nil => rfl
  | cons b bs ih =>
    obtain ⟨hb, hbs⟩ := List.forall_mem_cons.mp hne
    rw [unbatch, List.map_append, timely_singles hb hnow, List.map_cons, Timely, Timely]
    by_cases hdue : b.clock.check - last ≥ interval
    · rw [if_pos hdue, if_pos hdue, if_pos hdue, ih hbs (by rwa [Nat.sub_self])]
    · rw [if_neg hdue, if_neg hdue, if_neg hdue, ih hbs (not_le.mp hdue)]

end Unbatch

/-! ### The two listeners -/

section Listeners

variable {cfg : LoopConfig} {st : ListenerState} {batch : UdpRecvBatch} {bs : List Burst}

theorem batchedBursts_nonempty {b : Burst} (batch : UdpRecvBatch) (es : List BatchEvent)
    (h : b ∈ batchedBursts batch es) : b.incoming ≠ [] := by
  induction es generalizing batch with
  | nil => exact absurd h List.not_mem_nil
  | cons e es ih =>
    rw [batchedBursts] at h
    rcases hrun : batch.recvMmsg e.call with ⟨result, batch'⟩
    rw [hrun] at h
    cases result with
    | error kind => exact ih batch' h
    | ok count =>
      by_cases hzero : count = 0
      · simp only [if_pos hzero] at h
        exact ih batch' h
      · simp only [if_neg hzero] at h
        rcases List.mem_cons.mp h with rfl | hrest
        · have hcount := UdpRecvBatch.recvMmsg_count hrun
          rw [(UdpRecvBatch.recvMmsg_shows hrun).count] at hcount
          rw [BatchEvent.burst, ← List.length_pos_iff, List.length_mapIdx]
          omega
        · exact ih batch' hrest

theorem singles_single {now : Instant} {clock : IntervalClock} {as : List Incoming} {b : Burst}
    (h : b ∈ Burst.singles now clock as) : ∃ a, b.incoming = [a] := by
  induction as with
  | nil => exact absurd h List.not_mem_nil
  | cons a as ih =>
    cases as with
    | nil => exact ⟨a, by rw [List.mem_singleton.mp h]⟩
    | cons a' as =>
      rcases List.mem_cons.mp h with rfl | hrest
      · exact ⟨a, rfl⟩
      · exact ih hrest

theorem unbatch_single {interval : Duration} {last now : Instant} {b : Burst}
    (h : b ∈ unbatch interval last now bs) : ∃ a, b.incoming = [a] := by
  induction bs generalizing last now with
  | nil => exact absurd h List.not_mem_nil
  | cons b' bs ih =>
    rcases List.mem_append.mp h with hhead | htail
    · exact singles_single hhead
    · split at htail
      · exact ih htail
      · exact ih htail

theorem exists_recvEvents (h : ∀ b ∈ bs, ∃ a, b.incoming = [a]) :
    ∃ es, standardBursts es = bs := by
  induction bs with
  | nil => exact ⟨[], rfl⟩
  | cons b bs ih =>
    obtain ⟨⟨a, ha⟩, hbs⟩ := List.forall_mem_cons.mp h
    obtain ⟨es, hes⟩ := ih hbs
    refine ⟨⟨.ok a.1, a.2, b.clock⟩ :: es, ?_⟩
    have hhead : standardBursts (⟨.ok a.1, a.2, b.clock⟩ :: es) =
        ⟨[a], b.clock⟩ :: standardBursts es := rfl
    rw [hhead, hes, ← ha]

theorem recvMmsg_single (batch : UdpRecvBatch) {msg : MmsgIn} {addr : SocketAddr}
    (haddr : sockaddrToSocketaddr msg.storage = .ok addr) (h : [msg].length ≤ maxBatchSize)
    (readable : Option ErrorKind) (second : RecvmmsgReply) :
    ∃ batch', batch.recvMmsg ⟨.received [msg] h, readable, second⟩ = (.ok 1, batch') := by
  simp only [UdpRecvBatch.recvMmsg, UdpRecvBatch.recvMmsgSync, UdpRecvBatch.extract, haddr]
  exact ⟨_, rfl⟩

/-- Every listener that takes datagrams one by one is a batched one with batches of one. -/
theorem exists_batchEvents (batch : UdpRecvBatch) (es : List RecvEvent) :
    ∃ calls, batchedBursts batch calls = standardBursts es := by
  induction es generalizing batch with
  | nil => exact ⟨[], rfl⟩
  | cons e es ih =>
    cases hresult : e.result with
    | error kind =>
      obtain ⟨calls, hcalls⟩ := ih batch
      exact ⟨calls, by rw [hcalls, standardBursts, standardBursts, List.filterMap_cons, hresult]⟩
    | ok payload =>
      have hsize : [MmsgIn.mk payload loopback.storage].length ≤ maxBatchSize :=
        Nat.le_add_left 1 63
      obtain ⟨batch', hrun⟩ := recvMmsg_single batch (sockaddrToSocketaddr_storage loopback)
        hsize none (.failed .other)
      obtain ⟨calls, hcalls⟩ := ih batch'
      refine ⟨⟨⟨.received _ hsize, none, .failed .other⟩, fun _ => e.wallUs, e.clock⟩ :: calls, ?_⟩
      rw [batchedBursts, hrun, standardBursts, List.filterMap_cons, hresult]
      exact congrArg _ hcalls

end Listeners

/-- On the same datagrams, with clocks in order, the two listeners can end in the same states. -/
theorem udpListeners_agree (cfg : LoopConfig) (c : MeasurementsCollector)
    (as : List Incoming) (final : ListenerState) (hinterval : 0 < cfg.interval) :
    (∃ es, incoming (standardBursts es) = as ∧
        Timely cfg.interval cfg.start cfg.start ((standardBursts es).map Burst.clock) ∧
        runUdpStandard cfg (.init cfg c) es = final) ↔
      ∃ es, incoming (batchedBursts .new es) = as ∧
        Timely cfg.interval cfg.start cfg.start ((batchedBursts .new es).map Burst.clock) ∧
        runUdpBatched cfg (.init cfg c) .new es = final := by
  constructor
  · rintro ⟨es, has, htimely, hfinal⟩
    obtain ⟨calls, hcalls⟩ := exists_batchEvents .new es
    refine ⟨calls, by rwa [hcalls], by rwa [hcalls], ?_⟩
    rw [← hfinal, runUdpBatched_bursts, runUdpStandard_bursts, hcalls]
  · rintro ⟨calls, has, htimely, hfinal⟩
    have hne : ∀ b ∈ batchedBursts .new calls, b.incoming ≠ [] :=
      fun _ hb => batchedBursts_nonempty .new calls hb
    have hnow : cfg.start - (ListenerState.init cfg c).loop.lastInterval < cfg.interval := by
      rwa [ListenerState.init, LoopConfig.first, Nat.sub_self]
    have hsingle : ∀ b ∈ unbatch cfg.interval cfg.start cfg.start (batchedBursts .new calls),
        ∃ a, b.incoming = [a] :=
      fun _ hb => unbatch_single hb
    obtain ⟨es, hes⟩ := exists_recvEvents hsingle
    refine ⟨es, ?_, ?_, ?_⟩
    · rw [hes, incoming_unbatch, has]
    · rw [hes]
      exact (timely_unbatch hinterval hne hnow).mpr htimely
    · rw [← hfinal, runUdpBatched_bursts, runUdpStandard_bursts, hes]
      exact foldl_unbatch hinterval hne hnow

/-- The packets 7, 9 and 8 of 36 bytes, taken with one system call. -/
def threePackets : List Bytes :=
  [createPacket 0 7 16 100, createPacket 0 9 16 101, createPacket 0 8 16 102]

def threePacketCall : MmsgCall :=
  ⟨.received (threePackets.map fun packet => ⟨packet, loopback.storage⟩) (by decide), none,
    .failed .other⟩

def oneBatch : List BatchEvent :=
  [⟨threePacketCall, fun i => 200 + UInt64.ofNat i, ⟨3, 3, 3, 4⟩⟩]

theorem udpListeners_agree_oneBatch :
    ∃ es, incoming (standardBursts es) = threePackets.zip [200, 201, 202] ∧
      Timely 2 0 0 ((standardBursts es).map Burst.clock) ∧
      runUdpStandard ⟨0, 10, 2⟩ (.init ⟨0, 10, 2⟩ .new) es =
        runUdpBatched ⟨0, 10, 2⟩ (.init ⟨0, 10, 2⟩ .new) .new oneBatch := by
  have hclocks : (batchedBursts .new oneBatch).map Burst.clock = [⟨3, 3, 3, 4⟩] := rfl
  have htimely : Timely 2 0 0 ((batchedBursts .new oneBatch).map Burst.clock) := by
    rw [hclocks]
    simp [Timely]
  exact (udpListeners_agree ⟨0, 10, 2⟩ .new _ _ (by decide)).mpr ⟨oneBatch, rfl, htimely, rfl⟩

/-! ### What does not depend on the clock -/

def MeasurementsCollector.withoutIntervals (c : MeasurementsCollector) : MeasurementsCollector :=
  { c with inner := { c.inner with intervals := .new } }

def IntervalReport.total (reports : List IntervalReport) : UInt64 :=
  (reports.map IntervalReport.bytes).sum

def incomingCalls (a : Incoming) : List CollectorCall :=
  match parsePacket (a.1.take 65536) with
  | none => []
  | some (header, _) =>
    [.recordUdpPacketReceived header.sequence.toUInt64 header.timestampUs a.2,
      .recordBytesReceived 0 (UInt64.ofNat (a.1.take 65536).length)]

theorem call_withoutIntervals (c : MeasurementsCollector) (x : CollectorCall) :
    (c.call x).withoutIntervals = (c.withoutIntervals.call x).withoutIntervals := by
  cases x with
  | recordUdpPacketReceived sequence sent received =>
    unfold MeasurementsCollector.call MeasurementsCollector.recordUdpPacketReceived
    by_cases h : sequence = u64Max
    · simp only [if_pos h]
      rfl
    · simp only [if_neg h]
      rfl
  | recordBytesSent k n =>
    simp only [MeasurementsCollector.call, MeasurementsCollector.recordBytesSent,
      MeasurementsCollector.getOrCreateStream, MeasurementsCollector.withoutIntervals]
    split <;> rfl
  | recordBytesReceived k n =>
    simp only [MeasurementsCollector.call, MeasurementsCollector.recordBytesReceived,
      MeasurementsCollector.getOrCreateStream, MeasurementsCollector.withoutIntervals]
    split <;> rfl
  | recordUdpPacket k =>
    simp only [MeasurementsCollector.call, MeasurementsCollector.recordUdpPacket,
      MeasurementsCollector.getOrCreateStream, MeasurementsCollector.withoutIntervals]
    split <;> rfl
  | addInterval interval => rfl
  | setDuration d => rfl
  | setStartTime t => rfl
  | get => rfl

theorem calls_withoutIntervals (c : MeasurementsCollector) (xs : List CollectorCall) :
    (c.calls xs).withoutIntervals = (c.withoutIntervals.calls xs).withoutIntervals := by
  induction xs generalizing c with
  | nil => rfl
  | cons x xs ih =>
    rw [MeasurementsCollector.calls_cons, MeasurementsCollector.calls_cons, ih,
      call_withoutIntervals, ← ih]

namespace ListenerState

variable {cfg : LoopConfig}

theorem arrive_collector (st : ListenerState) (a : Incoming) :
    (st.arrive a).collector = st.collector.calls (incomingCalls a) := by
  unfold arrive packet incomingCalls
  cases parsePacket (a.1.take 65536) with
  | none => rfl
  | some p => rfl

theorem foldl_arrive_collector (st : ListenerState) (as : List Incoming) :
    (as.foldl arrive st).collector = st.collector.calls (as.flatMap incomingCalls) := by
  induction as generalizing st with
  | nil => rfl
  | cons a as ih =>
    rw [List.foldl_cons, ih, arrive_collector, List.flatMap_cons, MeasurementsCollector.calls,
      MeasurementsCollector.calls, MeasurementsCollector.calls, List.foldl_append]

theorem closeInterval_figures (st : ListenerState) (clock : IntervalClock) :
    (st.closeInterval cfg clock).collector.withoutIntervals = st.collector.withoutIntervals := by
  unfold closeInterval
  split <;> rfl

theorem foldl_burst_figures (st : ListenerState) (bs : List Burst) :
    (bs.foldl (burst cfg) st).collector.withoutIntervals =
      (st.collector.calls ((incoming bs).flatMap incomingCalls)).withoutIntervals := by
  induction bs generalizing st with
  | nil => rfl
  | cons b bs ih =>
    rw [List.foldl_cons, ih, calls_withoutIntervals, burst, closeInterval_figures,
      ← calls_withoutIntervals, foldl_arrive_collector, incoming, incoming, List.flatMap_cons,
      List.flatMap_append, MeasurementsCollector.calls, MeasurementsCollector.calls,
      MeasurementsCollector.calls, List.foldl_append]

/-- The bytes in the reports and in the running interval are the bytes counted since the start. -/
def Accounted (c : MeasurementsCollector) (st : ListenerState) : Prop :=
  c.atomicBytesReceived + (IntervalReport.total st.reports + st.loop.intervalBytes) =
    st.collector.atomicBytesReceived

theorem arrive_accounted {c : MeasurementsCollector} {st : ListenerState} (h : Accounted c st)
    (a : Incoming) : Accounted c (st.arrive a) := by
  unfold arrive packet
  cases parsePacket (a.1.take 65536) with
  | none => exact h
  | some p =>
    unfold Accounted at h ⊢
    have hcounted := (recordUdpPacketReceived_frame st.collector p.1.sequence.toUInt64
      p.1.timestampUs a.2).2.2.1
    simp only [MeasurementsCollector.recordBytesReceived, getOrCreateStream_received, hcounted,
      ← h]
    rw [UInt64.add_assoc, UInt64.add_assoc]

theorem closeInterval_accounted {c : MeasurementsCollector} {st : ListenerState}
    (h : Accounted c st) (clock : IntervalClock) : Accounted c (st.closeInterval cfg clock) := by
  unfold closeInterval
  split
  · have htotal : IntervalReport.total (st.reports ++ [udpReport (st.collector.addInterval
          (intervalStats cfg st.loop.intervalPackets st.loop clock))
          (intervalStats cfg st.loop.intervalPackets st.loop clock)]) =
        IntervalReport.total st.reports + st.loop.intervalBytes := by
      rw [IntervalReport.total, List.map_append, List.sum_append]
      exact congrArg _ (UInt64.add_zero _)
    unfold Accounted at h ⊢
    simp only [htotal, UInt64.add_zero]
    exact h
  · exact h

theorem foldl_burst_accounted {c : MeasurementsCollector} {st : ListenerState}
    (h : Accounted c st) (bs : List Burst) : Accounted c (bs.foldl (burst cfg) st) := by
  induction bs generalizing st with
  | nil => exact h
  | cons b bs ih =>
    have harrived : ∀ as : List Incoming, Accounted c (as.foldl arrive st) := by
      intro as
      induction as using List.reverseRecOn with
      | nil => exact h
      | append_singleton as a ihas =>
        rw [List.foldl_append]
        exact arrive_accounted ihas a
    exact ih (closeInterval_accounted (harrived b.incoming) b.clock)

end ListenerState

/-- Whatever the intervals and the clocks, the same datagrams leave the same figures, and the
reports leave out no byte of them. -/
theorem udpListeners_figures (cfg cfg' : LoopConfig) (c : MeasurementsCollector)
    (es : List RecvEvent) (calls : List BatchEvent)
    (h : incoming (standardBursts es) = incoming (batchedBursts .new calls)) :
    let st := runUdpStandard cfg (.init cfg c) es
    let st' := runUdpBatched cfg' (.init cfg' c) .new calls
    st.collector.withoutIntervals = st'.collector.withoutIntervals ∧
      IntervalReport.total st.reports + st.loop.intervalBytes =
        IntervalReport.total st'.reports + st'.loop.intervalBytes ∧
      c.atomicBytesReceived + (IntervalReport.total st.reports + st.loop.intervalBytes) =
        st.collector.atomicBytesReceived := by
  intro st st'
  have hst : st = (standardBursts es).foldl (ListenerState.burst cfg) (.init cfg c) :=
    runUdpStandard_bursts cfg _ es
  have hst' : st' = (batchedBursts .new calls).foldl (ListenerState.burst cfg') (.init cfg' c) :=
    runUdpBatched_bursts cfg' _ .new calls
  have hfigures : st.collector.withoutIntervals = st'.collector.withoutIntervals := by
    rw [hst, hst', ListenerState.foldl_burst_figures, ListenerState.foldl_burst_figures, h]
    rfl
  have hstart : ∀ cfg, ListenerState.Accounted c (.init cfg c) := by
    intro cfg
    exact (congrArg _ (UInt64.add_zero _)).trans (UInt64.add_zero _)
  have haccounted : ListenerState.Accounted c st :=
    hst ▸ ListenerState.foldl_burst_accounted (hstart cfg) _
  have haccounted' : ListenerState.Accounted c st' :=
    hst' ▸ ListenerState.foldl_burst_accounted (hstart cfg') _
  have hcounted : st.collector.atomicBytesReceived = st'.collector.atomicBytesReceived :=
    congrArg (fun c => c.atomicBytesReceived) hfigures
  refine ⟨hfigures, ?_, haccounted⟩
  unfold ListenerState.Accounted at haccounted haccounted'
  exact (UInt64.add_right_inj c.atomicBytesReceived).mp
    (haccounted.trans (hcounted.trans haccounted'.symm))

/-- The same packets taken one by one, two of them within an interval. -/
def threeReceives : List RecvEvent :=
  [⟨.ok (createPacket 0 7 16 100), 200, ⟨1, 1, 1, 1⟩⟩,
    ⟨.ok (createPacket 0 9 16 101), 201, ⟨2, 2, 2, 2⟩⟩,
    ⟨.ok (createPacket 0 8 16 102), 202, ⟨3, 3, 3, 3⟩⟩]

theorem udpListeners_figures_threePackets :
    (runUdpStandard ⟨0, 10, 2⟩ (.init ⟨0, 10, 2⟩ .new) threeReceives).collector.withoutIntervals =
      (runUdpBatched ⟨0, 10, 5⟩ (.init ⟨0, 10, 5⟩ .new) .new oneBatch).collector.withoutIntervals :=
  (udpListeners_figures ⟨0, 10, 2⟩ ⟨0, 10, 5⟩ .new threeReceives oneBatch rfl).1

end Rperf3
