import Rperf3.Library.DatagramNet
import Rperf3.OneWayParallel
import Rperf3.WorkerLines

/-!
# The loss of a test with workers (`client.rs:838-905`, `server.rs:1767-1974`)

With several workers the server counts no losses: "true loss must be derived by
comparing client-sent vs server-received bytes". Each stream of the client has a
network of its own that loses and reorders, the workers take the datagrams off
one socket, and the comparison gives exactly what never got that far.
-/

namespace Rperf3
open SharedCounter (Balanced)

/-! ### What the client says it has sent -/

theorem round_bytes {buffer : SendBuffer} {streamId : UInt32} {st st' : OffsetState}
    {reply : BatchReply} (h : st.round buffer streamId reply = some st')
    (hbytes : st.totalBytes = st.totalPackets * buffer.bytes.length) :
    st'.totalBytes = st'.totalPackets * buffer.bytes.length := by
  cases reply with
  | sent count =>
    cases h
    simp only [hbytes, Nat.add_mul]
  | wouldBlock =>
    cases h
    exact hbytes
  | failed kind => cases h

theorem offsetLoop_bytes (start : Instant) (duration : Duration) (buffer : SendBuffer)
    (streamId : UInt32) (st : OffsetState) (ticks : List OffsetTick)
    (hbytes : st.totalBytes = st.totalPackets * buffer.bytes.length) :
    (offsetLoop start duration buffer streamId st ticks).totalBytes =
      (offsetLoop start duration buffer streamId st ticks).totalPackets *
        buffer.bytes.length := by
  induction ticks generalizing st with
  | nil => exact hbytes
  | cons tick ticks ih =>
    unfold offsetLoop
    by_cases hrun : offsetRunning start duration tick.now
    · rw [if_pos hrun]
      cases hround : st.round buffer streamId tick.reply with
      | none => exact hbytes
      | some st' => exact ih st' (round_bytes hround hbytes)
    · rw [if_neg hrun]
      exact hbytes

namespace Client

/-- `total_bytes` of the streams that return (`client.rs:877-891`). -/
def totalBytes (c : Client) (net : Network) (h : 8 ≤ c.config.bufferSize) : ℕ :=
  ∑ i : Fin c.config.parallel,
    match (net.streams i).bind with
    | .error _ => 0
    | .ok () =>
      match sendOneWayWithOffset (c.offsetRun net h i) with
      | .ok stats => stats.bytesSent
      | .error _ => 0

theorem totalBytes_eq (c : Client) (net : Network) (h : 8 ≤ c.config.bufferSize) :
    c.totalBytes net h = c.totalPackets net h * c.config.bufferSize := by
  unfold totalBytes totalPackets
  rw [Finset.sum_mul]
  refine Finset.sum_congr rfl (fun i _ => ?_)
  cases (net.streams i).bind with
  | error e => exact (Nat.zero_mul _).symm
  | ok u =>
    dsimp only
    unfold sendOneWayWithOffset
    by_cases hconnected : (c.offsetRun net h i).connected = true
    · have hloop := offsetLoop_bytes (c.offsetRun net h i).start (c.offsetRun net h i).duration
        (c.offsetRun net h i).buffer (c.offsetRun net h i).streamId
        ⟨(c.offsetRun net h i).seqOffset, 0, 0, []⟩ (c.offsetRun net h i).ticks
        (Nat.zero_mul _).symm
      have hsize : (c.offsetRun net h i).buffer.bytes.length = c.config.bufferSize :=
        List.length_replicate
      rw [hsize] at hloop
      simp only [if_pos hconnected]
      exact hloop
    · simp only [if_neg hconnected, Nat.zero_mul]

theorem totalPackets_accepted (c : Client) (net : Network) (h : 8 ≤ c.config.bufferSize) :
    c.totalPackets net h =
      ∑ i : Fin c.config.parallel, (c.streamAccepted net h i).length := by
  rw [totalPackets_eq]
  refine Finset.sum_congr rfl (fun i _ => ?_)
  rw [streamAccepted_eq, List.length_map]

theorem length_streamAccepted {c : Client} {net : Network} {h : 8 ≤ c.config.bufferSize}
    {streamId : ℕ} {packet : Bytes} (hp : packet ∈ c.streamAccepted net h streamId) :
    packet.length = c.config.bufferSize := by
  rw [streamAccepted_eq] at hp
  obtain ⟨p, -, rfl⟩ := List.mem_map.mp hp
  exact (length_oneWayPacket ..).trans List.length_replicate

end Client

/-! ### The test -/

structure WorkersTest (p n : ℕ) where
  net : Fin p → DatagramNet.State Bytes
  server : MtState n

inductive WorkersAction (p n : ℕ) where
  | send (i : Fin p)
  | lose (i : Fin p) (k : ℕ)
  /-- worker `j` takes the `k`-th datagram of stream `i` in flight -/
  | receive (i : Fin p) (k : ℕ) (j : Fin n)
  | server (a : MtAction n)

def MtAction.received {n : ℕ} (bufferSize : ℕ) : MtAction n → List Bytes
  | .worker _ e => e.received bufferSize
  | .main _ => []

theorem MtState.step_received {n : ℕ} {c : MtCall} {s s' : MtState n} {a : MtAction n}
    (h : s.step c a = some s') : s'.received = s.received ++ a.received c.bufferSize := by
  cases a with
  | worker i e =>
    obtain ⟨x, -, rfl⟩ := Option.map_eq_some_iff.mp h
    rfl
  | main e =>
    obtain ⟨x, -, rfl⟩ := Option.map_eq_some_iff.mp h
    exact (List.append_nil _).symm

namespace WorkersTest

variable {p : ℕ} {call : MtCall}

def start (call : MtCall) (sent : Fin p → List Bytes) : WorkersTest p call.workerFds.length :=
  { net := fun i => DatagramNet.start (sent i)
    server := MtState.start call }

def onNet {n : ℕ} (s : WorkersTest p n) (i : Fin p) (x : DatagramNet.Action) :
    Option (WorkersTest p n) :=
  (DatagramNet.step (s.net i) x).map (fun net => { s with net := Function.update s.net i net })

def step {n : ℕ} (call : MtCall) (s : WorkersTest p n) :
    WorkersAction p n → Option (WorkersTest p n)
  | .send i => s.onNet i .send
  | .lose i k => s.onNet i (.lose k)
  | .receive i k j =>
    match (s.net i).flying[k]? with
    | none => none
    | some payload =>
      match s.server.step call (.worker j (.datagram payload)) with
      | none => none
      | some server => ({ s with server := server } : WorkersTest p n).onNet i (.deliver k)
  | .server a =>
    if (a.received call.bufferSize).isEmpty then
      (s.server.step call a).map (fun server => { s with server := server })
    else none

/-- What has arrived of a stream, as it stands in the buffers of the workers. -/
def arrivedIn (bufferSize : ℕ) (net : DatagramNet.State Bytes) : Multiset Bytes :=
  (net.arrived.map (List.take bufferSize) : List Bytes)

def missing {n : ℕ} (s : WorkersTest p n) : ℕ :=
  ∑ i, ((s.net i).pending.length + ((s.net i).flying ++ (s.net i).lost).length)

/-- The workers have taken what has arrived. -/
structure Inv (call : MtCall) (sent : Fin p → List Bytes)
    (s : WorkersTest p call.workerFds.length) : Prop where
  server : Lts.Reachable (MtState.step call) (MtState.start call) s.server
  net : ∀ i, DatagramNet.Conserved (sent i) (s.net i)
  received : Balanced 0 (fun i => arrivedIn call.bufferSize (s.net i))
    (s.server.received : Multiset Bytes)

variable {sent : Fin p → List Bytes} {s s' : WorkersTest p call.workerFds.length}

theorem inv_start : Inv call sent (start call sent) where
  server := .start
  net i := DatagramNet.conserved_start (sent i)
  received := SharedCounter.balanced_start (fun _ => rfl)

/-- A step of one network, against what the workers have taken by then. -/
theorem Inv.onNet {i : Fin p} {x : DatagramNet.Action} {server : MtState call.workerFds.length}
    {received : List Bytes} (h : Inv call sent s)
    (hserver : Lts.Reachable (MtState.step call) (MtState.start call) server)
    (hreceived : server.received = s.server.received ++ received)
    (hs : ({ s with server := server } : WorkersTest p _).onNet i x = some s')
    (harrived : ∀ net, DatagramNet.step (s.net i) x = some net →
      arrivedIn call.bufferSize net = arrivedIn call.bufferSize (s.net i) + received) :
    Inv call sent s' := by
  obtain ⟨net, hnet, rfl⟩ := Option.map_eq_some_iff.mp hs
  refine ⟨hserver, fun j => ?_, ?_⟩
  · by_cases hj : j = i
    · subst hj
      simp only [Function.update_self]
      exact (h.net j).step hnet
    · simp only [Function.update_of_ne hj]
      exact h.net j
  · have hown : 0 + arrivedIn call.bufferSize net =
        arrivedIn call.bufferSize (s.net i) + (received : Multiset Bytes) :=
      (zero_add _).trans (harrived net hnet)
    have hstep := h.received.step hown
    rw [zero_add, Multiset.coe_add] at hstep
    simp only [hreceived]
    exact hstep

theorem Inv.step {a : WorkersAction p call.workerFds.length} (h : Inv call sent s)
    (hs : s.step call a = some s') : Inv call sent s' := by
  cases a with
  | send i =>
    refine h.onNet h.server (List.append_nil _).symm hs (fun net hnet => ?_)
    cases hp : (s.net i).pending with
    | nil => simp only [DatagramNet.step, hp, reduceCtorEq] at hnet
    | cons b rest =>
      simp only [DatagramNet.step, hp] at hnet
      cases hnet
      exact (add_zero _).symm
  | lose i k =>
    refine h.onNet h.server (List.append_nil _).symm hs (fun net hnet => ?_)
    cases hk : (s.net i).flying[k]? with
    | none => simp only [DatagramNet.step, hk, reduceCtorEq] at hnet
    | some b =>
      simp only [DatagramNet.step, hk] at hnet
      cases hnet
      exact (add_zero _).symm
  | receive i k j =>
    unfold WorkersTest.step at hs
    cases hk : (s.net i).flying[k]? with
    | none => simp only [hk, reduceCtorEq] at hs
    | some payload =>
      simp only [hk] at hs
      cases hserver : s.server.step call (.worker j (.datagram payload)) with
      | none => simp only [hserver, reduceCtorEq] at hs
      | some server =>
        simp only [hserver] at hs
        refine h.onNet (h.server.snoc hserver) (MtState.step_received hserver) hs
          (fun net hnet => ?_)
        simp only [DatagramNet.step, hk] at hnet
        cases hnet
        simp only [arrivedIn, List.map_append, Multiset.coe_add]
        rfl
  | server a =>
    unfold WorkersTest.step at hs
    obtain ⟨hnone, hs⟩ := Option.ite_none_right_eq_some.mp hs
    obtain ⟨server, hserver, rfl⟩ := Option.map_eq_some_iff.mp hs
    refine ⟨h.server.snoc hserver, h.net, ?_⟩
    have hreceived := MtState.step_received hserver
    rw [List.isEmpty_iff.mp hnone, List.append_nil] at hreceived
    change Balanced 0 _ (server.received : Multiset Bytes)
    rw [hreceived]
    exact h.received

theorem inv_reachable (h : Lts.Reachable (WorkersTest.step call) (start call sent) s) :
    Inv call sent s :=
  h.invariant inv_start (fun _ _ _ hinv _ hstep => hinv.step hstep)

theorem Inv.received_eq (h : Inv call sent s) :
    (s.server.received : Multiset Bytes) = ∑ i, arrivedIn call.bufferSize (s.net i) :=
  h.received.symm.trans (zero_add _)

theorem Inv.length (h : Inv call sent s) :
    ∑ i, (sent i).length = s.server.received.length + s.missing := by
  have hcard := congrArg Multiset.card h.received_eq
  rw [Multiset.card_sum, Multiset.coe_card] at hcard
  have harrived : s.server.received.length = ∑ i, (s.net i).arrived.length := by
    refine hcard.trans (Finset.sum_congr rfl (fun i _ => ?_))
    rw [arrivedIn, Multiset.coe_card, List.length_map]
  rw [harrived, missing, ← Finset.sum_add_distrib]
  refine Finset.sum_congr rfl (fun i _ => ?_)
  have hlen := (h.net i).length
  omega

theorem Inv.mem (h : Inv call sent s) {packet : Bytes} (hp : packet ∈ s.server.received) :
    ∃ i, ∃ payload ∈ sent i, packet = payload.take call.bufferSize := by
  have hmem : packet ∈ (s.server.received : Multiset Bytes) := hp
  rw [h.received_eq] at hmem
  obtain ⟨i, -, hi⟩ := Multiset.mem_sum.mp hmem
  obtain ⟨payload, hpayload, rfl⟩ := List.mem_map.mp (Multiset.mem_coe.mp hi)
  exact ⟨i, payload, (h.net i).mem hpayload, rfl⟩

theorem bytesIn_const {bufs : List Bytes} {size : ℕ} (h : ∀ b ∈ bufs, b.length = size) :
    bytesIn bufs = bufs.length * size := by
  have hconst : bufs.map List.length = List.replicate bufs.length size := by
    rw [List.eq_replicate_iff]
    refine ⟨List.length_map _, fun n hn => ?_⟩
    obtain ⟨b, hb, rfl⟩ := List.mem_map.mp hn
    exact h b hb
  rw [bytesIn, hconst, List.sum_replicate_nat]

end WorkersTest

/-- Whatever the networks and the workers do, what the client has sent over what the server
returns is what no worker has taken, in datagrams and in bytes; when nothing is on its way any
more, it is what the networks have lost. -/
theorem workers_trueLoss (c : Client) (net : Network) (hsize : 8 ≤ c.config.bufferSize)
    (htotal : c.totalBytes net hsize < 2 ^ 64) (call : MtCall)
    (hbuffer : c.config.bufferSize ≤ call.bufferSize)
    (s : WorkersTest c.config.parallel call.workerFds.length)
    (h : Lts.Reachable (WorkersTest.step call)
      (WorkersTest.start call fun i : Fin c.config.parallel => c.streamAccepted net hsize i) s)
    (stats : ServerOneWayStats) (hret : s.server.main.pc = .returned (.ok stats)) :
    c.totalPackets net hsize = stats.packetsReceived + s.missing ∧
      c.totalBytes net hsize = stats.bytesReceived + s.missing * c.config.bufferSize ∧
      ((∀ i, (s.net i).pending = [] ∧ (s.net i).flying = []) →
        (c.totalBytes net hsize - stats.bytesReceived) / c.config.bufferSize =
          ∑ i, (s.net i).lost.length) := by
  have hinv := WorkersTest.inv_reachable h
  have hpackets : c.totalPackets net hsize = s.server.received.length + s.missing :=
    (c.totalPackets_accepted net hsize).trans hinv.length
  have hwhole : ∀ b ∈ s.server.received, b.length = c.config.bufferSize := by
    intro b hb
    obtain ⟨i, payload, hpayload, rfl⟩ := hinv.mem hb
    have hlen := Client.length_streamAccepted hpayload
    rw [List.length_take, hlen, Nat.min_eq_right hbuffer]
  have hbytes := WorkersTest.bytesIn_const hwhole
  have hsent : c.totalBytes net hsize =
      bytesIn s.server.received + s.missing * c.config.bufferSize := by
    rw [c.totalBytes_eq, hpackets, hbytes, Nat.add_mul]
  have hfits : s.server.Fits := by
    have hle : s.server.received.length * 1 ≤ s.server.received.length * c.config.bufferSize :=
      Nat.mul_le_mul_left _ (by omega)
    refine ⟨?_, ?_⟩ <;> omega
  obtain ⟨hb, hp⟩ := MtState.returned_all hinv.server hfits hret
  refine ⟨by rw [hp, hpackets], by rw [hb, hsent], fun hquiet => ?_⟩
  have hlost : s.missing = ∑ i, (s.net i).lost.length := by
    refine Finset.sum_congr rfl (fun i _ => ?_)
    rw [(hquiet i).1, (hquiet i).2]
    exact Nat.zero_add _
  rw [hsent, hb, Nat.add_sub_cancel_left, Nat.mul_div_cancel _ (by omega), hlost]

def firstStream : Fin twoSenders.config.parallel := ⟨0, Nat.zero_lt_two⟩
def secondStream : Fin twoSenders.config.parallel := ⟨1, Nat.one_lt_two⟩

/-- The two streams of `twoSenders`, received by the two workers of `twoWorkers`. -/
def workersActions : List (WorkersAction twoSenders.config.parallel twoWorkers.workerFds.length) :=
  [.send firstStream, .send firstStream, .send secondStream, .send firstStream,
    .server (.worker firstWorker .load), .server (.worker secondWorker .load),
    .receive firstStream 1 secondWorker, .lose firstStream 0,
    .receive secondStream 0 firstWorker, .server (.worker firstWorker (.clock 100000000)),
    .server (.worker firstWorker .load), .receive firstStream 0 firstWorker,
    .server (.worker firstWorker (.clock 300000000)), .server (.worker firstWorker .fetchAdd),
    .server (.worker secondWorker (.clock 100000000)),
    .server (.worker firstWorker .fetchAdd),
    .server (.main (.clock 1000000000)), .server (.main .store),
    .server (.worker firstWorker .load), .server (.worker secondWorker .load),
    .server (.worker firstWorker .fetchAdd), .server (.worker secondWorker .fetchAdd),
    .server (.worker secondWorker .fetchAdd), .server (.worker secondWorker .send),
    .server (.worker firstWorker .fetchAdd), .server (.worker firstWorker .send),
    .server (.main .recv), .server (.main .recv), .server (.main .recvTimeout),
    .server (.main .join), .server (.main .load), .server (.main .load),
    .server (.main (.finish 1400000000 1400000001))]

def workersStart : WorkersTest twoSenders.config.parallel twoWorkers.workerFds.length :=
  WorkersTest.start twoWorkers
    fun i => twoSenders.streamAccepted twoSendersNetwork (Nat.le_refl 8) i

def workersEnd : WorkersTest twoSenders.config.parallel twoWorkers.workerFds.length :=
  (Lts.run (WorkersTest.step twoWorkers) (fun _ _ => True) workersStart workersActions).getD
    workersStart

theorem workers_run :
    Lts.run (WorkersTest.step twoWorkers) (fun _ _ => True) workersStart workersActions =
      some workersEnd :=
  rfl

/-- One of four datagrams is lost. -/
theorem workers_trueLoss_two :
    ∃ stats, workersEnd.server.main.pc = .returned (.ok stats) ∧
      (twoSenders.totalBytes twoSendersNetwork (by decide) - stats.bytesReceived) /
          twoSenders.config.bufferSize = 1 := by
  refine ⟨_, rfl, ?_⟩
  exact (workers_trueLoss twoSenders twoSendersNetwork (by decide) (by decide) twoWorkers
    (by decide) workersEnd (Lts.Reach.start.run workers_run) _ rfl).2.2 (by decide)

end Rperf3
