import Rperf3.Library.Lts
import Rperf3.Library.SharedCounter
import Rperf3.OneWayAccounting
import Mathlib.Data.UInt

/-!
# One-way UDP receive with several workers (`server.rs:1767-1974`)

`recv_one_way_server_mt_tokio` gives every worker a duplicate of the socket.
A worker counts in local variables, adds them to two shared counters at least
200 ms apart and once more when it leaves its loop, and then reports its local
variables on a channel. Every atomic access is a step of its own; the kernel
decides which worker gets a datagram.
-/

namespace Rperf3

/-! ### A worker (`server.rs:1808-1880`) -/

/-- Where a worker stands; `now` is the clock reading of the periodic sync under way. -/
inductive WorkerPc where
  | loadRunning
  | recvfrom
  | readClock
  | syncBytes (now : Instant)
  | syncPackets (now : Instant)
  | finalBytes
  | finalPackets
  | send
  | exited
  deriving DecidableEq

structure Worker where
  pc : WorkerPc
  localStates : UInt32 → Option StreamState
  localBytes : UInt64
  localPackets : UInt64
  lastReport : Instant

structure WorkerShared where
  bytesReceived : UInt64
  packetsReceived : UInt64
  running : Bool
  channel : List (UInt64 × UInt64)

inductive WorkerEvent where
  | load
  | datagram (payload : Bytes)
  | recvError
  | clock (now : Instant)
  | fetchAdd
  | send

def reportInterval : Duration := 200000000

namespace Worker

def spawn (lastReport : Instant) : Worker :=
  { pc := .loadRunning
    localStates := fun _ => none
    localBytes := 0
    localPackets := 0
    lastReport := lastReport }

/-- The bookkeeping of one datagram (`server.rs:1843-1863`). -/
def onDatagram (w : Worker) (buf : Bytes) : Worker :=
  let w := { w with
    pc := .readClock
    localBytes := w.localBytes + UInt64.ofNat buf.length
    localPackets := w.localPackets + 1 }
  if buf.length ≥ 8 then
    let seq := seqOf buf
    let streamId := streamIdOf buf
    let state := (w.localStates streamId).getD (StreamState.new seq)
    { w with
      localStates := Function.update w.localStates streamId (some (state.observe seq).2) }
  else w

/-- One step of a worker. The local variables are not reset after the final sync. -/
def step (bufferSize : ℕ) (sh : WorkerShared) (w : Worker) :
    WorkerEvent → Option (WorkerShared × Worker)
  | .load =>
    match w.pc with
    | .loadRunning => some (sh, { w with pc := if sh.running then .recvfrom else .finalBytes })
    | _ => none
  | .datagram payload =>
    match w.pc with
    | .recvfrom => some (sh, w.onDatagram (payload.take bufferSize))
    | _ => none
  | .recvError =>
    match w.pc with
    | .recvfrom => some (sh, { w with pc := .loadRunning })
    | _ => none
  | .clock now =>
    match w.pc with
    | .readClock =>
      some (sh, { w with
        pc := if now - w.lastReport ≥ reportInterval then .syncBytes now else .loadRunning })
    | _ => none
  | .fetchAdd =>
    match w.pc with
    | .syncBytes now =>
      some ({ sh with bytesReceived := sh.bytesReceived + w.localBytes },
        { w with pc := .syncPackets now })
    | .syncPackets now =>
      some ({ sh with packetsReceived := sh.packetsReceived + w.localPackets },
        { w with pc := .loadRunning, localBytes := 0, localPackets := 0, lastReport := now })
    | .finalBytes =>
      some ({ sh with bytesReceived := sh.bytesReceived + w.localBytes },
        { w with pc := .finalPackets })
    | .finalPackets =>
      some ({ sh with packetsReceived := sh.packetsReceived + w.localPackets },
        { w with pc := .send })
    | _ => none
  | .send =>
    match w.pc with
    | .send =>
      some ({ sh with channel := sh.channel ++ [(w.localBytes, w.localPackets)] },
        { w with pc := .exited })
    | _ => none

def unsyncedBytes (w : Worker) : UInt64 :=
  match w.pc with
  | .syncPackets _ | .finalPackets | .send | .exited => 0
  | _ => w.localBytes

def unsyncedPackets (w : Worker) : UInt64 :=
  match w.pc with
  | .send | .exited => 0
  | _ => w.localPackets

end Worker

/-- The datagram a step takes off the socket, as it stands in the worker's buffer. -/
def WorkerEvent.received (bufferSize : ℕ) : WorkerEvent → List Bytes
  | .datagram payload => [payload.take bufferSize]
  | _ => []

/-! ### The main task (`server.rs:1887-1973`) -/

/-- A line printed for an interval (`server.rs:1900-1915`). -/
structure MtIntervalLine where
  elapsed : Duration
  rateGbps : F64
  packets : UInt64
  bytes : UInt64
  deriving DecidableEq

inductive MtPc where
  | intervalLoop
  | sleeping
  | loadBytes (current : Instant)
  | loadPackets (current : Instant) (currentTotal : UInt64)
  | stop
  | drain
  | join
  | finalBytes
  | finalPackets (totalBytes : UInt64)
  | summary (totalBytes totalPackets : UInt64)
  | returned (result : Except Error ServerOneWayStats)

structure MtMain where
  pc : MtPc
  prevIntervalEnd : Instant
  prevTotalBytes : UInt64
  totalWorkerBytes : UInt64
  totalWorkerPackets : UInt64
  printed : List MtIntervalLine

/-- The call: what `dup` returns for each requested worker, and the arguments. -/
structure MtCall where
  dups : List (Option ℕ)
  start : Instant
  duration : Duration
  bufferSize : ℕ
  spawned : ℕ → Instant

/-- The descriptors that could be duplicated; one worker is started for each. -/
def MtCall.workerFds (c : MtCall) : List ℕ := c.dups.filterMap id

def rateGbps (bytes : UInt64) (elapsed : F64) : F64 :=
  if elapsed > 0 then (bytes.toNat : F64) * 8 / (elapsed * 1000000000) else 0

inductive MtEvent where
  | clock (now : Instant)
  | load
  | store
  | recv
  | recvTimeout
  | join
  | finish (elapsed finish : Instant)

structure MtState (n : ℕ) where
  main : MtMain
  shared : WorkerShared
  workers : Fin n → Worker
  /-- Every datagram taken off the socket so far, by whichever worker. -/
  received : List Bytes

namespace MtMain

def start (c : MtCall) : MtMain :=
  { pc := if c.workerFds.isEmpty then .returned (.error (.io .other)) else .intervalLoop
    prevIntervalEnd := c.start
    prevTotalBytes := 0
    totalWorkerBytes := 0
    totalWorkerPackets := 0
    printed := [] }

/-- The report of one interval (`server.rs:1896-1919`). -/
def report (c : MtCall) (m : MtMain) (current : Instant) (currentTotal currentPkts : UInt64) :
    MtMain :=
  let intervalElapsed := Duration.asSecsF64 (current - m.prevIntervalEnd)
  if intervalElapsed ≥ 9 / 10 then
    { m with
      pc := .intervalLoop
      prevIntervalEnd := current
      prevTotalBytes := currentTotal
      printed := m.printed ++
        [{ elapsed := current - c.start
           rateGbps := rateGbps (currentTotal - m.prevTotalBytes) intervalElapsed
           packets := currentPkts
           bytes := currentTotal }] }
  else { m with pc := .intervalLoop }

/-- One step of the main task. `joinable` says that every worker has exited. -/
def step (c : MtCall) (joinable : Bool) (sh : WorkerShared) (m : MtMain) :
    MtEvent → Option (WorkerShared × MtMain)
  | .clock now =>
    match m.pc with
    | .intervalLoop =>
      some (sh, { m with pc := if now ≥ c.start + c.duration then .stop else .sleeping })
    | .sleeping =>
      some (sh, { m with pc := if now ≥ c.start + c.duration then .stop else .loadBytes now })
    | _ => none
  | .load =>
    match m.pc with
    | .loadBytes current => some (sh, { m with pc := .loadPackets current sh.bytesReceived })
    | .loadPackets current currentTotal =>
      some (sh, m.report c current currentTotal sh.packetsReceived)
    | .finalBytes => some (sh, { m with pc := .finalPackets sh.bytesReceived })
    | .finalPackets totalBytes =>
      some (sh, { m with pc := .summary totalBytes sh.packetsReceived })
    | _ => none
  | .store =>
    match m.pc with
    | .stop => some ({ sh with running := false }, { m with pc := .drain })
    | _ => none
  | .recv =>
    match m.pc, sh.channel with
    | .drain, (bytes, packets) :: channel =>
      some ({ sh with channel := channel },
        { m with
          totalWorkerBytes := m.totalWorkerBytes + bytes
          totalWorkerPackets := m.totalWorkerPackets + packets })
    | _, _ => none
  | .recvTimeout =>
    match m.pc with
    | .drain => some (sh, { m with pc := .join })
    | _ => none
  | .join =>
    match m.pc with
    | .join => if joinable then some (sh, { m with pc := .finalBytes }) else none
    | _ => none
  | .finish elapsed finish =>
    match m.pc with
    | .summary totalBytes totalPackets =>
      some (sh, { m with
        printed := m.printed ++
          [{ elapsed := elapsed - c.start
             rateGbps := rateGbps totalBytes (Duration.asSecsF64 (elapsed - c.start))
             packets := totalPackets
             bytes := totalBytes }]
        pc := .returned (.ok
          { bytesReceived := totalBytes.toNat
            packetsReceived := totalPackets.toNat
            outOfOrder := 0
            packetsLost := 0
            packetLoss := none
            duration := finish - c.start }) })
    | _ => none

end MtMain

namespace MtState

variable {n : ℕ}

def start (c : MtCall) : MtState c.workerFds.length :=
  { main := MtMain.start c
    shared := ⟨0, 0, true, []⟩
    workers := fun i => Worker.spawn (c.spawned i)
    received := [] }

end MtState

inductive MtAction (n : ℕ) where
  | worker (i : Fin n) (e : WorkerEvent)
  | main (e : MtEvent)

namespace MtState

variable {n : ℕ}

def exited (s : MtState n) : Prop := ∀ i, (s.workers i).pc = .exited

instance (s : MtState n) : Decidable s.exited := inferInstanceAs (Decidable (∀ _, _))

/-- `recv_one_way_server_mt_tokio` (`server.rs:1770-1974`): one step of a worker or of the main
task. -/
def step (c : MtCall) (s : MtState n) : MtAction n → Option (MtState n)
  | .worker i e =>
    (Worker.step c.bufferSize s.shared (s.workers i) e).map (fun x =>
      { s with
        shared := x.1
        workers := Function.update s.workers i x.2
        received := s.received ++ e.received c.bufferSize })
  | .main e =>
    (MtMain.step c (decide s.exited) s.shared s.main e).map (fun x =>
      { s with shared := x.1, main := x.2 })

end MtState

/-! ### What one step adds to the shared counters -/

def bytesOf (bufs : List Bytes) : UInt64 := UInt64.ofNat (bufs.map List.length).sum

def packetsOf (bufs : List Bytes) : UInt64 := UInt64.ofNat bufs.length

theorem bytesOf_append (xs ys : List Bytes) : bytesOf (xs ++ ys) = bytesOf xs + bytesOf ys := by
  simp only [bytesOf, List.map_append, List.sum_append, UInt64.ofNat_add]

theorem packetsOf_append (xs ys : List Bytes) :
    packetsOf (xs ++ ys) = packetsOf xs + packetsOf ys := by
  simp only [packetsOf, List.length_append, UInt64.ofNat_add]

@[simp] theorem bytesOf_nil : bytesOf [] = 0 := rfl
@[simp] theorem packetsOf_nil : packetsOf [] = 0 := rfl

/-- What a step of a worker does to the two counters, against what it took off the socket. -/
structure Worker.Accounts (sh sh' : WorkerShared) (w w' : Worker) (received : List Bytes) :
    Prop where
  bytes : ∃ added, sh'.bytesReceived = sh.bytesReceived + added ∧
    added + w'.unsyncedBytes = w.unsyncedBytes + bytesOf received
  packets : ∃ added, sh'.packetsReceived = sh.packetsReceived + added ∧
    added + w'.unsyncedPackets = w.unsyncedPackets + packetsOf received
  running : w.pc ≠ .exited

theorem Worker.Accounts.quiet {sh sh' : WorkerShared} {w w' : Worker} {received : List Bytes}
    (hsb : sh'.bytesReceived = sh.bytesReceived) (hsp : sh'.packetsReceived = sh.packetsReceived)
    (hb : w'.unsyncedBytes = w.unsyncedBytes + bytesOf received)
    (hp : w'.unsyncedPackets = w.unsyncedPackets + packetsOf received) (hrun : w.pc ≠ .exited) :
    Worker.Accounts sh sh' w w' received :=
  ⟨⟨0, by rw [hsb, add_zero], by rw [zero_add, hb]⟩,
    ⟨0, by rw [hsp, add_zero], by rw [zero_add, hp]⟩, hrun⟩

theorem onDatagram_fields (w : Worker) (buf : Bytes) :
    (w.onDatagram buf).pc = .readClock ∧
      (w.onDatagram buf).localBytes = w.localBytes + bytesOf [buf] ∧
      (w.onDatagram buf).localPackets = w.localPackets + packetsOf [buf] := by
  have hbytes : UInt64.ofNat buf.length = bytesOf [buf] := by
    simp only [bytesOf, List.map_cons, List.map_nil, List.sum_cons, List.sum_nil, Nat.add_zero]
  have hpackets : (1 : UInt64) = packetsOf [buf] := rfl
  unfold Worker.onDatagram
  rw [hbytes, hpackets]
  split <;> exact ⟨rfl, rfl, rfl⟩

theorem Worker.step_accounts {bufferSize : ℕ} {sh sh' : WorkerShared} {w w' : Worker}
    {e : WorkerEvent} (h : w.step bufferSize sh e = some (sh', w')) :
    Worker.Accounts sh sh' w w' (e.received bufferSize) := by
  cases e with
  | load =>
    cases hpc : w.pc <;> simp only [Worker.step, hpc, reduceCtorEq] at h
    obtain ⟨rfl, rfl⟩ := Prod.mk.inj (Option.some.inj h)
    refine .quiet rfl rfl ?_ ?_ (by simp [hpc])
    · cases hrun : sh.running <;> simp [Worker.unsyncedBytes, WorkerEvent.received, hpc]
    · cases hrun : sh.running <;> simp [Worker.unsyncedPackets, WorkerEvent.received, hpc]
  | datagram payload =>
    cases hpc : w.pc <;> simp only [Worker.step, hpc, reduceCtorEq] at h
    obtain ⟨rfl, rfl⟩ := Prod.mk.inj (Option.some.inj h)
    obtain ⟨hclock, hbytes, hpackets⟩ := onDatagram_fields w (payload.take bufferSize)
    refine .quiet rfl rfl ?_ ?_ (by simp [hpc])
    · simp [Worker.unsyncedBytes, WorkerEvent.received, hpc, hclock, hbytes]
    · simp [Worker.unsyncedPackets, WorkerEvent.received, hpc, hclock, hpackets]
  | recvError =>
    cases hpc : w.pc <;> simp only [Worker.step, hpc, reduceCtorEq] at h
    obtain ⟨rfl, rfl⟩ := Prod.mk.inj (Option.some.inj h)
    refine .quiet rfl rfl ?_ ?_ (by simp [hpc])
    · simp [Worker.unsyncedBytes, WorkerEvent.received, hpc]
    · simp [Worker.unsyncedPackets, WorkerEvent.received, hpc]
  | clock now =>
    cases hpc : w.pc <;> simp only [Worker.step, hpc, reduceCtorEq] at h
    obtain ⟨rfl, rfl⟩ := Prod.mk.inj (Option.some.inj h)
    refine .quiet rfl rfl ?_ ?_ (by simp [hpc])
    · by_cases hdue : now - w.lastReport ≥ reportInterval <;>
        simp [Worker.unsyncedBytes, WorkerEvent.received, hpc, hdue]
    · by_cases hdue : now - w.lastReport ≥ reportInterval <;>
        simp [Worker.unsyncedPackets, WorkerEvent.received, hpc, hdue]
  | fetchAdd =>
    cases hpc : w.pc <;> simp only [Worker.step, hpc, reduceCtorEq] at h
    all_goals
      obtain ⟨rfl, rfl⟩ := Prod.mk.inj (Option.some.inj h)
      refine ⟨?_, ?_, by simp [hpc]⟩
    -- each of the four adds moves one local counter over and leaves the other where it is
    case syncBytes.refine_1 | finalBytes.refine_1 =>
      exact ⟨w.localBytes, rfl, by simp [Worker.unsyncedBytes, WorkerEvent.received, hpc]⟩
    case syncBytes.refine_2 | finalBytes.refine_2 =>
      exact ⟨0, by simp, by simp [Worker.unsyncedPackets, WorkerEvent.received, hpc]⟩
    case syncPackets.refine_1 | finalPackets.refine_1 =>
      exact ⟨0, by simp, by simp [Worker.unsyncedBytes, WorkerEvent.received, hpc]⟩
    case syncPackets.refine_2 | finalPackets.refine_2 =>
      exact ⟨w.localPackets, rfl, by simp [Worker.unsyncedPackets, WorkerEvent.received, hpc]⟩
  | send =>
    cases hpc : w.pc <;> simp only [Worker.step, hpc, reduceCtorEq] at h
    obtain ⟨rfl, rfl⟩ := Prod.mk.inj (Option.some.inj h)
    refine .quiet rfl rfl ?_ ?_ (by simp [hpc])
    · simp [Worker.unsyncedBytes, WorkerEvent.received, hpc]
    · simp [Worker.unsyncedPackets, WorkerEvent.received, hpc]

/-! ### The invariant -/

/-- Nothing the main task has read since it joined the workers has changed. -/
def MtState.Settled {n : ℕ} (s : MtState n) : Prop :=
  match s.main.pc with
  | .finalBytes => s.exited
  | .finalPackets totalBytes => s.exited ∧ totalBytes = s.shared.bytesReceived
  | .summary totalBytes totalPackets =>
    s.exited ∧ totalBytes = s.shared.bytesReceived ∧ totalPackets = s.shared.packetsReceived
  | .returned (.ok stats) =>
    s.exited ∧ stats.bytesReceived = s.shared.bytesReceived.toNat ∧
      stats.packetsReceived = s.shared.packetsReceived.toNat
  | _ => True

structure MtInv {n : ℕ} (s : MtState n) : Prop where
  bytes : SharedCounter.Balanced s.shared.bytesReceived
    (fun i => (s.workers i).unsyncedBytes) (bytesOf s.received)
  packets : SharedCounter.Balanced s.shared.packetsReceived
    (fun i => (s.workers i).unsyncedPackets) (packetsOf s.received)
  settled : s.Settled

theorem mtInv_start (c : MtCall) : MtInv (MtState.start c) := by
  refine ⟨SharedCounter.balanced_start (fun i => rfl), SharedCounter.balanced_start (fun i => rfl),
    ?_⟩
  cases hfds : c.workerFds.isEmpty <;>
    simp [MtState.Settled, MtState.start, MtMain.start, hfds]

theorem settled_of_running {n : ℕ} {s : MtState n} (h : s.Settled) {i : Fin n}
    (hrun : (s.workers i).pc ≠ .exited) (t : MtState n) (hmain : t.main = s.main) :
    t.Settled := by
  have hnot : ¬ s.exited := fun hall => hrun (hall i)
  unfold MtState.Settled at h ⊢
  rw [hmain]
  split at h
  · exact absurd h hnot
  · exact absurd h.1 hnot
  · exact absurd h.1 hnot
  · exact absurd h.1 hnot
  · trivial

theorem MtMain.step_counters {c : MtCall} {joinable : Bool} {sh sh' : WorkerShared}
    {m m' : MtMain} {e : MtEvent} (h : m.step c joinable sh e = some (sh', m')) :
    sh'.bytesReceived = sh.bytesReceived ∧ sh'.packetsReceived = sh.packetsReceived := by
  cases e with
  | recv =>
    cases hpc : m.pc <;> cases hch : sh.channel <;>
      simp only [MtMain.step, hpc, hch, reduceCtorEq] at h
    obtain ⟨rfl, rfl⟩ := Prod.mk.inj (Option.some.inj h)
    exact ⟨rfl, rfl⟩
  | join =>
    cases hpc : m.pc <;> simp only [MtMain.step, hpc, reduceCtorEq] at h
    obtain ⟨-, h⟩ := Option.ite_none_right_eq_some.mp h
    obtain ⟨rfl, rfl⟩ := Prod.mk.inj (Option.some.inj h)
    exact ⟨rfl, rfl⟩
  | _ =>
    cases hpc : m.pc <;> simp only [MtMain.step, hpc, reduceCtorEq] at h
    all_goals
      obtain ⟨rfl, rfl⟩ := Prod.mk.inj (Option.some.inj h)
      exact ⟨rfl, rfl⟩

theorem MtState.settled_main {n : ℕ} {c : MtCall} {s s' : MtState n} {e : MtEvent}
    (h : s.Settled) (hstep : s.step c (.main e) = some s') : s'.Settled := by
  obtain ⟨⟨sh, m⟩, hmain, rfl⟩ := Option.map_eq_some_iff.mp hstep
  unfold MtState.Settled at h
  cases e with
  | clock now =>
    cases hpc : s.main.pc <;> simp only [MtMain.step, hpc, reduceCtorEq] at hmain
    all_goals
      obtain ⟨rfl, rfl⟩ := Prod.mk.inj (Option.some.inj hmain)
      by_cases hend : now ≥ c.start + c.duration <;> simp [MtState.Settled, hend]
  | load =>
    cases hpc : s.main.pc <;> simp only [MtMain.step, hpc, reduceCtorEq] at hmain
    all_goals
      rw [hpc] at h
      obtain ⟨rfl, rfl⟩ := Prod.mk.inj (Option.some.inj hmain)
    case loadBytes => trivial
    case loadPackets current currentTotal =>
      unfold MtMain.report
      by_cases hdue : Duration.asSecsF64 (current - s.main.prevIntervalEnd) ≥ 9 / 10 <;>
        simp [MtState.Settled, hdue]
    case finalBytes => exact ⟨h, rfl⟩
    case finalPackets => exact ⟨h.1, h.2, rfl⟩
  | store =>
    cases hpc : s.main.pc <;> simp only [MtMain.step, hpc, reduceCtorEq] at hmain
    obtain ⟨rfl, rfl⟩ := Prod.mk.inj (Option.some.inj hmain)
    trivial
  | recv =>
    cases hpc : s.main.pc <;> cases hch : s.shared.channel <;>
      simp only [MtMain.step, hpc, hch, reduceCtorEq] at hmain
    obtain ⟨rfl, rfl⟩ := Prod.mk.inj (Option.some.inj hmain)
    simp [MtState.Settled]
  | recvTimeout =>
    cases hpc : s.main.pc <;> simp only [MtMain.step, hpc, reduceCtorEq] at hmain
    obtain ⟨rfl, rfl⟩ := Prod.mk.inj (Option.some.inj hmain)
    trivial
  | join =>
    cases hpc : s.main.pc <;> simp only [MtMain.step, hpc, reduceCtorEq] at hmain
    obtain ⟨hall, hsome⟩ := Option.ite_none_right_eq_some.mp hmain
    obtain ⟨rfl, rfl⟩ := Prod.mk.inj (Option.some.inj hsome)
    exact show s.exited from of_decide_eq_true hall
  | finish elapsed finish =>
    cases hpc : s.main.pc <;> simp only [MtMain.step, hpc, reduceCtorEq] at hmain
    rw [hpc] at h
    obtain ⟨rfl, rfl⟩ := Prod.mk.inj (Option.some.inj hmain)
    exact ⟨h.1, congrArg UInt64.toNat h.2.1, congrArg UInt64.toNat h.2.2⟩

theorem MtInv.step {n : ℕ} {c : MtCall} {s s' : MtState n} {a : MtAction n} (h : MtInv s)
    (hstep : s.step c a = some s') : MtInv s' := by
  cases a with
  | worker i e =>
    obtain ⟨⟨sh, w⟩, hworker, rfl⟩ := Option.map_eq_some_iff.mp hstep
    obtain ⟨⟨b, hb, hownb⟩, ⟨p, hp, hownp⟩, hrun⟩ := Worker.step_accounts hworker
    refine ⟨?_, ?_, settled_of_running h.settled hrun _ rfl⟩
    · rw [hb, bytesOf_append]
      exact h.bytes.step hownb
    · rw [hp, packetsOf_append]
      exact h.packets.step hownp
  | main e =>
    have hsettled := MtState.settled_main h.settled hstep
    obtain ⟨⟨sh, m⟩, hmain, rfl⟩ := Option.map_eq_some_iff.mp hstep
    obtain ⟨hb, hp⟩ := MtMain.step_counters hmain
    refine ⟨?_, ?_, hsettled⟩
    · rw [hb]
      exact h.bytes
    · rw [hp]
      exact h.packets

theorem mtInv_reachable {c : MtCall} {s : MtState c.workerFds.length}
    (h : Lts.Reachable (MtState.step c) (MtState.start c) s) : MtInv s :=
  h.invariant (mtInv_start c) (fun _ _ _ hinv _ hstep => hinv.step hstep)

/-- Once the workers have exited the shared counters hold everything that was received. -/
theorem MtInv.exited_counters {n : ℕ} {s : MtState n} (h : MtInv s) (hexit : s.exited) :
    s.shared.bytesReceived = bytesOf s.received ∧
      s.shared.packetsReceived = packetsOf s.received := by
  refine ⟨h.bytes.settled (fun i => ?_), h.packets.settled (fun i => ?_)⟩
  · simp only [Worker.unsyncedBytes, hexit i]
  · simp only [Worker.unsyncedPackets, hexit i]

/-! ### Against the receiver with one loop -/

theorem bytesReceived_eq_arrivals (r : OneWayRun) :
    r.tally.bytesReceived = (r.arrivals.map List.length).sum := by
  rw [r.tally_eq_addNumbered]
  exact Nat.zero_add _

/-- Every datagram is counted once: at every step the shared counters and what the workers have
not synced make up what was taken off the socket, and the result is that of the single receiver
for the same datagrams. Counters of 64 bits wrap. -/
theorem multiWorker_counts_once (c : MtCall) (s : MtState c.workerFds.length)
    (h : Lts.Reachable (MtState.step c) (MtState.start c) s) :
    s.shared.bytesReceived + ∑ i, (s.workers i).unsyncedBytes = bytesOf s.received ∧
      s.shared.packetsReceived + ∑ i, (s.workers i).unsyncedPackets = packetsOf s.received ∧
      ∀ stats, s.main.pc = .returned (.ok stats) → ∀ (r : OneWayRun) single,
        recvOneWayServerWithSocket r = .ok single → r.arrivals.Perm s.received →
        stats.bytesReceived = single.bytesReceived % 2 ^ 64 ∧
          stats.packetsReceived = single.packetsReceived % 2 ^ 64 := by
  have hinv := mtInv_reachable h
  refine ⟨hinv.bytes, hinv.packets, ?_⟩
  intro stats hret r single hok hsame
  have hsettled := hinv.settled
  unfold MtState.Settled at hsettled
  rw [hret] at hsettled
  obtain ⟨hexit, hbytes, hpackets⟩ := hsettled
  obtain ⟨hb, hp⟩ := hinv.exited_counters hexit
  rw [stats_of_ok hok, hbytes, hpackets, hb, hp]
  constructor
  · rw [bytesOf, UInt64.toNat_ofNat', ← (hsame.map List.length).sum_eq]
    exact congrArg (· % 2 ^ 64) (bytesReceived_eq_arrivals r).symm
  · rw [packetsOf, UInt64.toNat_ofNat', ← hsame.length_eq]
    exact congrArg (· % 2 ^ 64) (packetsReceived_eq_length r).symm

/-- A call with three workers asked for, of which two can be started. -/
def twoWorkers : MtCall :=
  { dups := [some 7, none, some 8]
    start := 0
    duration := 1000000000
    bufferSize := 12
    spawned := fun _ => 0 }

def firstWorker : Fin 2 := ⟨0, Nat.zero_lt_two⟩
def secondWorker : Fin 2 := ⟨1, Nat.one_lt_two⟩

/-- Each worker receives one datagram; the first also syncs before the end. -/
def twoWorkersSteps : List (MtAction 2) :=
  [.worker firstWorker .load, .worker secondWorker .load,
    .worker secondWorker (.datagram [0, 0, 0, 1, 0, 0, 0, 0, 9]),
    .worker firstWorker (.datagram (List.replicate 20 0)),
    .worker firstWorker (.clock 300000000), .worker firstWorker .fetchAdd,
    .worker secondWorker (.clock 100000000), .worker firstWorker .fetchAdd,
    .main (.clock 1000000000), .main .store,
    .worker firstWorker .load, .worker secondWorker .load, .worker firstWorker .fetchAdd,
    .worker secondWorker .fetchAdd, .worker secondWorker .fetchAdd, .worker secondWorker .send,
    .worker firstWorker .fetchAdd, .worker firstWorker .send,
    .main .recv, .main .recv, .main .recvTimeout, .main .join, .main .load, .main .load,
    .main (.finish 1400000000 1400000001)]

def twoWorkersEnd : MtState 2 :=
  (Lts.run (MtState.step twoWorkers) (fun _ _ => True) (MtState.start twoWorkers)
    twoWorkersSteps).getD (MtState.start twoWorkers)

theorem twoWorkers_run :
    Lts.run (MtState.step twoWorkers) (fun _ _ => True) (MtState.start twoWorkers)
      twoWorkersSteps = some twoWorkersEnd :=
  rfl

theorem multiWorker_counts_once_twoWorkers :
    ∃ stats, twoWorkersEnd.main.pc = .returned (.ok stats) ∧
      stats.bytesReceived =
        (OneWayRun.deliver twoWorkersEnd.received).stats.bytesReceived % 2 ^ 64 ∧
      stats.packetsReceived =
        (OneWayRun.deliver twoWorkersEnd.received).stats.packetsReceived % 2 ^ 64 :=
  ⟨_, rfl, (multiWorker_counts_once twoWorkers twoWorkersEnd
    (Lts.Reach.start.run twoWorkers_run)).2.2 _ rfl _ _ (recv_deliver _)
    (List.Perm.of_eq (arrivals_deliver _))⟩

example : twoWorkersEnd.shared.bytesReceived = 21 ∧ twoWorkersEnd.shared.packetsReceived = 2 := by
  decide

end Rperf3
