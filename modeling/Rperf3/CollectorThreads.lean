import Rperf3.Library.Lts
import Rperf3.Library.SharedCounter
import Rperf3.Measurements

/-!
# Threads that record on one collector (`measurements.rs:942-1047`)

A record call adds to the total with one atomic operation, finds or creates the
entry of its stream under the lock of `per_stream`, and adds to the entry with
another atomic operation. Entries are shared and never removed, so a reference to
one is its position. The threads take these steps in any order.
-/

namespace Rperf3

/-! ### The counters and the calls -/

inductive Counter where
  | bytesSent
  | bytesReceived
  | packets
  deriving DecidableEq, Repr

namespace Counter

def ofStream : Counter → PerStreamMeasurements → UInt64
  | .bytesSent, s => s.bytesSent
  | .bytesReceived, s => s.bytesReceived
  | .packets, s => s.packets

/-- `fetch_add` on a counter of a stream. -/
def addStream (c : Counter) (amount : UInt64) (s : PerStreamMeasurements) :
    PerStreamMeasurements :=
  match c with
  | .bytesSent => { s with bytesSent := s.bytesSent + amount }
  | .bytesReceived => { s with bytesReceived := s.bytesReceived + amount }
  | .packets => { s with packets := s.packets + amount }

def ofTotal : Counter → MeasurementsCollector → UInt64
  | .bytesSent, m => m.atomicBytesSent
  | .bytesReceived, m => m.atomicBytesReceived
  | .packets, m => m.atomicPackets

/-- `fetch_add` on a counter of the collector. -/
def addTotal (c : Counter) (amount : UInt64) (m : MeasurementsCollector) :
    MeasurementsCollector :=
  match c with
  | .bytesSent => { m with atomicBytesSent := m.atomicBytesSent + amount }
  | .bytesReceived => { m with atomicBytesReceived := m.atomicBytesReceived + amount }
  | .packets => { m with atomicPackets := m.atomicPackets + amount }

@[simp] theorem addStream_streamId (c : Counter) (amount : UInt64) (s : PerStreamMeasurements) :
    (c.addStream amount s).streamId = s.streamId := by
  cases c <;> rfl

theorem ofStream_addStream (c c' : Counter) (amount : UInt64) (s : PerStreamMeasurements) :
    c.ofStream (c'.addStream amount s) = c.ofStream s + if c' = c then amount else 0 := by
  cases c <;> cases c' <;> simp [ofStream, addStream]

@[simp] theorem ofStream_new (c : Counter) (k : ℕ) :
    c.ofStream (PerStreamMeasurements.new k) = 0 := by
  cases c <;> rfl

@[simp] theorem addTotal_perStream (c : Counter) (amount : UInt64) (m : MeasurementsCollector) :
    (c.addTotal amount m).perStream = m.perStream := by
  cases c <;> rfl

theorem ofTotal_addTotal (c c' : Counter) (amount : UInt64) (m : MeasurementsCollector) :
    c.ofTotal (c'.addTotal amount m) = c.ofTotal m + if c' = c then amount else 0 := by
  cases c <;> cases c' <;> simp [ofTotal, addTotal]

theorem ofTotal_perStream (c : Counter) (m : MeasurementsCollector)
    (ss : List PerStreamMeasurements) : c.ofTotal { m with perStream := ss } = c.ofTotal m := by
  cases c <;> rfl

end Counter

/-- `record_bytes_sent`, `record_bytes_received` and `record_udp_packet` with their arguments. -/
inductive RecordCall where
  | recordBytesSent (streamId : ℕ) (bytes : UInt64)
  | recordBytesReceived (streamId : ℕ) (bytes : UInt64)
  | recordUdpPacket (streamId : ℕ)
  deriving DecidableEq, Repr

namespace RecordCall

def counter : RecordCall → Counter
  | .recordBytesSent _ _ => .bytesSent
  | .recordBytesReceived _ _ => .bytesReceived
  | .recordUdpPacket _ => .packets

def streamId : RecordCall → ℕ
  | .recordBytesSent k _ | .recordBytesReceived k _ | .recordUdpPacket k => k

def amount : RecordCall → UInt64
  | .recordBytesSent _ bytes | .recordBytesReceived _ bytes => bytes
  | .recordUdpPacket _ => 1

end RecordCall

/-! ### The threads -/

inductive RecordPc where
  | idle
  | lock (r : RecordCall)
  | find (r : RecordCall)
  | push (r : RecordCall)
  | unlock (r : RecordCall) (entry : ℕ)
  | streamAdd (r : RecordCall) (entry : ℕ)
  deriving DecidableEq, Repr

structure RecordThread where
  pc : RecordPc
  calls : List RecordCall
  deriving DecidableEq, Repr

structure CollectorState (ι : Type*) where
  collector : MeasurementsCollector
  /-- The thread that holds the lock of `per_stream`. -/
  perStreamLock : Option ι
  threads : ι → RecordThread

namespace CollectorState

variable {ι : Type*} [DecidableEq ι]

def start (calls : ι → List RecordCall) : CollectorState ι :=
  ⟨MeasurementsCollector.new, none, fun i => ⟨.idle, calls i⟩⟩

def goto (s : CollectorState ι) (i : ι) (pc : RecordPc) : CollectorState ι :=
  { s with threads := Function.update s.threads i { s.threads i with pc := pc } }

def setPerStream (s : CollectorState ι) (ss : List PerStreamMeasurements) : CollectorState ι :=
  { s with collector := { s.collector with perStream := ss } }

/-- One step of a thread: the atomic add to the total, the four steps of `get_or_create_stream`
(`measurements.rs:942-954`), the atomic add to the entry. -/
def step (s : CollectorState ι) (i : ι) : Option (CollectorState ι) :=
  match (s.threads i).pc with
  | .idle =>
    match (s.threads i).calls with
    | [] => none
    | r :: rs =>
      some { s with
        collector := r.counter.addTotal r.amount s.collector
        threads := Function.update s.threads i ⟨.lock r, rs⟩ }
  | .lock r =>
    match s.perStreamLock with
    | none => some { s.goto i (.find r) with perStreamLock := some i }
    | some _ => none
  | .find r =>
    match s.collector.perStream.findIdx? (fun stream => stream.streamId = r.streamId) with
    | some entry => some (s.goto i (.unlock r entry))
    | none => some (s.goto i (.push r))
  | .push r =>
    let streams := s.collector.perStream
    some ((s.setPerStream (streams ++ [PerStreamMeasurements.new r.streamId])).goto i
      (.unlock r streams.length))
  | .unlock r entry => some { s.goto i (.streamAdd r entry) with perStreamLock := none }
  | .streamAdd r entry =>
    some ((s.setPerStream
      (s.collector.perStream.modify entry (r.counter.addStream r.amount))).goto i .idle)

end CollectorState

section Steps

variable {ι : Type*} [DecidableEq ι] {s s' : CollectorState ι} {i : ι}

inductive CollectorState.Moves (s : CollectorState ι) (i : ι) : CollectorState ι → Prop
  | begin {r : RecordCall} {rs : List RecordCall} (hpc : (s.threads i).pc = .idle)
      (hcalls : (s.threads i).calls = r :: rs) :
      Moves s i { s with
        collector := r.counter.addTotal r.amount s.collector
        threads := Function.update s.threads i ⟨.lock r, rs⟩ }
  | lock {r : RecordCall} (hpc : (s.threads i).pc = .lock r) (hfree : s.perStreamLock = none) :
      Moves s i { s.goto i (.find r) with perStreamLock := some i }
  | found {r : RecordCall} {entry : ℕ} (hpc : (s.threads i).pc = .find r)
      (hfind : s.collector.perStream.findIdx? (fun stream => stream.streamId = r.streamId) =
        some entry) :
      Moves s i (s.goto i (.unlock r entry))
  | missing {r : RecordCall} (hpc : (s.threads i).pc = .find r)
      (hfind : s.collector.perStream.findIdx? (fun stream => stream.streamId = r.streamId) =
        none) :
      Moves s i (s.goto i (.push r))
  | push {r : RecordCall} (hpc : (s.threads i).pc = .push r) :
      Moves s i ((s.setPerStream (s.collector.perStream ++
        [PerStreamMeasurements.new r.streamId])).goto i (.unlock r s.collector.perStream.length))
  | unlock {r : RecordCall} {entry : ℕ} (hpc : (s.threads i).pc = .unlock r entry) :
      Moves s i { s.goto i (.streamAdd r entry) with perStreamLock := none }
  | streamAdd {r : RecordCall} {entry : ℕ} (hpc : (s.threads i).pc = .streamAdd r entry) :
      Moves s i ((s.setPerStream (s.collector.perStream.modify entry
        (r.counter.addStream r.amount))).goto i .idle)

theorem moves_of_step (h : s.step i = some s') : s.Moves i s' := by
  unfold CollectorState.step at h
  split at h
  · next hpc =>
    split at h
    · exact nomatch h
    · next hcalls =>
      obtain rfl := Option.some.inj h
      exact .begin hpc hcalls
  · next hpc =>
    split at h
    · next hfree =>
      obtain rfl := Option.some.inj h
      exact .lock hpc hfree
    · exact nomatch h
  · next hpc =>
    split at h
    · next hfind =>
      obtain rfl := Option.some.inj h
      exact .found hpc hfind
    · next hfind =>
      obtain rfl := Option.some.inj h
      exact .missing hpc hfind
  · next hpc =>
    obtain rfl := Option.some.inj h
    exact .push hpc
  · next hpc =>
    obtain rfl := Option.some.inj h
    exact .unlock hpc
  · next hpc =>
    obtain rfl := Option.some.inj h
    exact .streamAdd hpc

end Steps

/-! ### What has been recorded -/

def RecordCall.amountOf (c : Counter) (sel : ℕ → Bool) (r : RecordCall) : UInt64 :=
  if r.counter = c ∧ sel r.streamId = true then r.amount else 0

/-- What calls add to a counter, on the streams selected. -/
def recorded (c : Counter) (sel : ℕ → Bool) (rs : List RecordCall) : UInt64 :=
  (rs.map (RecordCall.amountOf c sel)).sum

theorem recorded_cons (c : Counter) (sel : ℕ → Bool) (r : RecordCall) (rs : List RecordCall) :
    recorded c sel (r :: rs) = r.amountOf c sel + recorded c sel rs :=
  List.sum_cons

/-- The sum of a counter over the streams selected. -/
def streamTotal (c : Counter) (sel : ℕ → Bool) (ss : List PerStreamMeasurements) : UInt64 :=
  (ss.map (fun s => if sel s.streamId = true then c.ofStream s else 0)).sum

theorem streamTotal_cons (c : Counter) (sel : ℕ → Bool) (s : PerStreamMeasurements)
    (ss : List PerStreamMeasurements) : streamTotal c sel (s :: ss) =
      (if sel s.streamId = true then c.ofStream s else 0) + streamTotal c sel ss :=
  List.sum_cons

theorem streamTotal_push (c : Counter) (sel : ℕ → Bool) (ss : List PerStreamMeasurements)
    (k : ℕ) : streamTotal c sel (ss ++ [PerStreamMeasurements.new k]) = streamTotal c sel ss := by
  simp [streamTotal]

theorem streamTotal_modify {c : Counter} {sel : ℕ → Bool} {r : RecordCall}
    {ss : List PerStreamMeasurements} {entry : ℕ}
    (h : (ss.map PerStreamMeasurements.streamId)[entry]? = some r.streamId) :
    streamTotal c sel (ss.modify entry (r.counter.addStream r.amount)) =
      streamTotal c sel ss + r.amountOf c sel := by
  induction ss generalizing entry with
  | nil => exact nomatch h
  | cons s ss ih =>
    cases entry with
    | zero =>
      have hid : s.streamId = r.streamId := by simpa using h
      by_cases hsel : sel r.streamId = true
      · simp [streamTotal, RecordCall.amountOf, Counter.ofStream_addStream, hid, hsel,
          add_right_comm]
      · simp [streamTotal, RecordCall.amountOf, hid, hsel]
    | succ entry =>
      have hrest : streamTotal c sel (ss.modify entry (r.counter.addStream r.amount)) =
          streamTotal c sel ss + r.amountOf c sel := ih (by simpa using h)
      rw [List.modify_succ_cons, streamTotal_cons, streamTotal_cons, hrest, add_assoc]

theorem streamId_modify (c : Counter) (amount : UInt64) (ss : List PerStreamMeasurements)
    (entry : ℕ) : (ss.modify entry (c.addStream amount)).map PerStreamMeasurements.streamId =
      ss.map PerStreamMeasurements.streamId := by
  induction ss generalizing entry with
  | nil => simp
  | cons s ss ih =>
    cases entry with
    | zero => simp
    | succ entry => simp [ih]

namespace RecordPc

/-- The call under way, if it has still to add to its entry. -/
def pending : RecordPc → List RecordCall
  | .idle => []
  | .lock r | .find r | .push r | .unlock r _ | .streamAdd r _ => [r]

/-- The stream of the call under way, if its entry may not exist yet. -/
def unnamed : RecordPc → List ℕ
  | .lock r | .find r | .push r => [r.streamId]
  | _ => []

def holdsLock : RecordPc → Bool
  | .find _ | .push _ | .unlock _ _ => true
  | _ => false

/-- What a thread knows about the identifiers in `per_stream`. -/
def Ok (ids : List ℕ) : RecordPc → Prop
  | .push r => r.streamId ∉ ids
  | .unlock r entry | .streamAdd r entry => ids[entry]? = some r.streamId
  | _ => True

theorem Ok.append {pc : RecordPc} {ids more : List ℕ} (h : pc.Ok ids)
    (hout : pc.holdsLock = false) : pc.Ok (ids ++ more) := by
  cases pc with
  | streamAdd r entry =>
    exact (List.getElem?_append_left (List.getElem?_eq_some_iff.mp h).1).trans h
  | push r => exact nomatch hout
  | unlock r entry => exact nomatch hout
  | _ => trivial

end RecordPc

namespace RecordThread

def owed (t : RecordThread) : List RecordCall := t.pc.pending ++ t.calls

def unnamed (t : RecordThread) : List ℕ := t.pc.unnamed ++ t.calls.map RecordCall.streamId

end RecordThread

def CollectorState.ids {ι : Type*} (s : CollectorState ι) : List ℕ :=
  s.collector.perStream.map PerStreamMeasurements.streamId

/-! ### The streams -/

structure StreamsInv {ι : Type*} (calls : ι → List RecordCall) (s : CollectorState ι) : Prop where
  nodup : s.ids.Nodup
  lock : ∀ i, s.perStreamLock = some i ↔ (s.threads i).pc.holdsLock = true
  pcs : ∀ i, (s.threads i).pc.Ok s.ids
  used : ∀ k, (k ∈ s.ids ∨ ∃ i, k ∈ (s.threads i).unnamed) ↔ ∃ i, ∃ r ∈ calls i, r.streamId = k

section Streams

variable {ι : Type*} {calls : ι → List RecordCall} {s s' : CollectorState ι} {i : ι}

theorem streamsInv_start : StreamsInv calls (CollectorState.start calls) where
  nodup := List.nodup_nil
  lock i := by simp [CollectorState.start, RecordPc.holdsLock]
  pcs i := trivial
  used k := by
    simp [CollectorState.start, CollectorState.ids, MeasurementsCollector.new,
      RecordThread.unnamed, RecordPc.unnamed]

variable [DecidableEq ι]

theorem StreamsInv.update (h : StreamsInv calls s) {t : RecordThread} {ids : List ℕ}
    (hthreads : s'.threads = Function.update s.threads i t) (hids : s'.ids = ids)
    (hnodup : ids.Nodup) (hlock : s'.perStreamLock = some i ↔ t.pc.holdsLock = true)
    (hothers : ∀ j, j ≠ i → (s'.perStreamLock = some j ↔ s.perStreamLock = some j))
    (hpc : t.pc.Ok ids) (hpcs : ∀ j, j ≠ i → (s.threads j).pc.Ok ids)
    (hused : ∀ k, (k ∈ ids ∨ k ∈ t.unnamed) ↔ (k ∈ s.ids ∨ k ∈ (s.threads i).unnamed)) :
    StreamsInv calls s' := by
  subst hids
  have hself : s'.threads i = t := by rw [hthreads, Function.update_self]
  have hother : ∀ j, j ≠ i → s'.threads j = s.threads j := fun j hj => by
    rw [hthreads, Function.update_of_ne hj]
  refine ⟨hnodup, fun j => ?_, fun j => ?_, fun k => ?_⟩
  · by_cases hj : j = i
    · rw [hj, hself, hlock]
    · rw [hother j hj, hothers j hj, h.lock]
  · by_cases hj : j = i
    · rw [hj, hself]
      exact hpc
    · rw [hother j hj]
      exact hpcs j hj
  · rw [← h.used]
    constructor
    · rintro (hk | ⟨j, hk⟩)
      · exact ((hused k).mp (.inl hk)).imp_right (fun hk => ⟨i, hk⟩)
      · by_cases hj : j = i
        · rw [hj, hself] at hk
          exact ((hused k).mp (.inr hk)).imp_right (fun hk => ⟨i, hk⟩)
        · exact .inr ⟨j, hother j hj ▸ hk⟩
    · rintro (hk | ⟨j, hk⟩)
      · exact ((hused k).mpr (.inl hk)).imp_right (fun hk => ⟨i, hself.symm ▸ hk⟩)
      · by_cases hj : j = i
        · rw [hj] at hk
          exact ((hused k).mpr (.inr hk)).imp_right (fun hk => ⟨i, hself.symm ▸ hk⟩)
        · exact .inr ⟨j, (hother j hj).symm ▸ hk⟩

omit [DecidableEq ι] in
theorem StreamsInv.not_holdsLock (h : StreamsInv calls s) (hi : (s.threads i).pc.holdsLock = true)
    {j : ι} (hj : j ≠ i) : (s.threads j).pc.holdsLock = false := by
  have hlock := (h.lock i).mpr hi
  have hnot : ¬ (s.threads j).pc.holdsLock = true := by
    rw [← h.lock j, hlock]
    exact fun heq => hj (Option.some.inj heq).symm
  exact Bool.eq_false_iff.mpr hnot

theorem StreamsInv.update_quiet (h : StreamsInv calls s) {t : RecordThread}
    (hthreads : s'.threads = Function.update s.threads i t) (hids : s'.ids = s.ids)
    (hlock : s'.perStreamLock = s.perStreamLock)
    (hholds : t.pc.holdsLock = (s.threads i).pc.holdsLock) (hpc : t.pc.Ok s.ids)
    (hused : ∀ k, (k ∈ s.ids ∨ k ∈ t.unnamed) ↔ (k ∈ s.ids ∨ k ∈ (s.threads i).unnamed)) :
    StreamsInv calls s' := by
  refine h.update hthreads hids h.nodup ?_ (fun j _ => by rw [hlock]) hpc (fun j _ => h.pcs j)
    hused
  rw [hlock, hholds, h.lock]

theorem StreamsInv.move (h : StreamsInv calls s) (hmove : s.Moves i s') : StreamsInv calls s' := by
  have hlock := h.lock i
  have hok := h.pcs i
  cases hmove with
  | @begin r rs hpc hcalls =>
    refine h.update_quiet rfl (congrArg (List.map _) (Counter.addTotal_perStream ..)) rfl ?_
      trivial ?_
    · rw [hpc]
      rfl
    · intro k
      simp [RecordThread.unnamed, RecordPc.unnamed, hpc, hcalls]
  | @lock r hpc hfree =>
    refine h.update rfl (show _ = s.ids from rfl) h.nodup ⟨fun _ => rfl, fun _ => rfl⟩ ?_ trivial
      (fun j _ => h.pcs j) ?_
    · intro j hj
      simp [hfree, hj.symm]
    · intro k
      simp [RecordThread.unnamed, RecordPc.unnamed, hpc]
  | @found r entry hpc hfind =>
    have hentry : s.ids[entry]? = some r.streamId := by
      obtain ⟨hlt, hid, -⟩ := List.findIdx?_eq_some_iff_getElem.mp hfind
      simp only [CollectorState.ids, List.getElem?_map, List.getElem?_eq_getElem hlt]
      exact congrArg some (of_decide_eq_true hid)
    refine h.update_quiet rfl rfl rfl ?_ hentry ?_
    · rw [hpc]
      rfl
    · intro k
      have hmem := List.mem_of_getElem? hentry
      simp only [RecordThread.unnamed, RecordPc.unnamed, hpc, List.nil_append,
        List.singleton_append, List.mem_cons]
      grind
  | @missing r hpc hfind =>
    refine h.update_quiet rfl rfl rfl ?_ ?_ ?_
    · rw [hpc]
      rfl
    · intro hmem
      obtain ⟨stream, hstream, hid⟩ := List.mem_map.mp hmem
      have hne := List.findIdx?_eq_none_iff.mp hfind stream hstream
      simp [hid] at hne
    · intro k
      simp [RecordThread.unnamed, RecordPc.unnamed, hpc]
  | @push r hpc =>
    rw [hpc] at hlock hok
    have hids : (s.collector.perStream ++ [PerStreamMeasurements.new r.streamId]).map
        PerStreamMeasurements.streamId = s.ids ++ [r.streamId] :=
      List.map_append
    refine h.update rfl hids ?_ hlock (fun j _ => Iff.rfl) ?_ ?_ ?_
    · exact List.concat_eq_append ▸ List.Nodup.concat hok h.nodup
    · simp [RecordPc.Ok, CollectorState.ids]
    · intro j hj
      exact (h.pcs j).append (h.not_holdsLock (hpc ▸ rfl) hj)
    · intro k
      simp [RecordThread.unnamed, RecordPc.unnamed, hpc, CollectorState.setPerStream, or_assoc]
  | @unlock r entry hpc =>
    rw [hpc] at hlock hok
    refine h.update rfl (show _ = s.ids from rfl) h.nodup ?_ ?_ hok (fun j _ => h.pcs j) ?_
    · simp [RecordPc.holdsLock]
    · intro j hj
      simp [hlock.mpr rfl, hj.symm]
    · intro k
      simp [RecordThread.unnamed, RecordPc.unnamed, hpc]
  | @streamAdd r entry hpc =>
    rw [hpc] at hok
    refine h.update_quiet rfl (streamId_modify ..) rfl ?_ trivial ?_
    · rw [hpc]
      rfl
    · intro k
      simp [RecordThread.unnamed, RecordPc.unnamed, hpc, CollectorState.setPerStream]

end Streams

/-! ### The sums -/

def allStreams : ℕ → Bool := fun _ => true

section Sums

variable {ι : Type*} [DecidableEq ι] {calls : ι → List RecordCall} {s s' : CollectorState ι} {i : ι}

theorem CollectorState.Moves.total (hmove : s.Moves i s') (c : Counter) :
    ∃ t added, s'.threads = Function.update s.threads i t ∧
      c.ofTotal s'.collector = c.ofTotal s.collector + added ∧
      added + recorded c allStreams t.calls = recorded c allStreams (s.threads i).calls := by
  cases hmove with
  | @begin r rs hpc hcalls =>
    refine ⟨⟨.lock r, rs⟩, r.amountOf c allStreams, rfl, ?_, ?_⟩
    · simp [Counter.ofTotal_addTotal, RecordCall.amountOf, allStreams]
    · rw [hcalls, recorded_cons]
  | push hpc =>
    exact ⟨_, 0, rfl, (Counter.ofTotal_perStream ..).trans (add_zero _).symm, zero_add _⟩
  | streamAdd hpc =>
    exact ⟨_, 0, rfl, (Counter.ofTotal_perStream ..).trans (add_zero _).symm, zero_add _⟩
  | _ => exact ⟨_, 0, rfl, (add_zero _).symm, zero_add _⟩

theorem CollectorState.Moves.stream (hmove : s.Moves i s') (hinv : StreamsInv calls s) (c : Counter)
    (sel : ℕ → Bool) :
    ∃ t added, s'.threads = Function.update s.threads i t ∧
      streamTotal c sel s'.collector.perStream =
        streamTotal c sel s.collector.perStream + added ∧
      added + recorded c sel t.owed = recorded c sel (s.threads i).owed := by
  cases hmove with
  | @begin r rs hpc hcalls =>
    refine ⟨⟨.lock r, rs⟩, 0, rfl, ?_, ?_⟩
    · rw [Counter.addTotal_perStream, add_zero]
    · rw [zero_add]
      simp [RecordThread.owed, RecordPc.pending, hpc, hcalls]
  | @push r hpc =>
    refine ⟨_, 0, rfl, (streamTotal_push ..).trans (add_zero _).symm, ?_⟩
    rw [zero_add]
    simp [RecordThread.owed, RecordPc.pending, hpc, CollectorState.setPerStream]
  | @streamAdd r entry hpc =>
    have hentry := hinv.pcs i
    rw [hpc] at hentry
    refine ⟨_, r.amountOf c sel, rfl, streamTotal_modify hentry, ?_⟩
    simp [RecordThread.owed, RecordPc.pending, hpc, CollectorState.setPerStream, recorded_cons]
  | lock hpc | found hpc | missing hpc | unlock hpc =>
    refine ⟨_, 0, rfl, (add_zero _).symm, ?_⟩
    rw [zero_add]
    simp [RecordThread.owed, RecordPc.pending, hpc]

end Sums

open SharedCounter

def RecordThread.owedTotal (c : Counter) (t : RecordThread) : UInt64 :=
  recorded c allStreams t.calls

def RecordThread.owedStreams (c : Counter) (sel : ℕ → Bool) (t : RecordThread) : UInt64 :=
  recorded c sel t.owed

structure CollectorInv {ι : Type*} [Fintype ι] (calls : ι → List RecordCall)
    (s : CollectorState ι) : Prop where
  streams : StreamsInv calls s
  total : ∀ c : Counter, Balanced (c.ofTotal s.collector)
    (fun i => (s.threads i).owedTotal c) (∑ i, recorded c allStreams (calls i))
  perStream : ∀ c sel, Balanced (streamTotal c sel s.collector.perStream)
    (fun i => (s.threads i).owedStreams c sel) (∑ i, recorded c sel (calls i))

section Runs

variable {ι : Type*} [Fintype ι] {calls : ι → List RecordCall} {s s' : CollectorState ι} {i : ι}

theorem collectorInv_start : CollectorInv calls (CollectorState.start calls) := by
  refine ⟨streamsInv_start, fun c => ?_, fun c sel => zero_add _⟩
  cases c <;> exact zero_add _

theorem CollectorInv.step [DecidableEq ι] (h : CollectorInv calls s) (hstep : s.step i = some s') :
    CollectorInv calls s' := by
  have hmove := moves_of_step hstep
  refine ⟨h.streams.move hmove, fun c => ?_, fun c sel => ?_⟩
  · obtain ⟨t, added, hthreads, htotal, howed⟩ := hmove.total c
    rw [hthreads, htotal]
    exact (h.total c).move howed
  · obtain ⟨t, added, hthreads, htotal, howed⟩ := hmove.stream h.streams c sel
    rw [hthreads, htotal]
    exact (h.perStream c sel).move howed

theorem collectorInv_reachable [DecidableEq ι]
    (h : Lts.Reachable CollectorState.step (CollectorState.start calls) s) :
    CollectorInv calls s :=
  h.invariant collectorInv_start (fun _ _ _ hinv _ hstep => hinv.step hstep)

end Runs

/-! ### A thread that runs alone -/

def RecordCall.toCall : RecordCall → CollectorCall
  | .recordBytesSent k bytes => .recordBytesSent k bytes
  | .recordBytesReceived k bytes => .recordBytesReceived k bytes
  | .recordUdpPacket k => .recordUdpPacket k

theorem modify_findIdx {k entry : ℕ} {ss : List PerStreamMeasurements}
    (h : ss.findIdx? (fun s => s.streamId = k) = some entry)
    (f : PerStreamMeasurements → PerStreamMeasurements) :
    ss.modify entry f = modifyStream k f ss := by
  induction ss generalizing entry with
  | nil => exact nomatch h
  | cons s ss ih =>
    unfold modifyStream
    rw [List.findIdx?_cons] at h
    by_cases hk : s.streamId = k
    · simp only [hk, decide_true, if_true] at h
      obtain rfl := Option.some.inj h
      rw [if_pos hk, List.modify_zero_cons]
    · simp only [hk, decide_false, Bool.false_eq_true, if_false] at h
      obtain ⟨rest, hrest, rfl⟩ := Option.map_eq_some_iff.mp h
      rw [if_neg hk, List.modify_succ_cons, ih hrest]

theorem modify_push {k : ℕ} {ss : List PerStreamMeasurements}
    (h : ss.findIdx? (fun s => s.streamId = k) = none)
    (f : PerStreamMeasurements → PerStreamMeasurements) :
    (ss ++ [PerStreamMeasurements.new k]).modify ss.length f =
      modifyStream k f (ss ++ [PerStreamMeasurements.new k]) := by
  refine modify_findIdx ?_ f
  rw [List.findIdx?_append, h]
  simp [PerStreamMeasurements.new]

theorem call_toCall (c : MeasurementsCollector) (r : RecordCall) :
    c.call r.toCall =
      { (r.counter.addTotal r.amount c).getOrCreateStream r.streamId with
        perStream := modifyStream r.streamId (r.counter.addStream r.amount)
          ((r.counter.addTotal r.amount c).getOrCreateStream r.streamId).perStream } := by
  cases r <;> rfl

theorem getOrCreateStream_found {c : MeasurementsCollector} {k entry : ℕ}
    (h : c.perStream.findIdx? (fun s => s.streamId = k) = some entry) :
    c.getOrCreateStream k = c := by
  unfold MeasurementsCollector.getOrCreateStream
  split
  · rfl
  · next hnone =>
    rw [List.find?_eq_none] at hnone
    obtain ⟨hlt, hid, -⟩ := List.findIdx?_eq_some_iff_getElem.mp h
    exact absurd hid (hnone _ (List.getElem_mem hlt))

theorem getOrCreateStream_missing {c : MeasurementsCollector} {k : ℕ}
    (h : c.perStream.findIdx? (fun s => s.streamId = k) = none) :
    c.getOrCreateStream k =
      { c with perStream := c.perStream ++ [PerStreamMeasurements.new k] } := by
  unfold MeasurementsCollector.getOrCreateStream
  split
  · next hsome =>
    have hout := List.findIdx?_eq_none_iff.mp h _ (List.mem_of_find?_eq_some hsome)
    exact absurd (List.find?_some hsome) (Bool.eq_false_iff.mp hout)
  · rfl

section Alone

variable {ι : Type*} [DecidableEq ι] {s : CollectorState ι} {i : ι} {r : RecordCall}
  {rs : List RecordCall}

def CollectorState.inCall (s : CollectorState ι) (i : ι) (rs : List RecordCall)
    (c : MeasurementsCollector) (lock : Option ι) (pc : RecordPc) : CollectorState ι :=
  ⟨c, lock, Function.update s.threads i ⟨pc, rs⟩⟩

/-- A thread that nobody interrupts does to the collector what the call does as a whole. -/
theorem alone_call (hfree : s.perStreamLock = none) (hi : s.threads i = ⟨.idle, r :: rs⟩) :
    Lts.Reachable CollectorState.step s
      (s.inCall i rs (s.collector.call r.toCall) none .idle) := by
  let c := r.counter.addTotal r.amount s.collector
  have hbegin : s.step i = some (s.inCall i rs c none (.lock r)) := by
    simp [CollectorState.step, CollectorState.inCall, hi, hfree, c]
  have hlock : (s.inCall i rs c none (.lock r)).step i =
      some (s.inCall i rs c (some i) (.find r)) := by
    simp [CollectorState.step, CollectorState.inCall, CollectorState.goto]
  -- from the entry on, the steps are the same for an old and a new stream
  have hrest : ∀ ss entry, Lts.Reachable CollectorState.step
      (s.inCall i rs { c with perStream := ss } (some i) (.unlock r entry))
      (s.inCall i rs { c with
        perStream := ss.modify entry (r.counter.addStream r.amount) } none .idle) := by
    intro ss entry
    have hunlock : (s.inCall i rs { c with perStream := ss } (some i) (.unlock r entry)).step i =
        some (s.inCall i rs { c with perStream := ss } none (.streamAdd r entry)) := by
      simp [CollectorState.step, CollectorState.inCall, CollectorState.goto]
    have hadd : (s.inCall i rs { c with perStream := ss } none (.streamAdd r entry)).step i =
        some (s.inCall i rs { c with
          perStream := ss.modify entry (r.counter.addStream r.amount) } none .idle) := by
      simp [CollectorState.step, CollectorState.inCall, CollectorState.goto,
        CollectorState.setPerStream]
    exact (Lts.Reach.start.snoc hunlock).snoc hadd
  have hinside := (Lts.Reach.start.snoc hbegin).snoc hlock
  rw [call_toCall]
  cases hfind : c.perStream.findIdx? (fun stream => stream.streamId = r.streamId) with
  | some entry =>
    have hfound : (s.inCall i rs c (some i) (.find r)).step i =
        some (s.inCall i rs c (some i) (.unlock r entry)) := by
      simp [CollectorState.step, CollectorState.inCall, CollectorState.goto, hfind]
    rw [getOrCreateStream_found hfind, ← modify_findIdx hfind]
    exact (hinside.snoc hfound).trans (hrest c.perStream entry)
  | none =>
    have hmissing : (s.inCall i rs c (some i) (.find r)).step i =
        some (s.inCall i rs c (some i) (.push r)) := by
      simp [CollectorState.step, CollectorState.inCall, CollectorState.goto, hfind]
    have hpush : (s.inCall i rs c (some i) (.push r)).step i =
        some (s.inCall i rs { c with
          perStream := c.perStream ++ [PerStreamMeasurements.new r.streamId] } (some i)
          (.unlock r c.perStream.length)) := by
      simp [CollectorState.step, CollectorState.inCall, CollectorState.goto,
        CollectorState.setPerStream]
    rw [getOrCreateStream_missing hfind, ← modify_push hfind]
    exact ((hinside.snoc hmissing).snoc hpush).trans (hrest _ _)

end Alone
/-! ### What `get` shows when all calls have returned -/

theorem get_streams (c : MeasurementsCollector) :
    c.get.streams = c.perStream.map (fun s => s.toStreamStats c.inner.totalDuration) := by
  unfold MeasurementsCollector.get
  dsimp only
  split <;> rfl

theorem streamTotal_eq_zero {c : Counter} {k : ℕ} {ss : List PerStreamMeasurements}
    (h : k ∉ ss.map PerStreamMeasurements.streamId) : streamTotal c (fun j => j = k) ss = 0 := by
  induction ss with
  | nil => rfl
  | cons s ss ih =>
    rw [List.map_cons, List.mem_cons, not_or] at h
    rw [streamTotal_cons, ih h.2]
    simp [Ne.symm h.1]

theorem streamTotal_of_mem {c : Counter} {s : PerStreamMeasurements}
    {ss : List PerStreamMeasurements} (hnodup : (ss.map PerStreamMeasurements.streamId).Nodup)
    (h : s ∈ ss) : streamTotal c (fun j => j = s.streamId) ss = c.ofStream s := by
  induction ss with
  | nil => exact absurd h List.not_mem_nil
  | cons x ss ih =>
    obtain ⟨hx, hss⟩ := List.nodup_cons.mp hnodup
    rcases List.mem_cons.mp h with rfl | hmem
    · rw [streamTotal_cons, streamTotal_eq_zero hx]
      simp
    · have hne : x.streamId ≠ s.streamId := fun heq =>
        hx (heq ▸ List.mem_map_of_mem hmem)
      rw [streamTotal_cons, ih hss hmem]
      simp [hne]

theorem streamTotal_allStreams (c : Counter) (ss : List PerStreamMeasurements) :
    streamTotal c allStreams ss = (ss.map c.ofStream).sum := by
  simp [streamTotal, allStreams]

/-- No update is lost or misfiled: once all calls have returned, `get` lists each stream used once,
with what was recorded on it, and the totals are the sums over the streams. -/
theorem concurrent_records {ι : Type} [Fintype ι] [DecidableEq ι] (calls : ι → List RecordCall)
    (s : CollectorState ι)
    (h : Lts.Reachable CollectorState.step (CollectorState.start calls) s)
    (hreturned : ∀ i, s.threads i = ⟨.idle, []⟩) :
    (s.collector.get.streams.map StreamStats.streamId).Nodup ∧
      (∀ k, k ∈ s.collector.get.streams.map StreamStats.streamId ↔
        ∃ i, ∃ r ∈ calls i, r.streamId = k) ∧
      (∀ stream ∈ s.collector.get.streams,
        stream.bytesSent = ∑ i, recorded .bytesSent (fun k => k = stream.streamId) (calls i) ∧
        stream.bytesReceived =
          ∑ i, recorded .bytesReceived (fun k => k = stream.streamId) (calls i)) ∧
      s.collector.get.totalBytesSent = (s.collector.get.streams.map StreamStats.bytesSent).sum ∧
      s.collector.get.totalBytesReceived =
        (s.collector.get.streams.map StreamStats.bytesReceived).sum := by
  obtain ⟨hstreams, htotal, hperStream⟩ := collectorInv_reachable h
  have hids : s.collector.get.streams.map StreamStats.streamId = s.ids := by
    rw [get_streams, List.map_map]
    rfl
  have hsum : ∀ c sel, streamTotal c sel s.collector.perStream = ∑ i, recorded c sel (calls i) :=
    fun c sel => (hperStream c sel).settled (fun i => by
      rw [hreturned i]
      rfl)
  have hall : ∀ c : Counter, c.ofTotal s.collector = (s.collector.perStream.map c.ofStream).sum := by
    intro c
    rw [← streamTotal_allStreams, hsum]
    refine (htotal c).settled (fun i => ?_)
    rw [hreturned i]
    rfl
  refine ⟨?_, fun k => ?_, fun stream hstream => ?_, ?_, ?_⟩
  · rw [hids]
    exact hstreams.nodup
  · rw [hids, ← hstreams.used, or_iff_left]
    rintro ⟨i, hi⟩
    rw [hreturned i] at hi
    exact absurd hi List.not_mem_nil
  · rw [get_streams] at hstream
    obtain ⟨entry, hentry, rfl⟩ := List.mem_map.mp hstream
    have hvalue := fun c => (streamTotal_of_mem (c := c) hstreams.nodup hentry).symm.trans (hsum c _)
    exact ⟨hvalue .bytesSent, hvalue .bytesReceived⟩
  · rw [(get_totals _).1, get_streams, List.map_map]
    exact hall .bytesSent
  · rw [(get_totals _).2, get_streams, List.map_map]
    exact hall .bytesReceived

/-- Two threads that use one stream together; the second also counts a packet on another. -/
def twoRecorders : Fin 2 → List RecordCall
  | 0 => [.recordBytesSent 3 100, .recordBytesReceived 3 7]
  | 1 => [.recordBytesSent 3 50, .recordUdpPacket 5]

/-- Both add to the total before either has an entry. -/
def twoRecordersSteps : List (Fin 2) :=
  [0, 1, 0, 0, 0, 0, 1, 1, 0, 0, 1, 1, 0, 1, 0, 0, 1, 0, 1, 1, 1, 1]

def twoRecordersEnd : CollectorState (Fin 2) :=
  (Lts.run CollectorState.step (fun _ _ => True) (CollectorState.start twoRecorders)
    twoRecordersSteps).getD (CollectorState.start twoRecorders)

theorem twoRecorders_run :
    Lts.run CollectorState.step (fun _ _ => True) (CollectorState.start twoRecorders)
      twoRecordersSteps = some twoRecordersEnd :=
  rfl

theorem concurrent_records_twoRecorders :
    (twoRecordersEnd.collector.get.streams.map StreamStats.streamId).Nodup ∧
      (∀ k, k ∈ twoRecordersEnd.collector.get.streams.map StreamStats.streamId ↔
        ∃ i, ∃ r ∈ twoRecorders i, r.streamId = k) ∧
      (∀ stream ∈ twoRecordersEnd.collector.get.streams,
        stream.bytesSent =
          ∑ i, recorded .bytesSent (fun k => k = stream.streamId) (twoRecorders i) ∧
        stream.bytesReceived =
          ∑ i, recorded .bytesReceived (fun k => k = stream.streamId) (twoRecorders i)) ∧
      twoRecordersEnd.collector.get.totalBytesSent =
        (twoRecordersEnd.collector.get.streams.map StreamStats.bytesSent).sum ∧
      twoRecordersEnd.collector.get.totalBytesReceived =
        (twoRecordersEnd.collector.get.streams.map StreamStats.bytesReceived).sum :=
  concurrent_records twoRecorders twoRecordersEnd
    (Lts.Reach.start.run twoRecorders_run) (by decide)

example : twoRecordersEnd.collector.get.streams.map StreamStats.streamId = [3, 5] := by decide

end Rperf3
