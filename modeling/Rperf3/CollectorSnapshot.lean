import Rperf3.CollectorThreads

/-!
# A snapshot while others record (`measurements.rs:1224-1251`)

`get` copies the locked record, then loads the three totals one after the other,
walks the streams under the lock of `per_stream` with two loads for each of them,
and looks at the sequence state at the end. Recording threads go on between any
two of these. As long as no counter wraps, every figure of the snapshot lies
between what it was when the call began and what it is when the call returns.
-/

namespace Rperf3

/-! ### The reader -/

inductive ReaderPc where
  | cloneInner
  | loadSent
  | loadReceived
  | loadPackets
  | lockStreams
  | entry (k : ℕ)
  | entryReceived (k : ℕ) (bytesSent : UInt64)
  | unlockStreams
  | udpLoss
  | done
  deriving DecidableEq

structure SnapshotReader where
  pc : ReaderPc
  m : Measurements

/-- Recording threads and one call of `get`, which is no thread of `base` but holds the lock there
under the name `none`. -/
structure SnapshotState (ι : Type*) where
  base : CollectorState (Option ι)
  reader : SnapshotReader

namespace SnapshotState

variable {ι : Type*} [DecidableEq ι]

def goto (s : SnapshotState ι) (pc : ReaderPc) (m : Measurements) : SnapshotState ι :=
  { s with reader := ⟨pc, m⟩ }

def stepReader (s : SnapshotState ι) : Option (SnapshotState ι) :=
  let c := s.base.collector
  let m := s.reader.m
  match s.reader.pc with
  | .cloneInner => some (s.goto .loadSent c.inner)
  | .loadSent => some (s.goto .loadReceived { m with totalBytesSent := c.atomicBytesSent })
  | .loadReceived =>
    some (s.goto .loadPackets { m with totalBytesReceived := c.atomicBytesReceived })
  | .loadPackets => some (s.goto .lockStreams { m with totalPackets := c.atomicPackets })
  | .lockStreams =>
    match s.base.perStreamLock with
    | some _ => none
    | none =>
      some
        { base := { s.base with perStreamLock := some none }
          reader := ⟨.entry 0, { m with streams := [] }⟩ }
  | .entry k =>
    match c.perStream[k]? with
    | some stream => some (s.goto (.entryReceived k stream.bytesSent) m)
    | none => some (s.goto .unlockStreams m)
  | .entryReceived k bytesSent =>
    match c.perStream[k]? with
    | some stream =>
      let stats : StreamStats :=
        ⟨stream.streamId, bytesSent, stream.bytesReceived, m.totalDuration, none⟩
      some (s.goto (.entry (k + 1)) { m with streams := m.streams ++ [stats] })
    | none => none
  | .unlockStreams =>
    some
      { base := { s.base with perStreamLock := none }
        reader := ⟨.udpLoss, m⟩ }
  | .udpLoss =>
    if m.totalBytesReceived > 0 then
      some (s.goto .done { m with
        lostPackets := c.calculateUdpLoss.1
        totalPackets := c.calculateUdpLoss.2 })
    else some (s.goto .done m)
  | .done => none

/-- A step of a recording thread, or the next one of the call of `get`. -/
def step (s : SnapshotState ι) : Option ι → Option (SnapshotState ι)
  | some i => (s.base.step (some i)).map fun base => { s with base := base }
  | none => s.stepReader

end SnapshotState

/-- The next step of a thread does not wrap the counter it adds to. -/
def NoWrapAt (c : MeasurementsCollector) (calls : List RecordCall) : RecordPc → Prop
  | .idle => ∀ r ∈ calls.head?, (r.counter.ofTotal c).toNat + r.amount.toNat < 2 ^ 64
  | .streamAdd r entry => ∀ stream ∈ c.perStream[entry]?,
      (r.counter.ofStream stream).toNat + r.amount.toNat < 2 ^ 64
  | _ => True

instance (c : MeasurementsCollector) (calls : List RecordCall) :
    DecidablePred (NoWrapAt c calls) := fun pc =>
  match pc with
  | .idle => inferInstanceAs (Decidable (∀ r ∈ calls.head?, _ < _))
  | .streamAdd _ entry => inferInstanceAs (Decidable (∀ stream ∈ c.perStream[entry]?, _ < _))
  | .lock _ | .find _ | .push _ | .unlock _ _ => .isTrue trivial

def CollectorState.NoWrap {ι : Type*} (s : CollectorState ι) (i : ι) : Prop :=
  NoWrapAt s.collector (s.threads i).calls (s.threads i).pc

def SnapshotState.NoWrap {ι : Type*} (s : SnapshotState ι) : Option ι → Prop
  | some i => s.base.NoWrap (some i)
  | none => True

instance {ι : Type*} (s : SnapshotState ι) : DecidablePred s.NoWrap := fun a =>
  match a with
  | none => .isTrue trivial
  | some i => inferInstanceAs (Decidable (NoWrapAt _ _ (s.base.threads (some i)).pc))

/-! ### What recording does to the counters -/

/-- Counters only grow, streams are only added, and the locked parts stay. -/
structure RecordsOn (c c' : MeasurementsCollector) : Prop where
  inner : c'.inner = c.inner
  udpState : c'.udpState = c.udpState
  total : ∀ k : Counter, k.ofTotal c ≤ k.ofTotal c'
  entries : ∀ (j : ℕ) (stream : PerStreamMeasurements), c.perStream[j]? = some stream →
    ∃ stream', c'.perStream[j]? = some stream' ∧ stream'.streamId = stream.streamId ∧
      ∀ k : Counter, k.ofStream stream ≤ k.ofStream stream'

namespace RecordsOn

variable {c c' c'' : MeasurementsCollector}

theorem refl (c : MeasurementsCollector) : RecordsOn c c where
  inner := rfl
  udpState := rfl
  total _ := UInt64.le_refl _
  entries _ stream h := ⟨stream, h, rfl, fun _ => UInt64.le_refl _⟩

theorem trans (h : RecordsOn c c') (h' : RecordsOn c' c'') : RecordsOn c c'' where
  inner := h'.inner.trans h.inner
  udpState := h'.udpState.trans h.udpState
  total k := UInt64.le_trans (h.total k) (h'.total k)
  entries j stream hj := by
    obtain ⟨stream', hj', hid, hle⟩ := h.entries j stream hj
    obtain ⟨stream'', hj'', hid', hle'⟩ := h'.entries j stream' hj'
    exact ⟨stream'', hj'', hid'.trans hid, fun k => UInt64.le_trans (hle k) (hle' k)⟩

end RecordsOn

theorem le_add_of_noWrap {a b : UInt64} (h : a.toNat + b.toNat < 2 ^ 64) : a ≤ a + b := by
  rw [UInt64.le_iff_toNat_le, UInt64.toNat_add, Nat.mod_eq_of_lt h]
  omega

section Recording

variable {ι : Type*} [DecidableEq ι] {s s' : CollectorState ι} {i : ι}

theorem grows_addTotal {k : Counter} {amount : UInt64} {c : MeasurementsCollector}
    (h : (k.ofTotal c).toNat + amount.toNat < 2 ^ 64) : RecordsOn c (k.addTotal amount c) where
  inner := by cases k <;> rfl
  udpState := by cases k <;> rfl
  total k' := by
    rw [Counter.ofTotal_addTotal]
    by_cases hk : k = k'
    · subst hk
      rw [if_pos rfl]
      exact le_add_of_noWrap h
    · rw [if_neg hk, UInt64.add_zero]
      exact UInt64.le_refl _
  entries j stream hj := by
    refine ⟨stream, ?_, rfl, fun _ => UInt64.le_refl _⟩
    rw [Counter.addTotal_perStream]
    exact hj

theorem grows_perStream {c : MeasurementsCollector} {ss : List PerStreamMeasurements}
    (h : ∀ (j : ℕ) (stream : PerStreamMeasurements), c.perStream[j]? = some stream →
      ∃ stream', ss[j]? = some stream' ∧
      stream'.streamId = stream.streamId ∧ ∀ k : Counter, k.ofStream stream ≤ k.ofStream stream') :
    RecordsOn c { c with perStream := ss } where
  inner := rfl
  udpState := rfl
  total k := by
    rw [Counter.ofTotal_perStream k c ss]
    exact UInt64.le_refl _
  entries := h

theorem grows_step (hwrap : s.NoWrap i) (h : s.step i = some s') :
    RecordsOn s.collector s'.collector := by
  cases moves_of_step h with
  | begin hpc hcalls =>
    simp only [CollectorState.NoWrap, NoWrapAt, hpc, hcalls, List.head?_cons, Option.mem_some_iff,
      forall_eq'] at hwrap
    exact grows_addTotal hwrap
  | lock hpc hfree => exact RecordsOn.refl _
  | found hpc hfind => exact RecordsOn.refl _
  | missing hpc hfind => exact RecordsOn.refl _
  | push hpc =>
    refine grows_perStream fun j stream hj => ⟨stream, ?_, rfl, fun _ => UInt64.le_refl _⟩
    rw [List.getElem?_append_left (List.getElem?_eq_some_iff.mp hj).1]
    exact hj
  | unlock hpc => exact RecordsOn.refl _
  | streamAdd hpc =>
    rename_i r entry
    simp only [CollectorState.NoWrap, NoWrapAt, hpc] at hwrap
    refine grows_perStream fun j stream hj => ?_
    rw [List.getElem?_modify, hj]
    by_cases hentry : entry = j
    · subst hentry
      refine ⟨r.counter.addStream r.amount stream, by simp, Counter.addStream_streamId .., ?_⟩
      intro k
      rw [Counter.ofStream_addStream]
      by_cases hk : r.counter = k
      · subst hk
        rw [if_pos rfl]
        exact le_add_of_noWrap (hwrap stream hj)
      · rw [if_neg hk, UInt64.add_zero]
        exact UInt64.le_refl _
    · exact ⟨stream, by simp [hentry], rfl, fun _ => UInt64.le_refl _⟩

end Recording

/-! ### What the call knows -/

/-- A row of the snapshot lies between two readings of its stream. -/
structure RowBetween (low : Option PerStreamMeasurements) (row : StreamStats)
    (high : PerStreamMeasurements) (duration : Duration) : Prop where
  streamId : row.streamId = high.streamId
  duration : row.duration = duration
  retransmits : row.retransmits = none
  sent : row.bytesSent ≤ high.bytesSent
  received : row.bytesReceived ≤ high.bytesReceived
  low : ∀ stream ∈ low, stream.bytesSent ≤ row.bytesSent ∧
    stream.bytesReceived ≤ row.bytesReceived

def RowsBetween (c₀ c : MeasurementsCollector) (rows : List StreamStats) : Prop :=
  ∀ (j : ℕ) (row : StreamStats), rows[j]? = some row → ∃ stream, c.perStream[j]? = some stream ∧
    RowBetween c₀.perStream[j]? row stream c₀.inner.totalDuration

def Between (k : Counter) (c₀ c : MeasurementsCollector) (x : UInt64) : Prop :=
  k.ofTotal c₀ ≤ x ∧ x ≤ k.ofTotal c

/-- The parts of the record that `get` does not replace. -/
def SameRecord (m m' : Measurements) : Prop :=
  m.intervals = m'.intervals ∧ m.totalDuration = m'.totalDuration ∧
    m.outOfOrderPackets = m'.outOfOrderPackets ∧ m.jitterMs = m'.jitterMs ∧
    m.startTime = m'.startTime

structure Totals (c₀ c : MeasurementsCollector) (m : Measurements) : Prop where
  record : SameRecord m c₀.inner
  sent : Between .bytesSent c₀ c m.totalBytesSent
  received : Between .bytesReceived c₀ c m.totalBytesReceived

/-- The loss is computed when bytes were received; else the packets are those counted. -/
def LossRead (c₀ c : MeasurementsCollector) (m : Measurements) : Prop :=
  if m.totalBytesReceived > 0 then (m.lostPackets, m.totalPackets) = c₀.calculateUdpLoss
  else m.lostPackets = c₀.inner.lostPackets ∧ Between .packets c₀ c m.totalPackets

structure Loaded (c₀ c : MeasurementsCollector) (m : Measurements) : Prop extends
    Totals c₀ c m where
  lost : m.lostPackets = c₀.inner.lostPackets
  packets : Between .packets c₀ c m.totalPackets

/-- What a call that began with `c₀` knows when the collector is `c`. -/
def Knows (c₀ c : MeasurementsCollector) (m : Measurements) : ReaderPc → Prop
  | .cloneInner => True
  | .loadSent => m = c₀.inner
  | .loadReceived => SameRecord m c₀.inner ∧ m.lostPackets = c₀.inner.lostPackets ∧
      Between .bytesSent c₀ c m.totalBytesSent
  | .loadPackets => Totals c₀ c m ∧ m.lostPackets = c₀.inner.lostPackets
  | .lockStreams => Loaded c₀ c m
  | .entry k => Loaded c₀ c m ∧ RowsBetween c₀ c m.streams ∧ m.streams.length = k
  | .entryReceived k bytesSent => Loaded c₀ c m ∧ RowsBetween c₀ c m.streams ∧
      m.streams.length = k ∧ ∃ stream, c.perStream[k]? = some stream ∧
        bytesSent ≤ stream.bytesSent ∧ ∀ stream₀ ∈ c₀.perStream[k]?, stream₀.bytesSent ≤ bytesSent
  | .unlockStreams | .udpLoss => Loaded c₀ c m ∧ RowsBetween c₀ c m.streams ∧
      c₀.perStream.length ≤ m.streams.length
  | .done => Totals c₀ c m ∧ RowsBetween c₀ c m.streams ∧
      c₀.perStream.length ≤ m.streams.length ∧ LossRead c₀ c m

section Snapshot

variable {ι : Type*} {c₀ c c' : MeasurementsCollector} {m : Measurements}
  {s s' : SnapshotState ι}

theorem Between.grow {k : Counter} {x : UInt64} (h : Between k c₀ c x) (hgrows : RecordsOn c c') :
    Between k c₀ c' x :=
  h.imp_right (UInt64.le_trans · (hgrows.total k))

theorem Totals.grow (h : Totals c₀ c m) (hgrows : RecordsOn c c') : Totals c₀ c' m :=
  ⟨h.record, h.sent.grow hgrows, h.received.grow hgrows⟩

theorem Loaded.grow (h : Loaded c₀ c m) (hgrows : RecordsOn c c') : Loaded c₀ c' m :=
  ⟨h.toTotals.grow hgrows, h.lost, h.packets.grow hgrows⟩

theorem RowsBetween.grow {rows : List StreamStats} (h : RowsBetween c₀ c rows)
    (hgrows : RecordsOn c c') : RowsBetween c₀ c' rows := by
  intro j row hrow
  obtain ⟨stream, hstream, hrow⟩ := h j row hrow
  obtain ⟨stream', hstream', hid, hle⟩ := hgrows.entries j stream hstream
  exact ⟨stream', hstream', hrow.streamId.trans hid.symm, hrow.duration, hrow.retransmits,
    UInt64.le_trans hrow.sent (hle .bytesSent),
    UInt64.le_trans hrow.received (hle .bytesReceived), hrow.low⟩

theorem LossRead.grow (h : LossRead c₀ c m) (hgrows : RecordsOn c c') : LossRead c₀ c' m := by
  unfold LossRead at h ⊢
  split at h
  · next hpos => rwa [if_pos hpos]
  · next hzero =>
    rw [if_neg hzero]
    exact ⟨h.1, h.2.grow hgrows⟩

/-- What the call knows stays true while others record. -/
theorem Knows.grow {pc : ReaderPc} (h : Knows c₀ c m pc) (hgrows : RecordsOn c c') :
    Knows c₀ c' m pc := by
  cases pc with
  | cloneInner => trivial
  | loadSent => exact h
  | loadReceived => exact ⟨h.1, h.2.1, h.2.2.grow hgrows⟩
  | loadPackets => exact ⟨h.1.grow hgrows, h.2⟩
  | lockStreams => exact Loaded.grow h hgrows
  | entry k => exact ⟨h.1.grow hgrows, h.2.1.grow hgrows, h.2.2⟩
  | entryReceived k bytesSent =>
    obtain ⟨hloaded, hrows, hk, stream, hstream, hle, hlow⟩ := h
    obtain ⟨stream', hstream', -, hle'⟩ := hgrows.entries k stream hstream
    exact ⟨hloaded.grow hgrows, hrows.grow hgrows, hk, stream', hstream',
      UInt64.le_trans hle (hle' .bytesSent), hlow⟩
  | unlockStreams => exact ⟨h.1.grow hgrows, h.2.1.grow hgrows, h.2.2⟩
  | udpLoss => exact ⟨h.1.grow hgrows, h.2.1.grow hgrows, h.2.2⟩
  | done => exact ⟨h.1.grow hgrows, h.2.1.grow hgrows, h.2.2.1, h.2.2.2.grow hgrows⟩

theorem RowsBetween.push {rows : List StreamStats} {row : StreamStats}
    {stream : PerStreamMeasurements} (h : RowsBetween c₀ c rows)
    (hstream : c.perStream[rows.length]? = some stream)
    (hrow : RowBetween c₀.perStream[rows.length]? row stream c₀.inner.totalDuration) :
    RowsBetween c₀ c (rows ++ [row]) := by
  intro j row' hj
  by_cases hlt : j < rows.length
  · rw [List.getElem?_append_left hlt] at hj
    exact h j row' hj
  · have hend : j = rows.length := by
      have hle := (List.getElem?_eq_some_iff.mp hj).1
      rw [List.length_append, List.length_singleton] at hle
      omega
    subst hend
    rw [List.getElem?_concat_length] at hj
    obtain rfl := Option.some.inj hj
    exact ⟨stream, hstream, hrow⟩

theorem RecordsOn.low {stream : PerStreamMeasurements} {k : ℕ} (h : RecordsOn c₀ c)
    (hk : c.perStream[k]? = some stream) (counter : Counter) :
    ∀ stream₀ ∈ c₀.perStream[k]?, counter.ofStream stream₀ ≤ counter.ofStream stream := by
  intro stream₀ hstream₀
  obtain ⟨stream', hstream', -, hle⟩ := h.entries k stream₀ hstream₀
  obtain rfl := Option.some.inj (hstream'.symm.trans hk)
  exact hle counter

theorem RecordsOn.length_le (h : RecordsOn c₀ c) {k : ℕ} (hk : c.perStream[k]? = none) :
    c₀.perStream.length ≤ k := by
  by_contra hlt
  obtain ⟨stream', hstream', -⟩ :=
    h.entries k _ (List.getElem?_eq_getElem (not_le.mp hlt))
  rw [hk] at hstream'
  cases hstream'

theorem RecordsOn.udpLoss (h : RecordsOn c₀ c) : c.calculateUdpLoss = c₀.calculateUdpLoss := by
  unfold MeasurementsCollector.calculateUdpLoss
  rw [h.udpState]

theorem RecordsOn.between (h : RecordsOn c₀ c) (k : Counter) : Between k c₀ c (k.ofTotal c) :=
  ⟨h.total k, UInt64.le_refl _⟩

theorem knows_stepReader (hgrows : RecordsOn c₀ s.base.collector)
    (h : Knows c₀ s.base.collector s.reader.m s.reader.pc) (hs : s.stepReader = some s') :
    s'.base.collector = s.base.collector ∧
      Knows c₀ s.base.collector s'.reader.m s'.reader.pc := by
  rcases s with ⟨base, ⟨pc, m⟩⟩
  cases pc with
  | cloneInner =>
    cases hs
    exact ⟨rfl, hgrows.inner⟩
  | loadSent =>
    cases hs
    obtain rfl : m = c₀.inner := h
    exact ⟨rfl, ⟨rfl, rfl, rfl, rfl, rfl⟩, rfl, hgrows.between .bytesSent⟩
  | loadReceived =>
    cases hs
    obtain ⟨hrecord, hlost, hsent⟩ := h
    exact ⟨rfl, ⟨hrecord, hsent,
      hgrows.between .bytesReceived⟩, hlost⟩
  | loadPackets =>
    cases hs
    obtain ⟨htotals, hlost⟩ := h
    exact ⟨rfl, ⟨htotals.record, htotals.sent,
      htotals.received⟩, hlost, hgrows.between .packets⟩
  | lockStreams =>
    simp only [SnapshotState.stepReader] at hs
    split at hs
    · cases hs
    · cases hs
      have hloaded : Loaded c₀ base.collector m := h
      refine ⟨rfl, ⟨⟨hloaded.record, hloaded.sent,
        hloaded.received⟩, hloaded.lost, hloaded.packets⟩, ?_, rfl⟩
      exact fun j row hrow => absurd hrow (by simp)
  | entry k =>
    obtain ⟨hloaded, hrows, hk⟩ := h
    simp only [SnapshotState.stepReader] at hs
    split at hs
    · next stream hstream =>
      cases hs
      exact ⟨rfl, hloaded, hrows, hk, stream, hstream, UInt64.le_refl _,
        hgrows.low hstream .bytesSent⟩
    · next hnone =>
      cases hs
      exact ⟨rfl, hloaded, hrows, (hgrows.length_le hnone).trans_eq hk.symm⟩
  | entryReceived k bytesSent =>
    obtain ⟨hloaded, hrows, hk, stream', hstream', hle, hlow⟩ := h
    obtain rfl : m.streams.length = k := hk
    simp only [SnapshotState.stepReader] at hs
    split at hs
    · next stream hstream =>
      cases hs
      obtain rfl := Option.some.inj (hstream.symm.trans hstream')
      have hduration : m.totalDuration = c₀.inner.totalDuration := hloaded.record.2.1
      have hreceived := hgrows.low hstream .bytesReceived
      refine ⟨rfl, ⟨⟨hloaded.record, hloaded.sent,
        hloaded.received⟩, hloaded.lost, hloaded.packets⟩, ?_, List.length_append⟩
      refine hrows.push hstream ⟨rfl, hduration, rfl, hle, UInt64.le_refl _, ?_⟩
      exact fun stream₀ h₀ => ⟨hlow stream₀ h₀, hreceived stream₀ h₀⟩
    · cases hs
  | unlockStreams =>
    cases hs
    exact ⟨rfl, h⟩
  | udpLoss =>
    obtain ⟨hloaded, hrows, hlength⟩ := h
    simp only [SnapshotState.stepReader] at hs
    split at hs
    · next hpos =>
      cases hs
      refine ⟨rfl, ⟨hloaded.record, hloaded.sent, hloaded.received⟩, hrows, hlength, ?_⟩
      exact (if_pos hpos).mpr hgrows.udpLoss
    · next hzero =>
      cases hs
      exact ⟨rfl, hloaded.toTotals, hrows, hlength, (if_neg hzero).mpr ⟨hloaded.lost,
        hloaded.packets⟩⟩
  | done => cases hs

variable [DecidableEq ι] {a : Option ι}

theorem knows_step (hwrap : s.NoWrap a) (hs : s.step a = some s')
    (h : RecordsOn c₀ s.base.collector ∧ Knows c₀ s.base.collector s.reader.m s.reader.pc) :
    RecordsOn c₀ s'.base.collector ∧ Knows c₀ s'.base.collector s'.reader.m s'.reader.pc := by
  obtain ⟨hgrows, hknows⟩ := h
  cases a with
  | some i =>
    obtain ⟨base, hbase, rfl⟩ := Option.map_eq_some_iff.mp hs
    have hmore : RecordsOn s.base.collector base.collector := grows_step hwrap hbase
    exact ⟨hgrows.trans hmore, hknows.grow hmore⟩
  | none =>
    obtain ⟨hcollector, hnext⟩ := knows_stepReader hgrows hknows hs
    rw [hcollector]
    exact ⟨hgrows, hnext⟩

theorem knows_reach {s₀ : SnapshotState ι} (hpc : s₀.reader.pc = .cloneInner)
    (h : Lts.Reach SnapshotState.step SnapshotState.NoWrap s₀ s) :
    RecordsOn s₀.base.collector s.base.collector ∧
      Knows s₀.base.collector s.base.collector s.reader.m s.reader.pc := by
  refine h.invariant ⟨RecordsOn.refl _, ?_⟩ fun _ _ _ hI hok hs => knows_step hok hs hI
  rw [hpc]
  trivial

theorem RowsBetween.eq_streams {rows : List StreamStats} (h : RowsBetween c c rows)
    (hlength : c.perStream.length ≤ rows.length) :
    rows = c.perStream.map (fun stream => stream.toStreamStats c.inner.totalDuration) := by
  refine List.ext_getElem? fun j => ?_
  rw [List.getElem?_map]
  cases hrow : rows[j]? with
  | none =>
    have hle : rows.length ≤ j := List.getElem?_eq_none_iff.mp hrow
    rw [List.getElem?_eq_none_iff.mpr (hlength.trans hle)]
    rfl
  | some row =>
    obtain ⟨stream, hstream, hbetween⟩ := h j row hrow
    obtain ⟨hsent, hreceived⟩ := hbetween.low stream hstream
    have hsent := UInt64.le_antisymm hbetween.sent hsent
    have hreceived := UInt64.le_antisymm hbetween.received hreceived
    obtain ⟨streamId, bytesSent, bytesReceived, duration, retransmits⟩ := row
    obtain rfl : streamId = stream.streamId := hbetween.streamId
    obtain rfl : duration = c.inner.totalDuration := hbetween.duration
    obtain rfl : retransmits = none := hbetween.retransmits
    obtain rfl : bytesSent = stream.bytesSent := hsent
    obtain rfl : bytesReceived = stream.bytesReceived := hreceived
    rw [hstream]
    rfl

theorem eq_get_of_knows (h : Knows c c m .done) : m = c.get := by
  obtain ⟨⟨⟨hintervals, hduration, horder, hjitter, hstart⟩, hsent, hreceived⟩, hrows, hlength,
    hloss⟩ := h
  have hstreams := hrows.eq_streams hlength
  have hsent := UInt64.le_antisymm hsent.2 hsent.1
  have hreceived := UInt64.le_antisymm hreceived.2 hreceived.1
  obtain ⟨streams, intervals, totalBytesSent, totalBytesReceived, totalDuration, totalPackets,
    lostPackets, outOfOrderPackets, jitterMs, startTime⟩ := m
  simp only at hintervals hduration horder hjitter hstart hstreams
  obtain rfl : totalBytesSent = c.atomicBytesSent := hsent
  obtain rfl : totalBytesReceived = c.atomicBytesReceived := hreceived
  subst hintervals hduration horder hjitter hstart hstreams
  unfold LossRead at hloss
  unfold MeasurementsCollector.get
  split at hloss
  · next hpos =>
    obtain ⟨hlost, hpackets⟩ := Prod.mk.inj hloss
    subst hlost hpackets
    exact (if_pos hpos).symm
  · next hzero =>
    obtain ⟨hlost, hpackets⟩ := hloss
    obtain rfl : totalPackets = c.atomicPackets := UInt64.le_antisymm hpackets.2 hpackets.1
    subst hlost
    exact (if_neg hzero).symm

end Snapshot

/-- A call of `get` returns a record whose totals and streams lie between those at its begin and
those at its end: the streams it lists are all that existed, none is listed that does not exist,
and the rest is the locked record with the loss of the sequence state. -/
theorem snapshot_between {ι : Type} [DecidableEq ι] (s₀ s : SnapshotState ι)
    (hstart : s₀.reader.pc = .cloneInner)
    (h : Lts.Reach SnapshotState.step SnapshotState.NoWrap s₀ s) (hdone : s.reader.pc = .done) :
    Totals s₀.base.collector s.base.collector s.reader.m ∧
      RowsBetween s₀.base.collector s.base.collector s.reader.m.streams ∧
      s₀.base.collector.perStream.length ≤ s.reader.m.streams.length ∧
      LossRead s₀.base.collector s.base.collector s.reader.m := by
  have hknows := (knows_reach hstart h).2
  rw [hdone] at hknows
  exact hknows

/-- One recording thread, and a call of `get` that begins between its two calls. -/
def oneRecorder : SnapshotState (Fin 1) where
  base := CollectorState.start fun
    | none => []
    | some _ => [.recordBytesSent 3 100, .recordBytesSent 3 50]
  reader := ⟨.cloneInner, Measurements.new⟩

/-- The totals are loaded before the second call, the streams while it is under way. -/
def oneRecorderSteps : List (Option (Fin 1)) :=
  [none, none, some 0, some 0, some 0, some 0, some 0, some 0, none, none, some 0, none, none,
    none, none, none, none]

def oneRecorderEnd : SnapshotState (Fin 1) :=
  (Lts.run SnapshotState.step SnapshotState.NoWrap oneRecorder oneRecorderSteps).getD oneRecorder

theorem oneRecorder_run :
    Lts.run SnapshotState.step SnapshotState.NoWrap oneRecorder oneRecorderSteps =
      some oneRecorderEnd :=
  rfl

theorem snapshot_between_oneRecorder :
    Totals oneRecorder.base.collector oneRecorderEnd.base.collector oneRecorderEnd.reader.m ∧
      RowsBetween oneRecorder.base.collector oneRecorderEnd.base.collector
        oneRecorderEnd.reader.m.streams ∧
      oneRecorder.base.collector.perStream.length ≤ oneRecorderEnd.reader.m.streams.length ∧
      LossRead oneRecorder.base.collector oneRecorderEnd.base.collector oneRecorderEnd.reader.m :=
  snapshot_between oneRecorder oneRecorderEnd rfl (Lts.Reach.start.run oneRecorder_run) rfl

/-- The total of that call misses bytes that its stream has. -/
example : oneRecorderEnd.reader.m.totalBytesSent = 0 ∧
    oneRecorderEnd.reader.m.streams.map StreamStats.bytesSent = [100] := by decide

/-- When nobody records meanwhile, the steps of a call give the snapshot at one instant. -/
theorem snapshot_quiet {ι : Type} [DecidableEq ι] (s₀ s : SnapshotState ι)
    (hstart : s₀.reader.pc = .cloneInner)
    (h : Lts.Reach SnapshotState.step SnapshotState.NoWrap s₀ s) (hdone : s.reader.pc = .done)
    (hquiet : s.base.collector = s₀.base.collector) :
    s.reader.m = s₀.base.collector.get := by
  have hknows := (knows_reach hstart h).2
  rw [hdone, hquiet] at hknows
  exact eq_get_of_knows hknows

/-- Two streams with bytes, and the datagrams 0 and 2. -/
def restingCollector : MeasurementsCollector :=
  [CollectorCall.recordBytesSent 3 100, .recordBytesReceived 5 36, .recordUdpPacket 5,
    .recordUdpPacketReceived 0 7 9, .recordUdpPacketReceived 2 8 11].foldl
      MeasurementsCollector.call MeasurementsCollector.new

def resting : SnapshotState (Fin 1) where
  base := ⟨restingCollector, none, fun _ => ⟨.idle, []⟩⟩
  reader := ⟨.cloneInner, Measurements.new⟩

def restingEnd : SnapshotState (Fin 1) :=
  (Lts.run SnapshotState.step SnapshotState.NoWrap resting (List.replicate 12 none)).getD resting

theorem resting_run :
    Lts.run SnapshotState.step SnapshotState.NoWrap resting (List.replicate 12 none) =
      some restingEnd :=
  rfl

theorem snapshot_quiet_resting : restingEnd.reader.m = restingCollector.get :=
  snapshot_quiet resting restingEnd rfl (Lts.Reach.start.run resting_run) rfl rfl

example : restingEnd.reader.m.streams.map StreamStats.bytesReceived = [0, 36] ∧
    restingEnd.reader.m.lostPackets = 1 := by decide +kernel

end Rperf3
