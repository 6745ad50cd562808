import Rperf3.Measurements

/-!
# Looking up one stream (`measurements.rs:942-954`, `1083-1266`)

The counters of a stream live in the list `per_stream`, from which `get` builds its
snapshot. `get_stream_stats` searches the list `streams` of the locked record, which
no method of the collector adds to (`inner_streams`): it finds nothing, whichever
streams were recorded.
-/

namespace Rperf3

namespace MeasurementsCollector

/-- `record_udp_loss` (`measurements.rs:1166-1169`). -/
def recordUdpLoss (c : MeasurementsCollector) (lost : UInt64) : MeasurementsCollector :=
  { c with inner := { c.inner with lostPackets := c.inner.lostPackets + lost } }

/-- `update_jitter` (`measurements.rs:1176-1184`). -/
def updateJitter (c : MeasurementsCollector) (jitter : F64) : MeasurementsCollector :=
  { c with
    inner := { c.inner with
      jitterMs :=
        if c.inner.jitterMs = 0 then jitter else c.inner.jitterMs * 0.875 + jitter * 0.125 } }

end MeasurementsCollector

/-- The methods that change a collector. -/
inductive CollectorOp where
  | call (x : CollectorCall)
  | recordUdpLoss (lost : UInt64)
  | updateJitter (jitter : F64)
  | syncAtomicCounters

def CollectorOp.streamId? : CollectorOp → Option ℕ
  | .call (.recordBytesSent streamId _) | .call (.recordBytesReceived streamId _)
  | .call (.recordUdpPacket streamId) => some streamId
  | _ => none

namespace MeasurementsCollector

def apply (c : MeasurementsCollector) : CollectorOp → MeasurementsCollector
  | .call x => c.call x
  | .recordUdpLoss lost => c.recordUdpLoss lost
  | .updateJitter jitter => c.updateJitter jitter
  | .syncAtomicCounters => c.syncAtomicCounters

def after (ops : List CollectorOp) : MeasurementsCollector := ops.foldl apply new

def streamIds (c : MeasurementsCollector) : List ℕ := c.perStream.map PerStreamMeasurements.streamId

end MeasurementsCollector

def Used (streamId : ℕ) (ops : List CollectorOp) : Prop := ∃ op ∈ ops, op.streamId? = some streamId

/-- The lookup finds a stream if it was recorded, and then what the snapshot has for it. -/
structure LookupAgrees (ops : List CollectorOp) (streamId : ℕ) : Prop where
  found : ((MeasurementsCollector.after ops).getStreamStats streamId).isSome = true ↔
    Used streamId ops
  same : ((MeasurementsCollector.after ops).getStreamStats streamId).isSome = true →
    (MeasurementsCollector.after ops).getStreamStats streamId =
      (MeasurementsCollector.after ops).get.streams.find? (fun s => s.streamId = streamId)

open MeasurementsCollector

theorem after_snoc (ops : List CollectorOp) (op : CollectorOp) :
    after (ops ++ [op]) = (after ops).apply op := by
  rw [after, after, List.foldl_append]
  rfl

theorem used_snoc (streamId : ℕ) (ops : List CollectorOp) (op : CollectorOp) :
    Used streamId (ops ++ [op]) ↔ Used streamId ops ∨ op.streamId? = some streamId := by
  simp [Used, or_and_right, exists_or]

/-! ### The two lists of streams -/

theorem call_inner_streams (c : MeasurementsCollector) (x : CollectorCall)
    (h : c.inner.streams = []) : (c.call x).inner.streams = [] := by
  cases x with
  | recordBytesSent k bytes => simpa [call, recordBytesSent] using h
  | recordBytesReceived k bytes => simpa [call, recordBytesReceived] using h
  | recordUdpPacket k => simpa [call, recordUdpPacket] using h
  | recordUdpPacketReceived sequence sent received =>
    simp only [call, recordUdpPacketReceived]
    split <;> exact h
  | addInterval interval => exact h
  | setDuration duration => simp [call, setDuration, Measurements.setDuration, h]
  | setStartTime time => exact h
  | get => exact h

theorem inner_streams (ops : List CollectorOp) : (after ops).inner.streams = [] := by
  induction ops using List.reverseRecOn with
  | nil => rfl
  | append_singleton ops op ih =>
    rw [after_snoc]
    cases op with
    | call x => exact call_inner_streams _ x ih
    | recordUdpLoss lost => exact ih
    | updateJitter jitter => exact ih
    | syncAtomicCounters => exact ih

theorem modifyStream_ids (k : ℕ) {f : PerStreamMeasurements → PerStreamMeasurements}
    (hf : ∀ s, (f s).streamId = s.streamId) (ss : List PerStreamMeasurements) :
    (modifyStream k f ss).map PerStreamMeasurements.streamId =
      ss.map PerStreamMeasurements.streamId := by
  induction ss with
  | nil => rfl
  | cons s ss ih =>
    unfold modifyStream
    split
    · rw [List.map_cons, List.map_cons, hf]
    · rw [List.map_cons, List.map_cons, ih]

theorem getOrCreateStream_ids (c : MeasurementsCollector) (k streamId : ℕ) :
    streamId ∈ (c.getOrCreateStream k).streamIds ↔ streamId ∈ c.streamIds ∨ k = streamId := by
  unfold getOrCreateStream
  split
  · next s hs =>
    have hfound := List.find?_some hs
    have hk : s.streamId = k := of_decide_eq_true hfound
    have hmem : k ∈ c.streamIds := List.mem_map.mpr ⟨s, List.mem_of_find?_eq_some hs, hk⟩
    refine ⟨.inl, fun h => ?_⟩
    rcases h with h | rfl
    · exact h
    · exact hmem
  · simp [streamIds, PerStreamMeasurements.new, eq_comm]

theorem recorded_ids (c : MeasurementsCollector) (k streamId : ℕ)
    {f : PerStreamMeasurements → PerStreamMeasurements} (hf : ∀ s, (f s).streamId = s.streamId) :
    streamId ∈ (modifyStream k f (c.getOrCreateStream k).perStream).map
        PerStreamMeasurements.streamId ↔
      streamId ∈ c.streamIds ∨ some k = some streamId := by
  rw [modifyStream_ids k hf, Option.some.injEq]
  exact getOrCreateStream_ids c k streamId

theorem call_ids (c : MeasurementsCollector) (x : CollectorCall) (streamId : ℕ) :
    streamId ∈ (c.call x).streamIds ↔
      streamId ∈ c.streamIds ∨ (CollectorOp.call x).streamId? = some streamId := by
  cases x with
  | recordBytesSent k bytes =>
    exact recorded_ids { c with atomicBytesSent := c.atomicBytesSent + bytes } k streamId
      (fun _ => rfl)
  | recordBytesReceived k bytes =>
    exact recorded_ids { c with atomicBytesReceived := c.atomicBytesReceived + bytes } k streamId
      (fun _ => rfl)
  | recordUdpPacket k =>
    exact recorded_ids { c with atomicPackets := c.atomicPackets + 1 } k streamId (fun _ => rfl)
  | recordUdpPacketReceived sequence sent received =>
    rw [call, streamIds, (recordUdpPacketReceived_frame c sequence sent received).1]
    simp [streamIds, CollectorOp.streamId?]
  | addInterval interval => simp [call, addInterval, streamIds, CollectorOp.streamId?]
  | setDuration duration => simp [call, setDuration, streamIds, CollectorOp.streamId?]
  | setStartTime time => simp [call, setStartTime, streamIds, CollectorOp.streamId?]
  | get => simp [call, streamIds, CollectorOp.streamId?]

/-- The counters are kept for the streams that were recorded. -/
theorem mem_streamIds (ops : List CollectorOp) (streamId : ℕ) :
    streamId ∈ (after ops).streamIds ↔ Used streamId ops := by
  induction ops using List.reverseRecOn with
  | nil => simp [after, MeasurementsCollector.new, streamIds, Used]
  | append_singleton ops op ih =>
    rw [after_snoc, used_snoc, ← ih]
    cases op with
    | call x => exact call_ids ..
    | recordUdpLoss lost => simp [apply, recordUdpLoss, streamIds, CollectorOp.streamId?]
    | updateJitter jitter => simp [apply, updateJitter, streamIds, CollectorOp.streamId?]
    | syncAtomicCounters =>
      simp [apply, syncAtomicCounters, streamIds, CollectorOp.streamId?]

/-! ### The two ways to read a stream -/

theorem snapshot_isSome_iff (ops : List CollectorOp) (streamId : ℕ) :
    ((after ops).get.streams.find? (fun s => s.streamId = streamId)).isSome = true ↔
      Used streamId ops := by
  have hstreams : (after ops).get.streams = (after ops).perStream.map
      (fun s => s.toStreamStats (after ops).inner.totalDuration) := by
    unfold MeasurementsCollector.get
    dsimp only
    split <;> rfl
  rw [← mem_streamIds, hstreams]
  simp [streamIds, PerStreamMeasurements.toStreamStats]

theorem lookup_none (ops : List CollectorOp) (streamId : ℕ) :
    (after ops).getStreamStats streamId = none := by
  rw [getStreamStats, inner_streams]
  rfl

/-- The lookup is right about the streams that were not recorded. -/
theorem lookupAgrees_iff (ops : List CollectorOp) (streamId : ℕ) :
    LookupAgrees ops streamId ↔ ¬ Used streamId ops := by
  have hnone := lookup_none ops streamId
  constructor
  · intro h hused
    have hsome := h.found.mpr hused
    rw [hnone] at hsome
    exact nomatch hsome
  · intro hunused
    constructor
    · rw [hnone]
      exact ⟨fun h => (nomatch h), fun h => absurd h hunused⟩
    · intro hsome
      rw [hnone] at hsome
      exact nomatch hsome

/-- 1024 bytes are recorded for stream 0, and the stream is not found. -/
theorem lookup_kilobyte :
    ¬ ∀ (ops : List CollectorOp) (streamId : ℕ), LookupAgrees ops streamId := by
  intro h
  have hfound := (h [.call (.recordBytesSent 0 1024)] 0).found.mpr ⟨_, List.mem_cons_self .., rfl⟩
  rw [lookup_none] at hfound
  exact nomatch hfound

end Rperf3
