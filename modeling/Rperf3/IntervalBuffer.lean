import Rperf3.CompactJson
import Rperf3.Library.SlidingWindow

/-!
# The bound of the interval buffer (`measurements.rs:9-68`)

A buffer is made empty or read from a JSON array, which may be of any length, and
then pushed to. A push removes one interval at most, so that it keeps the length of
a buffer that is already too long.
-/

namespace Rperf3

namespace CircularIntervalBuffer

/-- Only the room set aside depends on the capacity. -/
def withCapacity (_capacity : ℕ) : CircularIntervalBuffer := ⟨[]⟩

def serialize (b : CircularIntervalBuffer) : Json :=
  .arr (b.intervals.map IntervalStats.serialize)

/-- `VecDeque::deserialize`, with what reads one interval. -/
def deserialize (dec : Json → Option IntervalStats) (j : Json) : Option CircularIntervalBuffer :=
  (j.asList dec).map CircularIntervalBuffer.mk

def pushAll (b : CircularIntervalBuffer) (items : List IntervalStats) : CircularIntervalBuffer :=
  items.foldl pushBack b

theorem intervals_pushBack (b : CircularIntervalBuffer) (item : IntervalStats) :
    (b.pushBack item).intervals = Window.push maxIntervals b.intervals item := by
  unfold pushBack Window.push
  split <;> rfl

theorem intervals_pushAll (b : CircularIntervalBuffer) (items : List IntervalStats) :
    (b.pushAll items).intervals = Window.pushAll maxIntervals b.intervals items := by
  induction items generalizing b with
  | nil => rfl
  | cons item items ih =>
    rw [Window.pushAll_cons, ← intervals_pushBack]
    exact ih (b.pushBack item)

theorem len_pushAll (b : CircularIntervalBuffer) (items : List IntervalStats) :
    (b.pushAll items).len = min (max maxIntervals b.len) (b.len + items.length) := by
  unfold len
  rw [intervals_pushAll, Window.length_pushAll (by decide)]

theorem deserialize_serialize {b : CircularIntervalBuffer}
    (h : ∀ s ∈ b.intervals, s.start.InRange ∧ s.finish.InRange) :
    deserialize IntervalStats.deserialize b.serialize = some b := by
  have hread : (b.serialize.asList IntervalStats.deserialize) = some b.intervals :=
    Json.asList_roundtrip (fun s hs => IntervalStats.deserialize_serialize (h s hs).1 (h s hs).2)
  rw [deserialize, hread, Option.map_some]

end CircularIntervalBuffer

/-! ### Where a buffer comes from -/

inductive BufferSource where
  | new
  | withCapacity (capacity : ℕ)
  | deserialize (j : Json)

namespace BufferSource

def buffer (dec : Json → Option IntervalStats) : BufferSource → Option CircularIntervalBuffer
  | .new => some .new
  | .withCapacity capacity => some (.withCapacity capacity)
  | .deserialize j => CircularIntervalBuffer.deserialize dec j

def entries : BufferSource → List Json
  | .deserialize (.arr values) => values
  | _ => []

theorem len_buffer {dec : Json → Option IntervalStats} {source : BufferSource}
    {b : CircularIntervalBuffer} (h : source.buffer dec = some b) :
    b.len = source.entries.length := by
  cases source with
  | new =>
    cases h
    rfl
  | withCapacity capacity =>
    cases h
    rfl
  | deserialize j =>
    obtain ⟨intervals, hread, rfl⟩ := Option.map_eq_some_iff.mp h
    cases j with
    | arr values => exact Json.length_asList hread
    | _ => exact nomatch hread

end BufferSource

/-- Never more than `MAX_INTERVALS` intervals, whatever part of `items` has been pushed; the
last ones of all there were. -/
structure KeepsWindow (b : CircularIntervalBuffer) (items : List IntervalStats) : Prop where
  bounded : ∀ n, (b.pushAll (items.take n)).len ≤ maxIntervals
  contents : (b.pushAll items).intervals =
    (b.intervals ++ items).rtake (min (b.intervals ++ items).length maxIntervals)

theorem keepsWindow_of_len_le {b : CircularIntervalBuffer} (h : b.len ≤ maxIntervals)
    (items : List IntervalStats) : KeepsWindow b items where
  bounded n := by
    rw [b.len_pushAll]
    omega
  contents := by
    have hlen : b.intervals.length ≤ maxIntervals := h
    rw [b.intervals_pushAll, Window.pushAll_eq_rtake (by decide), Nat.max_eq_left hlen,
      Window.rtake_min_length]

/-- A buffer is bounded exactly when it was not read from an array of more than `MAX_INTERVALS`
intervals. -/
theorem keepsWindow_iff (dec : Json → Option IntervalStats) (source : BufferSource)
    (b : CircularIntervalBuffer) (hmade : source.buffer dec = some b)
    (items : List IntervalStats) :
    KeepsWindow b items ↔ source.entries.length ≤ maxIntervals := by
  rw [← BufferSource.len_buffer hmade]
  constructor
  · intro h
    exact h.bounded 0
  · intro h
    exact keepsWindow_of_len_le h items

def oneSecond : IntervalStats := ⟨0, 1000000000, 1250, 10000, 1⟩

theorem keepsWindow_iff_withCapacity :
    KeepsWindow (.withCapacity 100000) [oneSecond] ↔
      (BufferSource.withCapacity 100000).entries.length ≤ maxIntervals :=
  keepsWindow_iff IntervalStats.deserialize (.withCapacity 100000) _ rfl [oneSecond]

/-- A day and a second of intervals, read back. -/
def longBuffer : CircularIntervalBuffer := ⟨List.replicate (maxIntervals + 1) oneSecond⟩

theorem longBuffer_deserialize :
    (BufferSource.deserialize longBuffer.serialize).buffer IntervalStats.deserialize =
      some longBuffer := by
  refine CircularIntervalBuffer.deserialize_serialize (fun s hs => ?_)
  rw [List.eq_of_mem_replicate hs]
  decide

theorem longBuffer_not_bounded :
    ¬ ∀ (source : BufferSource) (b : CircularIntervalBuffer),
      source.buffer IntervalStats.deserialize = some b →
      ∀ items, KeepsWindow b items := by
  intro h
  have hkeeps := h _ _ longBuffer_deserialize [oneSecond]
  have hlen : longBuffer.len ≤ maxIntervals := hkeeps.bounded 0
  rw [CircularIntervalBuffer.len, longBuffer, List.length_replicate] at hlen
  omega

/-! ### The buffer of a collector -/

def CollectorCall.interval : CollectorCall → Option IntervalStats
  | .addInterval interval => some interval
  | _ => none

theorem call_pushAll (c : MeasurementsCollector) (x : CollectorCall) :
    (c.call x).inner.intervals = c.inner.intervals.pushAll x.interval.toList := by
  cases x with
  | addInterval interval => rfl
  | _ => exact call_intervals c (fun interval h => nomatch h)

theorem calls_pushAll (c : MeasurementsCollector) (cs : List CollectorCall) :
    (c.calls cs).inner.intervals =
      c.inner.intervals.pushAll (cs.filterMap CollectorCall.interval) := by
  induction cs generalizing c with
  | nil => rfl
  | cons x cs ih =>
    rw [MeasurementsCollector.calls_cons, ih, call_pushAll, List.filterMap_cons]
    cases x.interval with
    | none => rfl
    | some interval => rfl

/-- A collector keeps the last intervals it was given, `MAX_INTERVALS` of them at most. -/
theorem new_calls_intervals (cs : List CollectorCall) :
    (MeasurementsCollector.new.calls cs).inner.intervals.intervals =
      (cs.filterMap CollectorCall.interval).rtake maxIntervals := by
  rw [calls_pushAll, CircularIntervalBuffer.intervals_pushAll,
    Window.pushAll_eq_rtake (by decide)]
  rfl

end Rperf3
