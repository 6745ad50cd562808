import Rperf3.Measurements

/-!
# What the data loops share

Every loop that moves test data, on either side, counts the bytes and packets of
the running interval and closes it when it is due. An interval starts where the
time since the last one began, and its rate is over that time.
-/

namespace Rperf3

inductive IoResult (α : Type) where
  | ok (a : α)
  | error (kind : ErrorKind)
  | timeout

/-- Clock readings when an interval may be due: `last_interval.elapsed()`, `start.elapsed()`,
`last_interval.elapsed()` again, and the new `last_interval`. -/
structure IntervalClock where
  check : Instant
  elapsed : Instant
  since : Instant
  reset : Instant

structure LoopState where
  lastInterval : Instant
  intervalBytes : UInt64
  intervalPackets : UInt64

structure LoopConfig where
  start : Instant
  duration : Duration
  interval : Duration

def intervalStats (cfg : LoopConfig) (packets : UInt64) (st : LoopState) (clock : IntervalClock) :
    IntervalStats :=
  let elapsed := clock.elapsed - cfg.start
  let intervalDuration := clock.since - st.lastInterval
  { start := if elapsed > intervalDuration then elapsed - intervalDuration else 0
    finish := elapsed
    bytes := st.intervalBytes
    bitsPerSecond := (st.intervalBytes.toNat : F64) * 8 / Duration.asSecsF64 intervalDuration
    packets := packets }

def LoopConfig.first (cfg : LoopConfig) : LoopState := ⟨cfg.start, 0, 0⟩

end Rperf3
