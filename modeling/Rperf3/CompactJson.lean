import Rperf3.DetailedJson

/-!
# Optional fields without options (`measurements.rs:109-320`, `590-610`)

`TcpStats` keeps one flag bit for every optional field, `IntervalStats` and
`UdpStats` mark an absent value by `u64::MAX`. On the wire both are null. TCP
statistics are read into a record of options (`TcpStatsDto`), which is all that
can be seen of them.
-/

namespace Rperf3

open Serde

/-! ### Flags (`measurements.rs:109-127`, `220-291`) -/

namespace TcpStats

def hasFlag (s : TcpStats) (flag : UInt8) : Bool := s.flags &&& flag ≠ 0

def sndCwndOpt (s : TcpStats) : Option UInt64 :=
  if s.hasFlag sndCwndPresent then some s.sndCwnd else none

def rttOpt (s : TcpStats) : Option UInt64 :=
  if s.hasFlag rttPresent then some s.rtt else none

def rttvarOpt (s : TcpStats) : Option UInt64 :=
  if s.hasFlag rttvarPresent then some s.rttvar else none

def pmtuOpt (s : TcpStats) : Option UInt64 :=
  if s.hasFlag pmtuPresent then some s.pmtu else none

def serialize (s : TcpStats) : Json := .obj s.fields

/-- What can be seen of the statistics. -/
def toDto (s : TcpStats) : Dto :=
  ⟨s.retransmits, s.sndCwndOpt, s.rttOpt, s.rttvarOpt, s.pmtuOpt⟩

theorem ifPresent_eq (flags flag : UInt8) (value : UInt64) :
    ifPresent flags flag value =
      Json.ofOption u64 (if flags &&& flag ≠ 0 then some value else none) := by
  unfold ifPresent
  split <;> rfl

theorem fields_eq (s : TcpStats) :
    s.fields =
      [("retransmits", u64 s.toDto.retransmits), ("snd_cwnd", .ofOption u64 s.toDto.sndCwnd),
        ("rtt", .ofOption u64 s.toDto.rtt), ("rttvar", .ofOption u64 s.toDto.rttvar),
        ("pmtu", .ofOption u64 s.toDto.pmtu)] := by
  simp only [fields, ifPresent_eq, toDto, sndCwndOpt, rttOpt, rttvarOpt, pmtuOpt, hasFlag,
    decide_eq_true_eq]

theorem dto_deserialize (s : TcpStats) : Dto.deserialize s.serialize = some s.toDto := by
  simp [serialize, fields_eq, Dto.deserialize]

theorem mask_flags (a b c d : Bool) :
    let flags := (if a then sndCwndPresent else 0) ||| (if b then rttPresent else 0) |||
      (if c then rttvarPresent else 0) ||| (if d then pmtuPresent else 0)
    decide (flags &&& sndCwndPresent ≠ 0) = a ∧ decide (flags &&& rttPresent ≠ 0) = b ∧
      decide (flags &&& rttvarPresent ≠ 0) = c ∧ decide (flags &&& pmtuPresent ≠ 0) = d := by
  revert a b c d
  decide

/-- The flags of a record that was read say which of its options were there. -/
theorem flags_ofDto (dto : Dto) :
    (ofDto dto).hasFlag sndCwndPresent = dto.sndCwnd.isSome ∧
    (ofDto dto).hasFlag rttPresent = dto.rtt.isSome ∧
    (ofDto dto).hasFlag rttvarPresent = dto.rttvar.isSome ∧
    (ofDto dto).hasFlag pmtuPresent = dto.pmtu.isSome :=
  mask_flags dto.sndCwnd.isSome dto.rtt.isSome dto.rttvar.isSome dto.pmtu.isSome

theorem getD_of_isSome (o : Option UInt64) : (if o.isSome then some (o.getD 0) else none) = o := by
  cases o with
  | none => rfl
  | some x => rfl

theorem toDto_ofDto (dto : Dto) : (ofDto dto).toDto = dto := by
  obtain ⟨hcwnd, hrtt, hrttvar, hpmtu⟩ := flags_ofDto dto
  simp only [toDto, sndCwndOpt, rttOpt, rttvarOpt, pmtuOpt, hcwnd, hrtt, hrttvar, hpmtu]
  simp only [ofDto, getD_of_isSome]

theorem serialize_congr {s s' : TcpStats} (h : s'.toDto = s.toDto) :
    s'.serialize = s.serialize := by
  rw [serialize, serialize, fields_eq, fields_eq, h]

theorem deserialize_serialize (s : TcpStats) :
    deserialize s.serialize = some (ofDto s.toDto) := by
  rw [deserialize, dto_deserialize, Option.map_some]

end TcpStats

/-! ### Sentinels (`measurements.rs:129-151`) -/

namespace OptionU64Max

def serialize (value : UInt64) : Json := if value = u64Max then .null else u64 value

def deserialize (j : Json) : Option UInt64 := (j.asOption asU64).map (fun o => o.getD u64Max)

@[simp] theorem deserialize_serialize (value : UInt64) :
    deserialize (serialize value) = some value := by
  unfold serialize deserialize
  split
  · next h => rw [h, Json.asOption_null, Option.map_some, Option.getD_none]
  · rw [asOption_u64_some, Option.map_some, Option.getD_some]

end OptionU64Max

/-! ### Interval and UDP statistics (`measurements.rs:293-320`, `590-603`) -/

namespace Duration

/-- The seconds of a `Duration` are a `u64`. -/
def InRange (d : Duration) : Prop := d.asSecs < 2 ^ 64

instance (d : Duration) : Decidable d.InRange := inferInstanceAs (Decidable (_ < _))

def serialize (d : Duration) : Json :=
  .obj [("secs", nat d.asSecs), ("nanos", nat (d % 1000000000))]

/-- Nanoseconds beyond a second are carried over, unless the seconds overflow. -/
def deserialize (j : Json) : Option Duration := do
  let secs ← j.required asU64 "secs"
  let nanos ← j.required asU32 "nanos"
  if secs.toNat + nanos.toNat / 1000000000 < 2 ^ 64 then
    return secs.toNat * 1000000000 + nanos.toNat
  else none

theorem deserialize_serialize {d : Duration} (h : d.InRange) :
    deserialize d.serialize = some d := by
  have hnanos : d % 1000000000 < 1000000000 := Nat.mod_lt _ (by decide)
  have hsecs : asU64 (nat d.asSecs) = some (UInt64.ofNat d.asSecs) := by
    rw [asU64, nat, Json.asBits_int h, Option.map_some]
  have hnano : asU32 (nat (d % 1000000000)) = some (UInt32.ofNat (d % 1000000000)) := by
    rw [asU32, nat, Json.asBits_int (Nat.lt_trans hnanos (by decide)), Option.map_some]
  have hsecsNat : (UInt64.ofNat d.asSecs).toNat = d.asSecs := Nat.mod_eq_of_lt h
  have hnanoNat : (UInt32.ofNat (d % 1000000000)).toNat = d % 1000000000 :=
    Nat.mod_eq_of_lt (Nat.lt_trans hnanos (by decide))
  have hjoin : d.asSecs * 1000000000 + d % 1000000000 = d := Nat.div_add_mod' d 1000000000
  have hlt : d.asSecs < 18446744073709551616 := h
  simp [deserialize, serialize, hsecs, hnano, hsecsNat, hnanoNat, hjoin, hlt]

end Duration

namespace IntervalStats

def serialize (s : IntervalStats) : Json :=
  .obj [("start", s.start.serialize), ("end", s.finish.serialize), ("bytes", u64 s.bytes),
    ("bits_per_second", .float s.bitsPerSecond), ("packets", OptionU64Max.serialize s.packets)]

def deserialize (j : Json) : Option IntervalStats := do
  let start ← j.required Duration.deserialize "start"
  let finish ← j.required Duration.deserialize "end"
  let bytes ← j.required asU64 "bytes"
  let bitsPerSecond ← j.required Json.asFloat "bits_per_second"
  let packets ← j.defaulted OptionU64Max.deserialize 0 "packets"
  return { start, finish, bytes, bitsPerSecond, packets }

theorem deserialize_serialize {s : IntervalStats} (hstart : s.start.InRange)
    (hfinish : s.finish.InRange) : deserialize s.serialize = some s := by
  simp [deserialize, serialize, Duration.deserialize_serialize hstart,
    Duration.deserialize_serialize hfinish]

end IntervalStats

structure UdpStats where
  jitterMs : F64
  lostPackets : UInt64
  packets : UInt64
  lostPercent : F64
  outOfOrder : UInt64
  deriving DecidableEq

namespace UdpStats

def serialize (s : UdpStats) : Json :=
  .obj [("jitter_ms", .float s.jitterMs), ("lost_packets", u64 s.lostPackets),
    ("packets", u64 s.packets), ("lost_percent", .float s.lostPercent),
    ("out_of_order", OptionU64Max.serialize s.outOfOrder)]

def deserialize (j : Json) : Option UdpStats := do
  let jitterMs ← j.required Json.asFloat "jitter_ms"
  let lostPackets ← j.required asU64 "lost_packets"
  let packets ← j.required asU64 "packets"
  let lostPercent ← j.required Json.asFloat "lost_percent"
  let outOfOrder ← j.defaulted OptionU64Max.deserialize 0 "out_of_order"
  return { jitterMs, lostPackets, packets, lostPercent, outOfOrder }

theorem deserialize_serialize (s : UdpStats) : deserialize s.serialize = some s := by
  simp [deserialize, serialize]

end UdpStats

/-- Reading what was written keeps everything that can be seen of TCP statistics, and interval and
UDP statistics as they are. -/
theorem compactFields_roundtrip :
    (∀ s : TcpStats, ∃ s', TcpStats.deserialize s.serialize = some s' ∧
      s'.retransmits = s.retransmits ∧ s'.sndCwndOpt = s.sndCwndOpt ∧ s'.rttOpt = s.rttOpt ∧
      s'.rttvarOpt = s.rttvarOpt ∧ s'.pmtuOpt = s.pmtuOpt ∧ s'.serialize = s.serialize) ∧
    (∀ s : IntervalStats, s.start.InRange → s.finish.InRange →
      IntervalStats.deserialize s.serialize = some s) ∧
    ∀ s : UdpStats, UdpStats.deserialize s.serialize = some s := by
  refine ⟨?_, ?_, UdpStats.deserialize_serialize⟩
  · intro s
    have hdto := TcpStats.toDto_ofDto s.toDto
    exact ⟨.ofDto s.toDto, s.deserialize_serialize, congrArg TcpStats.Dto.retransmits hdto,
      congrArg TcpStats.Dto.sndCwnd hdto, congrArg TcpStats.Dto.rtt hdto,
      congrArg TcpStats.Dto.rttvar hdto, congrArg TcpStats.Dto.pmtu hdto,
      TcpStats.serialize_congr hdto⟩
  · intro s hstart hfinish
    exact IntervalStats.deserialize_serialize hstart hfinish

/-- An interval without a packet count. -/
theorem compactFields_sentinel :
    IntervalStats.deserialize (IntervalStats.serialize ⟨0, 1000000000, 1250, 10000, u64Max⟩) =
      some ⟨0, 1000000000, 1250, 10000, u64Max⟩ :=
  compactFields_roundtrip.2.1 ⟨0, 1000000000, 1250, 10000, u64Max⟩ (by decide) (by decide)

end Rperf3
