import Rperf3.UdpPacket

/-!
# Cached timestamps (`udp_packet.rs:62-98`, `367-381`)

The packets of one thread that calls `create_packet_fast` again and again, while
the wall clock advances in lockstep with the monotonic clock. Between two
refreshes a timestamp is the sum of two readings that are both cut to whole
microseconds; at a refresh the wall clock is read first and the monotonic clock
after it.
-/

namespace Rperf3

/-! ### The clocks -/

/-- `epoch` is what the wall clock shows, in nanoseconds, when the monotonic clock is at zero. -/
structure WallClock where
  epoch : ℕ

namespace WallClock

/-- `as_micros` of the time since the Unix epoch. -/
def micros (clock : WallClock) (t : Instant) : ℕ := (clock.epoch + t) / 1000

def read (clock : WallClock) (t : Instant) : UInt64 := UInt64.ofNat (clock.micros t)

variable {clock : WallClock}

theorem micros_mono {t u : ℕ} (h : t ≤ u) : clock.micros t ≤ clock.micros u :=
  Nat.div_le_div_right (Nat.add_le_add_left h _)

theorem toNat_read {t : Instant} (h : clock.micros t < 2 ^ 64) :
    (clock.read t).toNat = clock.micros t := Nat.mod_eq_of_lt h

/-- Two cut readings are not above the cut sum. -/
theorem micros_add_le {wallAt updated now : ℕ} (hreads : wallAt ≤ updated) (hnow : updated ≤ now) :
    clock.micros wallAt + (now - updated) / 1000 ≤ clock.micros now := by
  have hsum : clock.epoch + wallAt + (now - updated) ≤ clock.epoch + now := by omega
  calc (clock.epoch + wallAt) / 1000 + (now - updated) / 1000
      ≤ (clock.epoch + wallAt + (now - updated)) / 1000 := Nat.div_add_div_le_add_div ..
    _ ≤ (clock.epoch + now) / 1000 := Nat.div_le_div_right hsum

/-- Each of the two cuts takes less than a microsecond. -/
theorem micros_le_add {wallAt updated now : ℕ} (hreads : wallAt ≤ updated) (hnow : updated ≤ now) :
    1000 * clock.micros now ≤
      1000 * (clock.micros wallAt + (now - updated) / 1000) + 2000 + (updated - wallAt) := by
  unfold micros
  omega

end WallClock

/-! ### One thread -/

structure ClockReads where
  wallAt : Instant
  updated : Instant

/-- A call, made at `now`; the reads are those of a refresh, if there is one. -/
structure FastCall where
  streamId : UInt32
  sequence : UInt32
  payloadSize : ℕ
  now : Instant
  reads : ClockReads

def FastCall.reading (clock : WallClock) (c : FastCall) : CacheReading :=
  ⟨c.now, clock.read c.reads.wallAt, c.reads.updated⟩

/-- The cache of the thread, and the reads it was last filled with. -/
structure ThreadCache where
  cache : TimestampCache
  refresh : ClockReads

def ThreadCache.start (clock : WallClock) (reads : ClockReads) : ThreadCache :=
  ⟨TimestampCache.new (clock.read reads.wallAt) reads.updated, reads⟩

def TimestampCache.IsStale (cache : TimestampCache) (now : Instant) : Prop :=
  UInt64.ofNat ((now - cache.lastUpdate) / 1000) ≥ cache.updateIntervalUs

instance (cache : TimestampCache) (now : Instant) : Decidable (cache.IsStale now) :=
  inferInstanceAs (Decidable (_ ≤ _))

/-- A packet of `create_packet_fast`, the one of `create_packet` at the moment the timestamp was
taken, and the reads of the last refresh. -/
structure FastSent where
  packet : Bytes
  plain : Bytes
  refresh : ClockReads

def sendFast (clock : WallClock) (s : ThreadCache) (c : FastCall) : FastSent × ThreadCache :=
  let (packet, cache) :=
    createPacketFast s.cache (c.reading clock) c.streamId c.sequence c.payloadSize
  let plainAt (t : Instant) := createPacket c.streamId c.sequence c.payloadSize (clock.read t)
  if s.cache.IsStale c.now then (⟨packet, plainAt c.reads.wallAt, c.reads⟩, ⟨cache, c.reads⟩)
  else (⟨packet, plainAt c.now, s.refresh⟩, ⟨cache, s.refresh⟩)

def sendAllFast (clock : WallClock) : ThreadCache → List FastCall → List FastSent
  | _, [] => []
  | s, c :: cs => (sendFast clock s c).1 :: sendAllFast clock (sendFast clock s c).2 cs

/-- The timestamp in the header of a packet that parses. -/
def headerTimestamp (packet : Bytes) : ℕ :=
  match parsePacket packet with
  | some (header, _) => header.timestampUs.toNat
  | none => 0

/-- The clock is read in the order of the calls, from `t` on. -/
def CallsInOrder : Instant → List FastCall → Prop
  | _, [] => True
  | t, c :: cs => t ≤ c.now ∧ c.now ≤ c.reads.wallAt ∧ c.reads.wallAt ≤ c.reads.updated ∧
      CallsInOrder c.reads.updated cs

@[simp] theorem headerTimestamp_packetBytes (streamId sequence : UInt32) (timestampUs : UInt64)
    (payloadSize : ℕ) :
    headerTimestamp (packetBytes streamId sequence timestampUs payloadSize) =
      timestampUs.toNat := by
  simp only [headerTimestamp, parsePacket_packetBytes, UdpPacketHeader.new]

theorem packetBytes_parses (streamId sequence : UInt32) (timestampUs : UInt64)
    (payloadSize : ℕ) :
    (parsePacket (packetBytes streamId sequence timestampUs payloadSize)).isSome := by
  rw [parsePacket_packetBytes]
  rfl

/-! ### One call -/

/-- The cache holds the reads of its last refresh, made before `t`. -/
structure ThreadCache.Filled (clock : WallClock) (s : ThreadCache) (t : ℕ) : Prop where
  cached : s.cache.cachedTimestampUs = clock.read s.refresh.wallAt
  lastUpdate : s.cache.lastUpdate = s.refresh.updated
  reads : s.refresh.wallAt ≤ s.refresh.updated
  past : s.refresh.updated ≤ t

/-- What the cache gives for the time `t`. -/
def ThreadCache.estimate (clock : WallClock) (s : ThreadCache) (t : ℕ) : ℕ :=
  clock.micros s.refresh.wallAt + (t - s.refresh.updated) / 1000

variable {clock : WallClock} {s : ThreadCache} {c : FastCall} {cs : List FastCall} {t : ℕ}

theorem estimate_mono {u : ℕ} (h : t ≤ u) : s.estimate clock t ≤ s.estimate clock u :=
  Nat.add_le_add_left (Nat.div_le_div_right (Nat.sub_le_sub_right h _)) _

theorem ThreadCache.Filled.estimate_le (h : s.Filled clock t) :
    s.estimate clock t ≤ clock.micros t := WallClock.micros_add_le h.reads h.past

theorem ThreadCache.Filled.later {u : ℕ} (h : s.Filled clock t) (htu : t ≤ u) :
    s.Filled clock u := ⟨h.cached, h.lastUpdate, h.reads, Nat.le_trans h.past htu⟩

theorem filled_start {reads : ClockReads} (h : reads.wallAt ≤ reads.updated) :
    (ThreadCache.start clock reads).Filled clock reads.updated := ⟨rfl, rfl, h, Nat.le_refl _⟩

theorem sendFast_stale (h : s.cache.IsStale c.now) :
    sendFast clock s c =
      (⟨packetBytes c.streamId c.sequence (clock.read c.reads.wallAt) c.payloadSize,
        packetBytes c.streamId c.sequence (clock.read c.reads.wallAt) c.payloadSize, c.reads⟩,
      ⟨{ s.cache with
          cachedTimestampUs := clock.read c.reads.wallAt
          lastUpdate := c.reads.updated }, c.reads⟩) := by
  have hget : s.cache.getTimestamp (c.reading clock) = (clock.read c.reads.wallAt,
      { s.cache with
        cachedTimestampUs := clock.read c.reads.wallAt
        lastUpdate := c.reads.updated }) := if_pos h
  simp only [sendFast, createPacketFast, createPacket, hget, if_pos h]

theorem sendFast_cached (h : ¬ s.cache.IsStale c.now) :
    sendFast clock s c =
      (⟨packetBytes c.streamId c.sequence (s.cache.cachedTimestampUs +
          UInt64.ofNat ((c.now - s.cache.lastUpdate) / 1000)) c.payloadSize,
        packetBytes c.streamId c.sequence (clock.read c.now) c.payloadSize, s.refresh⟩, s) := by
  have hget : s.cache.getTimestamp (c.reading clock) = (s.cache.cachedTimestampUs +
      UInt64.ofNat ((c.now - s.cache.lastUpdate) / 1000), s.cache) := if_neg h
  simp only [sendFast, createPacketFast, createPacket, hget, if_neg h]

theorem toNat_cached (h : s.Filled clock c.now) (hfits : clock.micros c.now < 2 ^ 64) :
    (s.cache.cachedTimestampUs + UInt64.ofNat ((c.now - s.cache.lastUpdate) / 1000)).toNat =
      s.estimate clock c.now := by
  have hle := h.estimate_le
  have hwall : clock.micros s.refresh.wallAt < 2 ^ 64 :=
    Nat.lt_of_le_of_lt (Nat.le_trans (Nat.le_add_right _ _) hle) hfits
  have helapsed : (c.now - s.refresh.updated) / 1000 < 2 ^ 64 :=
    Nat.lt_of_le_of_lt (Nat.le_trans (Nat.le_add_left _ _) hle) hfits
  have hround : (UInt64.ofNat ((c.now - s.refresh.updated) / 1000)).toNat =
      (c.now - s.refresh.updated) / 1000 := Nat.mod_eq_of_lt helapsed
  rw [h.cached, h.lastUpdate, UInt64.toNat_add, WallClock.toNat_read hwall, hround]
  exact Nat.mod_eq_of_lt (Nat.lt_of_le_of_lt hle hfits)

structure FastStep (clock : WallClock) (s s' : ThreadCache) (t t' : ℕ) (sent : FastSent) :
    Prop where
  filled : s'.Filled clock t'
  parses : (parsePacket sent.packet).isSome ∧ (parsePacket sent.plain).isSome
  above : s.estimate clock t ≤ headerTimestamp sent.packet
  below : headerTimestamp sent.packet ≤ s'.estimate clock t'
  not_later : headerTimestamp sent.packet ≤ headerTimestamp sent.plain
  not_earlier : 1000 * headerTimestamp sent.plain ≤ 1000 * headerTimestamp sent.packet + 2000 +
    (sent.refresh.updated - sent.refresh.wallAt)

theorem sendFast_step (h : s.Filled clock t) (hnow : t ≤ c.now) (hwall : c.now ≤ c.reads.wallAt)
    (hupdated : c.reads.wallAt ≤ c.reads.updated)
    (hfits : clock.micros c.reads.updated < 2 ^ 64) :
    FastStep clock s (sendFast clock s c).2 t c.reads.updated (sendFast clock s c).1 := by
  have hend : c.now ≤ c.reads.updated := Nat.le_trans hwall hupdated
  by_cases hstale : s.cache.IsStale c.now
  · have hread := WallClock.toNat_read
      (Nat.lt_of_le_of_lt (WallClock.micros_mono hupdated) hfits)
    rw [sendFast_stale hstale]
    constructor
    · exact ⟨rfl, rfl, hupdated, Nat.le_refl _⟩
    · exact ⟨packetBytes_parses .., packetBytes_parses ..⟩
    · rw [headerTimestamp_packetBytes, hread]
      exact Nat.le_trans h.estimate_le (WallClock.micros_mono (Nat.le_trans hnow hwall))
    · rw [headerTimestamp_packetBytes, hread]
      exact Nat.le_add_right _ _
    · exact Nat.le_refl _
    · rw [Nat.add_assoc]
      exact Nat.le_add_right _ _
  · have hfilled := h.later hnow
    have hmicros := Nat.lt_of_le_of_lt (WallClock.micros_mono hend) hfits
    have hcached := toNat_cached hfilled hmicros
    have hread := WallClock.toNat_read hmicros
    rw [sendFast_cached hstale]
    constructor
    · exact hfilled.later hend
    · exact ⟨packetBytes_parses .., packetBytes_parses ..⟩
    · rw [headerTimestamp_packetBytes, hcached]
      exact estimate_mono hnow
    · rw [headerTimestamp_packetBytes, hcached]
      exact estimate_mono hend
    · rw [headerTimestamp_packetBytes, headerTimestamp_packetBytes, hcached, hread]
      exact hfilled.estimate_le
    · rw [headerTimestamp_packetBytes, headerTimestamp_packetBytes, hcached, hread]
      exact WallClock.micros_le_add hfilled.reads hfilled.past

/-! ### A run of calls -/

theorem estimate_le_sent (h : s.Filled clock t) (horder : CallsInOrder t cs)
    (hfits : ∀ c ∈ cs, clock.micros c.reads.updated < 2 ^ 64) :
    ∀ sent ∈ sendAllFast clock s cs, s.estimate clock t ≤ headerTimestamp sent.packet := by
  induction cs generalizing s t with
  | nil => exact fun _ hsent => absurd hsent List.not_mem_nil
  | cons c cs ih =>
    obtain ⟨hnow, hwall, hupdated, hrest⟩ := horder
    have hstep := sendFast_step h hnow hwall hupdated (hfits c (List.mem_cons_self ..))
    intro sent hsent
    rcases List.mem_cons.mp hsent with rfl | hlater
    · exact hstep.above
    · have hnext := ih hstep.filled hrest (fun x hx => hfits x (List.mem_cons_of_mem _ hx))
      exact Nat.le_trans (Nat.le_trans hstep.above hstep.below) (hnext sent hlater)

theorem sendAllFast_sorted (h : s.Filled clock t) (horder : CallsInOrder t cs)
    (hfits : ∀ c ∈ cs, clock.micros c.reads.updated < 2 ^ 64) :
    (sendAllFast clock s cs).Pairwise
      (fun a b => headerTimestamp a.packet ≤ headerTimestamp b.packet) := by
  induction cs generalizing s t with
  | nil => exact List.Pairwise.nil
  | cons c cs ih =>
    obtain ⟨hnow, hwall, hupdated, hrest⟩ := horder
    have hstep := sendFast_step h hnow hwall hupdated (hfits c (List.mem_cons_self ..))
    have hfits' : ∀ x ∈ cs, clock.micros x.reads.updated < 2 ^ 64 :=
      fun x hx => hfits x (List.mem_cons_of_mem _ hx)
    apply List.Pairwise.cons
    · intro sent hsent
      exact Nat.le_trans hstep.below (estimate_le_sent hstep.filled hrest hfits' sent hsent)
    · exact ih hstep.filled hrest hfits'

theorem sendAllFast_near (h : s.Filled clock t) (horder : CallsInOrder t cs)
    (hfits : ∀ c ∈ cs, clock.micros c.reads.updated < 2 ^ 64) :
    ∀ sent ∈ sendAllFast clock s cs,
      ((parsePacket sent.packet).isSome ∧ (parsePacket sent.plain).isSome) ∧
      headerTimestamp sent.packet ≤ headerTimestamp sent.plain ∧
      1000 * headerTimestamp sent.plain ≤ 1000 * headerTimestamp sent.packet + 2000 +
        (sent.refresh.updated - sent.refresh.wallAt) := by
  induction cs generalizing s t with
  | nil => exact fun _ hsent => absurd hsent List.not_mem_nil
  | cons c cs ih =>
    obtain ⟨hnow, hwall, hupdated, hrest⟩ := horder
    have hstep := sendFast_step h hnow hwall hupdated (hfits c (List.mem_cons_self ..))
    intro sent hsent
    rcases List.mem_cons.mp hsent with rfl | hlater
    · exact ⟨hstep.parses, hstep.not_later, hstep.not_earlier⟩
    · exact ih hstep.filled hrest (fun x hx => hfits x (List.mem_cons_of_mem _ hx)) sent hlater

/-- The packets of one thread parse. Their timestamps never decrease, are never later than those of
`create_packet`, and are earlier by two microseconds and the time between the reads of the last
refresh at most. -/
theorem cachedTimestamps_safe (clock : WallClock) (first : ClockReads) (calls : List FastCall)
    (hfirst : first.wallAt ≤ first.updated) (horder : CallsInOrder first.updated calls)
    (hfits : ∀ c ∈ calls, clock.micros c.reads.updated < 2 ^ 64) :
    (sendAllFast clock (.start clock first) calls).Pairwise
        (fun a b => headerTimestamp a.packet ≤ headerTimestamp b.packet) ∧
      ∀ sent ∈ sendAllFast clock (.start clock first) calls,
        ((parsePacket sent.packet).isSome ∧ (parsePacket sent.plain).isSome) ∧
        headerTimestamp sent.packet ≤ headerTimestamp sent.plain ∧
        1000 * headerTimestamp sent.plain ≤ 1000 * headerTimestamp sent.packet + 2000 +
          (sent.refresh.updated - sent.refresh.wallAt) := by
  have hstart : (ThreadCache.start clock first).Filled clock first.updated := filled_start hfirst
  exact ⟨sendAllFast_sorted hstart horder hfits, sendAllFast_near hstart horder hfits⟩

/-- Two calls answered from the cache, then one that refreshes it. -/
def threeCalls : List FastCall :=
  [⟨0, 0, 8, 2000, ⟨2000, 2000⟩⟩, ⟨0, 1, 8, 1001500, ⟨1001500, 1001500⟩⟩,
    ⟨0, 2, 8, 1001900, ⟨1001950, 1002700⟩⟩]

theorem cachedTimestamps_threeCalls :
    (sendAllFast ⟨5000400⟩ (.start ⟨5000400⟩ ⟨700, 1600⟩) threeCalls).Pairwise
      (fun a b => headerTimestamp a.packet ≤ headerTimestamp b.packet) := by
  have horder : CallsInOrder 1600 threeCalls := by
    simp only [CallsInOrder, threeCalls]
    decide
  have hfits : ∀ c ∈ threeCalls, WallClock.micros ⟨5000400⟩ c.reads.updated < 2 ^ 64 := by decide
  exact (cachedTimestamps_safe ⟨5000400⟩ ⟨700, 1600⟩ threeCalls (by decide) horder hfits).1

end Rperf3
