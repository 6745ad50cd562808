import Rperf3.Primitive

/-!
# UDP test packets (`udp_packet.rs`)

Twenty bytes of header, then zeros: magic, stream, sequence number and a
timestamp, all big-endian. `create_packet` reads the wall clock, and
`create_packet_fast` a cache of it that is refreshed every millisecond.
-/

namespace Rperf3

/-- `u64::to_be_bytes` and `u64::from_be_bytes`. -/
def toBeBytes64 (x : UInt64) : Bytes := BigEndian.encode 8 x.toNat
def fromBeBytes64 (bs : Bytes) : UInt64 := UInt64.ofNat (BigEndian.decode bs)

@[simp] theorem length_toBeBytes64 (x : UInt64) : (toBeBytes64 x).length = 8 :=
  BigEndian.length_encode 8 x.toNat

@[simp] theorem fromBeBytes64_toBeBytes64 (x : UInt64) : fromBeBytes64 (toBeBytes64 x) = x := by
  have hlt : x.toNat < 256 ^ 8 := x.toNat_lt
  simp only [fromBeBytes64, toBeBytes64, BigEndian.decode_encode_of_lt hlt, UInt64.ofNat_toNat]

/-! ### Timestamp cache (`udp_packet.rs:60-104`) -/

structure TimestampCache where
  cachedTimestampUs : UInt64
  lastUpdate : Instant
  updateIntervalUs : UInt64

/-- The clock readings of one `get_timestamp`: the monotonic clock on entry, and the wall clock
and the monotonic clock read when the cache is stale. -/
structure CacheReading where
  now : Instant
  wallUs : UInt64
  updated : Instant

def TimestampCache.new (wallUs : UInt64) (now : Instant) : TimestampCache := ⟨wallUs, now, 1000⟩

def TimestampCache.getTimestamp (cache : TimestampCache) (r : CacheReading) :
    UInt64 × TimestampCache :=
  let elapsedUs := UInt64.ofNat ((r.now - cache.lastUpdate) / 1000)
  if elapsedUs ≥ cache.updateIntervalUs then
    (r.wallUs, { cache with cachedTimestampUs := r.wallUs, lastUpdate := r.updated })
  else (cache.cachedTimestampUs + elapsedUs, cache)

/-! ### Header (`udp_packet.rs:106-262`) -/

def rperf3UdpMagic : UInt32 := 0x52504633

structure UdpPacketHeader where
  magic : UInt32
  streamId : UInt32
  sequence : UInt32
  timestampUs : UInt64
  deriving DecidableEq

namespace UdpPacketHeader

def size : ℕ := 20

def new (streamId sequence : UInt32) (timestampUs : UInt64) : UdpPacketHeader :=
  ⟨rperf3UdpMagic, streamId, sequence, timestampUs⟩

def toBytes (h : UdpPacketHeader) : Bytes :=
  toBeBytes h.magic ++ (toBeBytes h.streamId ++ (toBeBytes h.sequence ++
    toBeBytes64 h.timestampUs))

def fromBytes (bytes : Bytes) : Option UdpPacketHeader :=
  if bytes.length < size then none
  else
    let magic := fromBeBytes (bytes.take 4)
    if magic ≠ rperf3UdpMagic then none
    else
      some { magic := magic
             streamId := fromBeBytes ((bytes.drop 4).take 4)
             sequence := fromBeBytes ((bytes.drop 8).take 4)
             timestampUs := fromBeBytes64 ((bytes.drop 12).take 8) }

end UdpPacketHeader

@[simp] theorem length_toBytes (h : UdpPacketHeader) :
    h.toBytes.length = UdpPacketHeader.size := by
  simp only [UdpPacketHeader.toBytes, List.length_append, length_toBeBytes, length_toBeBytes64]
  rfl

theorem drop_field {bs rest : Bytes} {n k : ℕ} (h : bs.length = n) :
    (bs ++ rest).drop (n + k) = rest.drop k := by
  subst h
  rw [← List.drop_drop, List.drop_left]

theorem take_field {bs rest : Bytes} {n : ℕ} (h : bs.length = n) :
    (bs ++ rest).take n = bs := by
  subst h
  exact List.take_left

theorem fromBytes_toBytes (streamId sequence : UInt32) (timestampUs : UInt64) (rest : Bytes) :
    UdpPacketHeader.fromBytes ((UdpPacketHeader.new streamId sequence timestampUs).toBytes ++ rest)
      = some (UdpPacketHeader.new streamId sequence timestampUs) := by
  have hm := length_toBeBytes rperf3UdpMagic
  have hs := length_toBeBytes streamId
  have hq := length_toBeBytes sequence
  have ht := length_toBeBytes64 timestampUs
  have hlen : ¬ ((UdpPacketHeader.new streamId sequence timestampUs).toBytes ++ rest).length <
      UdpPacketHeader.size := by
    rw [List.length_append, length_toBytes]
    omega
  rw [UdpPacketHeader.fromBytes, if_neg hlen]
  simp only [UdpPacketHeader.toBytes, UdpPacketHeader.new, List.append_assoc]
  rw [take_field hm, drop_field (k := 0) hm, drop_field (k := 4) hm, drop_field (k := 8) hm,
    drop_field (k := 0) hs, drop_field (k := 4) hs, drop_field (k := 0) hq, List.drop_zero,
    List.drop_zero, List.drop_zero, take_field hs, take_field hq, take_field ht]
  simp only [fromBeBytes_toBeBytes, fromBeBytes64_toBeBytes64, ne_eq, not_true_eq_false, if_false]

/-! ### Packets (`udp_packet.rs:264-415`) -/

/-- The payload that fills a buffer beside the header (`client.rs:968-974`, `1190-1196`,
`server.rs:923-929`). -/
def payloadSizeFor (bufferSize : ℕ) : ℕ :=
  if bufferSize > UdpPacketHeader.size then bufferSize - UdpPacketHeader.size else 1024

def packetBytes (streamId sequence : UInt32) (timestampUs : UInt64) (payloadSize : ℕ) : Bytes :=
  (UdpPacketHeader.new streamId sequence timestampUs).toBytes ++ List.replicate payloadSize 0

/-- `create_packet`, with the wall clock read at `wallUs`. -/
def createPacket (streamId sequence : UInt32) (payloadSize : ℕ) (wallUs : UInt64) : Bytes :=
  packetBytes streamId sequence wallUs payloadSize

/-- `create_packet_fast`, with the cache of the calling thread. -/
def createPacketFast (cache : TimestampCache) (r : CacheReading) (streamId sequence : UInt32)
    (payloadSize : ℕ) : Bytes × TimestampCache :=
  let (timestampUs, cache) := cache.getTimestamp r
  (packetBytes streamId sequence timestampUs payloadSize, cache)

def parsePacket (packet : Bytes) : Option (UdpPacketHeader × Bytes) :=
  match UdpPacketHeader.fromBytes packet with
  | none => none
  | some header => some (header, packet.drop UdpPacketHeader.size)

@[simp] theorem length_packetBytes (streamId sequence : UInt32) (timestampUs : UInt64)
    (payloadSize : ℕ) :
    (packetBytes streamId sequence timestampUs payloadSize).length =
      UdpPacketHeader.size + payloadSize := by
  rw [packetBytes, List.length_append, length_toBytes, List.length_replicate]

theorem parsePacket_packetBytes (streamId sequence : UInt32) (timestampUs : UInt64)
    (payloadSize : ℕ) :
    parsePacket (packetBytes streamId sequence timestampUs payloadSize) =
      some (UdpPacketHeader.new streamId sequence timestampUs, List.replicate payloadSize 0) := by
  rw [parsePacket, packetBytes, fromBytes_toBytes]
  simp only [← length_toBytes (UdpPacketHeader.new streamId sequence timestampUs),
    List.drop_left]

/-! ### What a parser accepts -/

theorem toBeBytes_fromBeBytes {bs : Bytes} (h : bs.length = 4) :
    toBeBytes (fromBeBytes bs) = bs := by
  have hlt : BigEndian.decode bs < 256 ^ 4 := h ▸ BigEndian.decode_lt bs
  have hvalue : (fromBeBytes bs).toNat = BigEndian.decode bs := Nat.mod_eq_of_lt hlt
  rw [toBeBytes, hvalue, ← h, BigEndian.encode_decode]

theorem toBeBytes64_fromBeBytes64 {bs : Bytes} (h : bs.length = 8) :
    toBeBytes64 (fromBeBytes64 bs) = bs := by
  have hlt : BigEndian.decode bs < 256 ^ 8 := h ▸ BigEndian.decode_lt bs
  have hvalue : (fromBeBytes64 bs).toNat = BigEndian.decode bs := Nat.mod_eq_of_lt hlt
  rw [toBeBytes64, hvalue, ← h, BigEndian.encode_decode]

theorem toBeBytes_magic : toBeBytes rperf3UdpMagic = [0x52, 0x50, 0x46, 0x33] := by decide

theorem fromBeBytes_eq_magic_iff {bs : Bytes} (h : bs.length = 4) :
    fromBeBytes bs = rperf3UdpMagic ↔ bs = [0x52, 0x50, 0x46, 0x33] := by
  constructor
  · intro hmagic
    rw [← toBeBytes_fromBeBytes h, hmagic, toBeBytes_magic]
  · intro hbs
    rw [hbs, ← toBeBytes_magic, fromBeBytes_toBeBytes]

theorem length_take_four {bytes : Bytes} (h : UdpPacketHeader.size ≤ bytes.length) :
    (bytes.take 4).length = 4 := by
  rw [UdpPacketHeader.size] at h
  rw [List.length_take]
  omega

theorem fromBytes_isSome_iff (bytes : Bytes) :
    (UdpPacketHeader.fromBytes bytes).isSome ↔
      UdpPacketHeader.size ≤ bytes.length ∧ bytes.take 4 = [0x52, 0x50, 0x46, 0x33] := by
  unfold UdpPacketHeader.fromBytes
  split
  · next hshort => simp [Nat.not_le.mpr hshort]
  · next hlong =>
    have hlen := Nat.not_lt.mp hlong
    rw [← fromBeBytes_eq_magic_iff (length_take_four hlen)]
    dsimp only
    split
    · next hmagic => simp [hmagic]
    · next hmagic => simp [hlen, not_not.mp hmagic]

/-- Nothing of an accepted packet is lost: the four fields are the first twenty bytes. -/
theorem toBytes_of_fromBytes {bytes : Bytes} {header : UdpPacketHeader}
    (h : UdpPacketHeader.fromBytes bytes = some header) :
    header.toBytes = bytes.take UdpPacketHeader.size := by
  unfold UdpPacketHeader.fromBytes at h
  split at h
  · exact nomatch h
  · next hlong =>
    have hlen : 20 ≤ bytes.length := Nat.not_lt.mp hlong
    dsimp only at h
    split at h
    · exact nomatch h
    · have hm : (bytes.take 4).length = 4 := length_take_four hlen
      have hs : ((bytes.drop 4).take 4).length = 4 := by
        rw [List.length_take, List.length_drop]
        omega
      have hq : ((bytes.drop 8).take 4).length = 4 := by
        rw [List.length_take, List.length_drop]
        omega
      have ht : ((bytes.drop 12).take 8).length = 8 := by
        rw [List.length_take, List.length_drop]
        omega
      rw [← Option.some.inj h]
      simp only [UdpPacketHeader.toBytes, toBeBytes_fromBeBytes hm, toBeBytes_fromBeBytes hs,
        toBeBytes_fromBeBytes hq, toBeBytes64_fromBeBytes64 ht]
      rw [show UdpPacketHeader.size = 4 + (4 + (4 + 8)) from rfl, List.take_add, List.take_add,
        List.take_add, List.drop_drop, List.drop_drop]

theorem parsePacket_isSome_iff (packet : Bytes) :
    (parsePacket packet).isSome ↔
      UdpPacketHeader.size ≤ packet.length ∧ packet.take 4 = [0x52, 0x50, 0x46, 0x33] := by
  rw [← fromBytes_isSome_iff, parsePacket]
  cases UdpPacketHeader.fromBytes packet with
  | none => rfl
  | some header => rfl

theorem append_of_parsePacket {packet payload : Bytes} {header : UdpPacketHeader}
    (h : parsePacket packet = some (header, payload)) : header.toBytes ++ payload = packet := by
  unfold parsePacket at h
  split at h
  · exact nomatch h
  · next parsed hparsed =>
    obtain ⟨rfl, rfl⟩ := Prod.mk.inj (Option.some.inj h)
    rw [toBytes_of_fromBytes hparsed, List.take_append_drop]

/-- Built packets are parsed back to their fields, and a packet is accepted by its length and its
magic alone and is then its header followed by its payload. -/
theorem packetFormat :
    (∀ streamId sequence payloadSize wallUs,
      parsePacket (createPacket streamId sequence payloadSize wallUs) =
        some (⟨rperf3UdpMagic, streamId, sequence, wallUs⟩, List.replicate payloadSize 0)) ∧
    (∀ cache r streamId sequence payloadSize,
      parsePacket (createPacketFast cache r streamId sequence payloadSize).1 =
        some (⟨rperf3UdpMagic, streamId, sequence, (cache.getTimestamp r).1⟩,
          List.replicate payloadSize 0)) ∧
    ∀ packet, ((parsePacket packet).isSome ↔
        20 ≤ packet.length ∧ packet.take 4 = [0x52, 0x50, 0x46, 0x33]) ∧
      ∀ header payload, parsePacket packet = some (header, payload) →
        header.toBytes ++ payload = packet := by
  refine ⟨?_, ?_, ?_⟩
  · intro streamId sequence payloadSize wallUs
    exact parsePacket_packetBytes streamId sequence wallUs payloadSize
  · intro cache r streamId sequence payloadSize
    exact parsePacket_packetBytes streamId sequence (cache.getTimestamp r).1 payloadSize
  · intro packet
    exact ⟨parsePacket_isSome_iff packet, fun _ _ h => append_of_parsePacket h⟩

/-- A packet of stream 0, number 7, with one byte of payload. -/
theorem packetFormat_oneByte :
    (UdpPacketHeader.mk rperf3UdpMagic 0 7 258).toBytes ++ [9] =
      [0x52, 0x50, 0x46, 0x33, 0, 0, 0, 0, 0, 0, 0, 7, 0, 0, 0, 0, 0, 0, 1, 2, 9] :=
  (packetFormat.2.2 _).2 _ _ (by decide)

end Rperf3
