import Rperf3.DetailedJson
import Rperf3.Protocol

/-!
# Control messages as JSON (`protocol.rs:69-126`)

What the derived `Serialize` and `Deserialize` of `Message` do, on JSON objects;
the derived reader takes arrays too, which nobody writes and which are left open
here. The variant is named by the field `type`, the other fields are those of the
variant. A reader takes the fields in any order, ignores names it does not know
and accepts an optional field that is missing; a name of the variant that occurs
twice is an error.
-/

namespace Rperf3
open Json Serde Framing

/-! ### Writing -/

inductive MessageTag where
  | setup
  | setupAck
  | start
  | interval
  | result
  | done
  | error
  deriving DecidableEq

namespace MessageTag

def name : MessageTag → String
  | .setup => "Setup"
  | .setupAck => "SetupAck"
  | .start => "Start"
  | .interval => "Interval"
  | .result => "Result"
  | .done => "Done"
  | .error => "Error"

def ofName (s : String) : Option MessageTag :=
  [setup, setupAck, start, interval, result, done, error].find? (fun tag => tag.name = s)

def fields : MessageTag → List String
  | .setup => ["version", "protocol", "duration", "bandwidth", "buffer_size", "parallel",
      "reverse", "one_way", "expected_pps"]
  | .setupAck => ["port", "cookie"]
  | .start => ["timestamp"]
  | .interval => ["stream_id", "start", "end", "bytes", "bits_per_second"]
  | .result => ["stream_id", "bytes_sent", "bytes_received", "duration", "bits_per_second",
      "retransmits", "packets_sent", "packets_received", "packet_loss", "jitter_ms",
      "out_of_order"]
  | .done => []
  | .error => ["message"]

end MessageTag

namespace Message

def tag : Message → MessageTag
  | .setup .. => .setup
  | .setupAck .. => .setupAck
  | .start .. => .start
  | .interval .. => .interval
  | .result .. => .result
  | .done => .done
  | .error .. => .error

/-- The fields of the variant; an option is written as null when it is empty. -/
def body : Message → List (String × Json)
  | .setup version protocol duration bandwidth bufferSize parallel reverse oneWay expectedPps =>
    [("version", u32 version), ("protocol", .str protocol), ("duration", nat duration),
      ("bandwidth", ofOption nat bandwidth), ("buffer_size", nat bufferSize),
      ("parallel", nat parallel), ("reverse", .bool reverse), ("one_way", ofOption .str oneWay),
      ("expected_pps", ofOption nat expectedPps)]
  | .setupAck port cookie => [("port", u16 port), ("cookie", .str cookie)]
  | .start timestamp => [("timestamp", nat timestamp)]
  | .interval streamId began finish bytes bitsPerSecond =>
    [("stream_id", nat streamId), ("start", .float began), ("end", .float finish),
      ("bytes", nat bytes), ("bits_per_second", .float bitsPerSecond)]
  | .result streamId bytesSent bytesReceived duration bitsPerSecond retransmits packetsSent
      packetsReceived packetLoss jitterMs outOfOrder =>
    [("stream_id", nat streamId), ("bytes_sent", nat bytesSent),
      ("bytes_received", nat bytesReceived), ("duration", .float duration),
      ("bits_per_second", .float bitsPerSecond), ("retransmits", ofOption nat retransmits),
      ("packets_sent", ofOption nat packetsSent),
      ("packets_received", ofOption nat packetsReceived),
      ("packet_loss", ofOption .float packetLoss), ("jitter_ms", ofOption .float jitterMs),
      ("out_of_order", ofOption nat outOfOrder)]
  | .done => []
  | .error message => [("message", .str message)]

def fields (m : Message) : List (String × Json) := ("type", .str m.tag.name) :: m.body

def serialize (m : Message) : Json := .obj m.fields

end Message

/-! ### Reading -/

def MessageTag.read (j : Json) : MessageTag → Option Message
  | .setup => do
    let version ← j.required asU32 "version"
    let protocol ← j.required asStr "protocol"
    let duration ← j.required (asBits 64) "duration"
    let bandwidth ← j.optional (asBits 64) "bandwidth"
    let bufferSize ← j.required (asBits 64) "buffer_size"
    let parallel ← j.required (asBits 64) "parallel"
    let reverse ← j.required asBool "reverse"
    let oneWay ← j.optional asStr "one_way"
    let expectedPps ← j.optional (asBits 64) "expected_pps"
    some (.setup version protocol duration bandwidth bufferSize parallel reverse oneWay expectedPps)
  | .setupAck => do
    let port ← j.required asU16 "port"
    let cookie ← j.required asStr "cookie"
    some (.setupAck port cookie)
  | .start => do
    let timestamp ← j.required (asBits 64) "timestamp"
    some (.start timestamp)
  | .interval => do
    let streamId ← j.required (asBits 64) "stream_id"
    let start ← j.required asFloat "start"
    let finish ← j.required asFloat "end"
    let bytes ← j.required (asBits 64) "bytes"
    let bitsPerSecond ← j.required asFloat "bits_per_second"
    some (.interval streamId start finish bytes bitsPerSecond)
  | .result => do
    let streamId ← j.required (asBits 64) "stream_id"
    let bytesSent ← j.required (asBits 64) "bytes_sent"
    let bytesReceived ← j.required (asBits 64) "bytes_received"
    let duration ← j.required asFloat "duration"
    let bitsPerSecond ← j.required asFloat "bits_per_second"
    let retransmits ← j.optional (asBits 64) "retransmits"
    let packetsSent ← j.optional (asBits 64) "packets_sent"
    let packetsReceived ← j.optional (asBits 64) "packets_received"
    let packetLoss ← j.optional asFloat "packet_loss"
    let jitterMs ← j.optional asFloat "jitter_ms"
    let outOfOrder ← j.optional (asBits 64) "out_of_order"
    some (.result streamId bytesSent bytesReceived duration bitsPerSecond retransmits packetsSent
      packetsReceived packetLoss jitterMs outOfOrder)
  | .done => some .done
  | .error => do
    let message ← j.required asStr "message"
    some (.error message)

def MessageTag.Once (tag : MessageTag) (given : List (String × Json)) : Prop :=
  ∀ name ∈ "type" :: tag.fields, (given.map Prod.fst).count name ≤ 1

instance (tag : MessageTag) : DecidablePred tag.Once := fun _ =>
  inferInstanceAs (Decidable (∀ name ∈ "type" :: tag.fields, _ ≤ 1))

/-- The derived reader on an object. -/
def Message.deserializeObject (given : List (String × Json)) : Option Message := do
  let name ← (Json.obj given).required asStr "type"
  let tag ← MessageTag.ofName name
  if tag.Once given then tag.read (.obj given) else none

/-! ### What can be represented -/

/-- The numbers fit the types of the source. -/
def Message.Representable : Message → Prop
  | .setup _ _ duration bandwidth bufferSize parallel _ _ expectedPps =>
    duration < 2 ^ 64 ∧ (∀ n ∈ bandwidth, n < 2 ^ 64) ∧ bufferSize < 2 ^ 64 ∧
      parallel < 2 ^ 64 ∧ ∀ n ∈ expectedPps, n < 2 ^ 64
  | .start timestamp => timestamp < 2 ^ 64
  | .interval streamId _ _ bytes _ => streamId < 2 ^ 64 ∧ bytes < 2 ^ 64
  | .result streamId bytesSent bytesReceived _ _ retransmits packetsSent packetsReceived _ _
      outOfOrder =>
    streamId < 2 ^ 64 ∧ bytesSent < 2 ^ 64 ∧ bytesReceived < 2 ^ 64 ∧
      (∀ n ∈ retransmits, n < 2 ^ 64) ∧ (∀ n ∈ packetsSent, n < 2 ^ 64) ∧
      (∀ n ∈ packetsReceived, n < 2 ^ 64) ∧ ∀ n ∈ outOfOrder, n < 2 ^ 64
  | .setupAck .. | .done | .error _ => True

theorem asBits_nat {n : ℕ} (h : n < 2 ^ 64) : (nat n).asBits 64 = some n := by
  exact asBits_int (w := 64) h

theorem asOption_nat {o : Option ℕ} (h : ∀ n ∈ o, n < 2 ^ 64) :
    (ofOption nat o).asOption (asBits 64) = some o := by
  cases o with
  | none => rfl
  | some n =>
    rw [ofOption, asOption_of_ne_null (fun hnull => Json.noConfusion hnull), asBits_nat (h n rfl)]
    rfl

theorem asOption_float (o : Option F64) : (ofOption .float o).asOption asFloat = some o :=
  asOption_ofOption asFloat_float (fun _ h => Json.noConfusion h) o

theorem asOption_str (o : Option String) : (ofOption .str o).asOption asStr = some o :=
  asOption_ofOption asStr_str (fun _ h => Json.noConfusion h) o

theorem ofName_name (tag : MessageTag) : MessageTag.ofName tag.name = some tag := by
  cases tag <;> decide

section Fields

variable {given : List (String × Json)} {name : String}

theorem required_nat {n : ℕ} (h : HasField given name (nat n)) (hn : n < 2 ^ 64) :
    (Json.obj given).required (asBits 64) name = some n :=
  (h.required (fun hnull => Json.noConfusion hnull) _).trans (asBits_nat hn)

theorem required_float {x : F64} (h : HasField given name (.float x)) :
    (Json.obj given).required asFloat name = some x :=
  h.required (fun hnull => Json.noConfusion hnull) _

theorem required_str {s : String} (h : HasField given name (.str s)) :
    (Json.obj given).required asStr name = some s :=
  h.required (fun hnull => Json.noConfusion hnull) _

theorem optional_nat {o : Option ℕ} (h : HasField given name (ofOption nat o))
    (ho : ∀ n ∈ o, n < 2 ^ 64) : (Json.obj given).optional (asBits 64) name = some o :=
  (h.optional _).trans (asOption_nat ho)

theorem optional_float {o : Option F64} (h : HasField given name (ofOption .float o)) :
    (Json.obj given).optional asFloat name = some o :=
  (h.optional _).trans (asOption_float o)

end Fields

theorem read_of_holds {m : Message} {given : List (String × Json)} (hm : m.Representable)
    (h : Holds given m.body) : m.tag.read (.obj given) = some m := by
  cases m with
  | setup version protocol duration bandwidth bufferSize parallel reverse oneWay expectedPps =>
    simp only [Message.body, Holds] at h
    obtain ⟨h1, h2, h3, h4, h5, h6, h7, h8, h9, -⟩ := h
    obtain ⟨hduration, hbandwidth, hbuffer, hparallel, hpps⟩ := hm
    have hversion : (Json.obj given).required asU32 "version" = some version :=
      (h1.required (fun hnull => Json.noConfusion hnull) _).trans (asU32_u32 version)
    have hreverse : (Json.obj given).required asBool "reverse" = some reverse :=
      h7.required (fun hnull => Json.noConfusion hnull) _
    have honeWay : (Json.obj given).optional asStr "one_way" = some oneWay :=
      (h8.optional _).trans (asOption_str oneWay)
    simp only [Message.tag, MessageTag.read, hversion, required_str h2,
      required_nat h3 hduration, optional_nat h4 hbandwidth, required_nat h5 hbuffer,
      required_nat h6 hparallel, hreverse, honeWay, optional_nat h9 hpps, Option.bind_eq_bind,
      Option.bind_some]
  | setupAck port cookie =>
    simp only [Message.body, Holds] at h
    obtain ⟨h1, h2, -⟩ := h
    have hport : (Json.obj given).required asU16 "port" = some port :=
      (h1.required (fun hnull => Json.noConfusion hnull) _).trans (asU16_u16 port)
    simp only [Message.tag, MessageTag.read, hport, required_str h2, Option.bind_eq_bind,
      Option.bind_some]
  | start timestamp =>
    simp only [Message.body, Holds] at h
    simp only [Message.tag, MessageTag.read, required_nat h.1 hm, Option.bind_eq_bind,
      Option.bind_some]
  | interval streamId began finish bytes bitsPerSecond =>
    simp only [Message.body, Holds] at h
    obtain ⟨h1, h2, h3, h4, h5, -⟩ := h
    simp only [Message.tag, MessageTag.read, required_nat h1 hm.1, required_float h2,
      required_float h3, required_nat h4 hm.2, required_float h5, Option.bind_eq_bind,
      Option.bind_some]
  | result streamId bytesSent bytesReceived duration bitsPerSecond retransmits packetsSent
      packetsReceived packetLoss jitterMs outOfOrder =>
    simp only [Message.body, Holds] at h
    obtain ⟨h1, h2, h3, h4, h5, h6, h7, h8, h9, h10, h11, -⟩ := h
    obtain ⟨hstream, hsent, hreceived, hretransmits, hpacketsSent, hpacketsReceived, horder⟩ := hm
    simp only [Message.tag, MessageTag.read, required_nat h1 hstream, required_nat h2 hsent,
      required_nat h3 hreceived, required_float h4, required_float h5,
      optional_nat h6 hretransmits, optional_nat h7 hpacketsSent,
      optional_nat h8 hpacketsReceived, optional_float h9, optional_float h10,
      optional_nat h11 horder, Option.bind_eq_bind, Option.bind_some]
  | done => rfl
  | error message =>
    simp only [Message.body, Holds] at h
    simp only [Message.tag, MessageTag.read, required_str h.1, Option.bind_eq_bind,
      Option.bind_some]

theorem representable_of_read {tag : MessageTag} {j : Json} {m : Message}
    (h : tag.read j = some m) : m.Representable ∧ m.tag = tag := by
  cases tag with
  | setup =>
    simp only [MessageTag.read, Option.bind_eq_bind, Option.bind_eq_some_iff] at h
    obtain ⟨version, -, protocol, -, duration, hduration, bandwidth, hbandwidth, bufferSize,
      hbuffer, parallel, hparallel, reverse, -, oneWay, -, expectedPps, hpps, hm⟩ := h
    cases hm
    exact ⟨⟨required_bits_lt hduration, optional_bits_lt hbandwidth, required_bits_lt hbuffer,
      required_bits_lt hparallel, optional_bits_lt hpps⟩, rfl⟩
  | setupAck =>
    simp only [MessageTag.read, Option.bind_eq_bind, Option.bind_eq_some_iff] at h
    obtain ⟨port, -, cookie, -, hm⟩ := h
    cases hm
    exact ⟨trivial, rfl⟩
  | start =>
    simp only [MessageTag.read, Option.bind_eq_bind, Option.bind_eq_some_iff] at h
    obtain ⟨timestamp, htimestamp, hm⟩ := h
    cases hm
    exact ⟨required_bits_lt htimestamp, rfl⟩
  | interval =>
    simp only [MessageTag.read, Option.bind_eq_bind, Option.bind_eq_some_iff] at h
    obtain ⟨streamId, hstream, began, -, finish, -, bytes, hbytes, bitsPerSecond, -, hm⟩ := h
    cases hm
    exact ⟨⟨required_bits_lt hstream, required_bits_lt hbytes⟩, rfl⟩
  | result =>
    simp only [MessageTag.read, Option.bind_eq_bind, Option.bind_eq_some_iff] at h
    obtain ⟨streamId, hstream, bytesSent, hsent, bytesReceived, hreceived, duration, -,
      bitsPerSecond, -, retransmits, hretransmits, packetsSent, hpacketsSent, packetsReceived,
      hpacketsReceived, packetLoss, -, jitterMs, -, outOfOrder, horder, hm⟩ := h
    cases hm
    exact ⟨⟨required_bits_lt hstream, required_bits_lt hsent, required_bits_lt hreceived,
      optional_bits_lt hretransmits, optional_bits_lt hpacketsSent,
      optional_bits_lt hpacketsReceived, optional_bits_lt horder⟩, rfl⟩
  | done =>
    cases h
    exact ⟨trivial, rfl⟩
  | error =>
    simp only [MessageTag.read, Option.bind_eq_bind, Option.bind_eq_some_iff] at h
    obtain ⟨message, -, hm⟩ := h
    cases hm
    exact ⟨trivial, rfl⟩

/-! ### Messages among peers -/

/-- An object that shows a message: all its fields, none of them twice. -/
structure ShowsMessage (given : List (String × Json)) (m : Message) : Prop where
  holds : Holds given m.fields
  once : m.tag.Once given

theorem deserialize_of_shows {m : Message} {given : List (String × Json)}
    (hm : m.Representable) (h : ShowsMessage given m) :
    Message.deserializeObject given = some m := by
  obtain ⟨htag, hbody⟩ := h.holds
  simp only [Message.deserializeObject, required_str htag, Option.bind_eq_bind, Option.bind_some,
    ofName_name, if_pos h.once, read_of_holds hm hbody]

theorem names_fields (m : Message) : m.fields.map Prod.fst = "type" :: m.tag.fields := by
  cases m <;> rfl

theorem nodup_names (tag : MessageTag) : ("type" :: tag.fields).Nodup := by
  cases tag <;> decide

theorem shows_fields (m : Message) : ShowsMessage m.fields m where
  holds := by
    refine holds_self ?_
    rw [names_fields]
    exact nodup_names m.tag
  once := by
    intro name _
    rw [names_fields]
    exact List.nodup_iff_count_le_one.mp (nodup_names m.tag) name

theorem representable_of_deserialize {given : List (String × Json)} {m : Message}
    (h : Message.deserializeObject given = some m) : m.Representable := by
  simp only [Message.deserializeObject, Option.bind_eq_bind, Option.bind_eq_some_iff] at h
  obtain ⟨name, -, tag, -, hread⟩ := h
  exact (representable_of_read (Option.ite_none_right_eq_some.mp hread).2).1

/-- A message is read back from every object that shows it, whatever the order of the fields, the
names a newer peer adds and the empty options an older one leaves out. What is read from an object
is a message of the source, and reading the object that is written for it gives it again. -/
theorem message_json :
    (∀ (m : Message) (given : List (String × Json)), m.Representable → ShowsMessage given m →
      Message.deserializeObject given = some m) ∧
    ∀ (given : List (String × Json)) (m : Message), Message.deserializeObject given = some m →
      m.Representable ∧
        ∃ written, m.serialize = .obj written ∧ Message.deserializeObject written = some m := by
  refine ⟨fun m given hm h => deserialize_of_shows hm h, fun given m h => ?_⟩
  have hm := representable_of_deserialize h
  exact ⟨hm, m.fields, rfl, deserialize_of_shows hm (shows_fields m)⟩

/-- A `Setup` of a peer that knows neither bandwidth nor one-way tests, and has a field more. -/
def olderSetup : List (String × Json) :=
  [("parallel", nat 1), ("type", .str "Setup"), ("reverse", .bool false),
    ("congestion", .str "bbr"), ("version", u32 1), ("protocol", .str "TCP"),
    ("duration", nat 10), ("buffer_size", nat 131072)]

theorem message_json_olderSetup :
    Message.deserializeObject olderSetup =
      some (.setup 1 "TCP" 10 none 131072 1 false none none) :=
  message_json.1 (.setup 1 "TCP" 10 none 131072 1 false none none) olderSetup
    ⟨by decide, by simp, by decide, by decide, by simp⟩
    { holds := ⟨.inl rfl, .inl rfl, .inl rfl, .inl rfl, .inr ⟨rfl, rfl⟩, .inl rfl, .inl rfl,
        .inl rfl, .inr ⟨rfl, rfl⟩, .inr ⟨rfl, rfl⟩, trivial⟩
      once := by decide }

/-! ### On the control connection -/

/-- The text layer of `serde_json`, and the derived reader on what is not an object. -/
structure JsonText where
  write : Json → Bytes
  parse : Bytes → Option Json
  readOther : Json → Option Message

def JsonText.deserialize (T : JsonText) : Json → Option Message
  | .obj given => Message.deserializeObject given
  | j => T.readOther j

/-- `serde_json` with the derived implementations. -/
def SerdeJson.derived (T : JsonText) : SerdeJson where
  toVec m := .ok (T.write m.serialize)
  fromSlice bytes :=
    match (T.parse bytes).bind T.deserialize with
    | some m => .ok m
    | none => .error (.json "invalid message")

/-- The text of a message is read back, and its length fits the prefix. -/
structure JsonText.Keeps (T : JsonText) (m : Message) : Prop where
  parse_write : T.parse (T.write m.serialize) = some m.serialize
  length : (T.write m.serialize).length < 2 ^ 32

theorem derived_carries {T : JsonText} {m : Message} (hm : m.Representable) (h : T.Keeps m) :
    (SerdeJson.derived T).Carries m := by
  refine ⟨T.write m.serialize, rfl, h.length, ?_⟩
  have hread : (T.parse (T.write m.serialize)).bind T.deserialize = some m := by
    rw [h.parse_write]
    exact deserialize_of_shows hm (shows_fields m)
  simp only [SerdeJson.derived, hread]

/-- Messages written one after the other with the derived implementations are read back in order,
however the connection cuts the bytes, and the reader stops where they end. -/
theorem messages_on_wire (T : JsonText) (ms : List Message) (hms : ∀ m ∈ ms, m.Representable)
    (hT : ∀ m ∈ ms, T.Keeps m) (trailing : Bytes) (reader : Source UInt8)
    (hreader : contents reader = ms.flatMap (wireBytes (.derived T)) ++ trailing) :
    (deserializeMessages (.derived T) ms.length reader).1 = ms.map .ok ∧
      contents (deserializeMessages (.derived T) ms.length reader).2 = trailing := by
  have hcarry : ∀ m ∈ ms, (SerdeJson.derived T).Carries m :=
    fun m hm => derived_carries (hms m hm) (hT m hm)
  obtain ⟨hread, hrest⟩ := deserializeMessages_contents (.derived T) ms.length reader
  rw [hreader, decodeMany_encode (wireBytes_delimits (.derived T)) ms hcarry trailing]
    at hread hrest
  exact ⟨hread, hrest⟩

end Rperf3
