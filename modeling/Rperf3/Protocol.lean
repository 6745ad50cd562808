import Rperf3.Library.Framing
import Rperf3.Primitive
import Mathlib.Data.List.Nodup

/-!
# Control messages and their framing (`protocol.rs`)

Messages travel on the control connection as a four-byte big-endian length
followed by that many bytes of JSON (`serialize_message`, `protocol.rs:355-362`).
The reader takes exactly four bytes, then exactly the announced length
(`deserialize_message`, `protocol.rs:393-407`). The JSON itself is produced and
parsed by `serde_json`, which is a parameter here.
-/

namespace Rperf3
open Framing

def protocolVersion : UInt32 := 1

/-- Protocol messages (`protocol.rs:71-126`). -/
inductive Message where
  | setup (version : UInt32) (protocol : String) (duration : ℕ) (bandwidth : Option ℕ)
      (bufferSize parallel : ℕ) (reverse : Bool) (oneWay : Option String)
      (expectedPps : Option ℕ)
  | setupAck (port : UInt16) (cookie : String)
  | start (timestamp : ℕ)
  | interval (streamId : ℕ) (start finish : F64) (bytes : ℕ) (bitsPerSecond : F64)
  | result (streamId bytesSent bytesReceived : ℕ) (duration bitsPerSecond : F64)
      (retransmits packetsSent packetsReceived : Option ℕ)
      (packetLoss jitterMs : Option F64) (outOfOrder : Option ℕ)
  | done
  | error (message : String)
  deriving DecidableEq

namespace Message

/-- `Message::setup_with_one_way` (`protocol.rs:173-194`); the duration is sent in whole
seconds. -/
def setupWithOneWay (protocol : String) (duration : Duration) (bandwidth : Option ℕ)
    (bufferSize parallel : ℕ) (reverse : Bool) (oneWay : Option String)
    (expectedPps : Option ℕ) : Message :=
  .setup protocolVersion protocol duration.asSecs bandwidth bufferSize parallel reverse oneWay
    expectedPps

/-- `Message::setup` (`protocol.rs:140-159`). -/
def setupPlain (protocol : String) (duration : Duration) (bandwidth : Option ℕ)
    (bufferSize parallel : ℕ) (reverse : Bool) : Message :=
  .setup protocolVersion protocol duration.asSecs bandwidth bufferSize parallel reverse none none

/-- `Message::result` (`protocol.rs:246-267`). -/
def resultOf (streamId bytesSent bytesReceived : ℕ) (duration bitsPerSecond : F64)
    (retransmits : Option ℕ) : Message :=
  .result streamId bytesSent bytesReceived duration bitsPerSecond retransmits none none none none
    none

end Message

structure SerdeJson where
  toVec : Message → Except Error Bytes
  fromSlice : Bytes → Except Error Message

def SerdeJson.Inverts (J : SerdeJson) : Prop :=
  ∀ m json, J.toVec m = .ok json → J.fromSlice json = .ok m

/-- Length prefix and JSON of one message; `json.len() as u32` keeps the low 32 bits. -/
def frame (json : Bytes) : Bytes := toBeBytes (UInt32.ofNat json.length) ++ json

/-- `serialize_message` (`protocol.rs:355-362`). -/
def serializeMessage (J : SerdeJson) (msg : Message) : Except Error Bytes :=
  match J.toVec msg with
  | .error e => .error e
  | .ok json => .ok (frame json)

/-- `deserialize_message` (`protocol.rs:393-407`) on a chunked reader. -/
def deserializeMessage (J : SerdeJson) : Decoder (Source UInt8) Error Message := fun reader =>
  match readExact 4 reader with
  | (none, reader) => (.error (.io .unexpectedEof), reader)
  | (some lenBytes, reader) =>
    match readExact (fromBeBytes lenBytes).toNat reader with
    | (none, reader) => (.error (.io .unexpectedEof), reader)
    | (some jsonBytes, reader) => (J.fromSlice jsonBytes, reader)

/-- `deserialize_message` on the bytes a reader will deliver. -/
def decodeFrame (J : SerdeJson) : Decoder Bytes Error Message := fun s =>
  if s.length < 4 then (.error (.io .unexpectedEof), [])
  else
    let len := (fromBeBytes (s.take 4)).toNat
    let body := s.drop 4
    if body.length < len then (.error (.io .unexpectedEof), [])
    else (J.fromSlice (body.take len), body.drop len)

/-- Chunk boundaries do not matter: the reader computes `decodeFrame` on its contents. -/
theorem deserializeMessage_follows (J : SerdeJson) :
    Follows contents (deserializeMessage J) (decodeFrame J) := by
  intro reader
  unfold deserializeMessage decodeFrame
  by_cases h4 : (contents reader).length < 4
  · rw [readExact_of_gt 4 reader h4, if_pos h4]
    exact ⟨rfl, rfl⟩
  · obtain ⟨hb, hr⟩ := readExact_of_le 4 reader (by omega)
    rcases he : readExact 4 reader with ⟨lenBytes, r⟩
    rw [he] at hb hr
    simp only at hb hr
    subst hb
    rw [if_neg h4]
    simp only
    rw [← hr]
    by_cases hl : (contents r).length < (fromBeBytes ((contents reader).take 4)).toNat
    · rw [readExact_of_gt _ r hl, if_pos hl]
      exact ⟨rfl, rfl⟩
    · obtain ⟨hb', hr'⟩ :=
        readExact_of_le (fromBeBytes ((contents reader).take 4)).toNat r (by omega)
      rcases he' : readExact (fromBeBytes ((contents reader).take 4)).toNat r with ⟨json, r'⟩
      rw [he'] at hb' hr'
      simp only at hb' hr'
      subst hb'
      rw [if_neg hl]
      exact ⟨rfl, hr'⟩

/-! ### The frame of one message -/

theorem length_frame (json : Bytes) : (frame json).length = 4 + json.length := by
  simp only [frame, List.length_append, length_toBeBytes]

theorem take_frame (json rest : Bytes) :
    (frame json ++ rest).take 4 = toBeBytes (UInt32.ofNat json.length) := by
  rw [frame, List.append_assoc]
  exact List.take_left' (length_toBeBytes _)

theorem drop_frame (json rest : Bytes) : (frame json ++ rest).drop 4 = json ++ rest := by
  rw [frame, List.append_assoc]
  exact List.drop_left' (length_toBeBytes _)

theorem announced_length (json : Bytes) (h : json.length < 2 ^ 32) :
    (UInt32.ofNat json.length).toNat = json.length :=
  UInt32.toNat_ofNat_of_lt h

theorem decodeFrame_frame (J : SerdeJson) (json rest : Bytes) (h : json.length < 2 ^ 32) :
    decodeFrame J (frame json ++ rest) = (J.fromSlice json, rest) := by
  have hl : (fromBeBytes ((frame json ++ rest).take 4)).toNat = json.length := by
    rw [take_frame, fromBeBytes_toBeBytes, announced_length json h]
  unfold decodeFrame
  rw [if_neg (by rw [List.length_append, length_frame]; omega)]
  simp only [hl, drop_frame]
  rw [if_neg (by rw [List.length_append]; omega), List.take_left, List.drop_left]

theorem decodeFrame_cut (J : SerdeJson) (json p : Bytes) (h : json.length < 2 ^ 32)
    (hp : p <+: frame json) (hne : p ≠ frame json) :
    decodeFrame J p = (.error (.io .unexpectedEof), []) := by
  obtain ⟨t, ht⟩ := hp
  have hlen : p.length + t.length = 4 + json.length := by
    rw [← List.length_append, ht, length_frame]
  have htpos : 0 < t.length := by
    refine List.length_pos_iff.mpr (fun hnil => hne ?_)
    rw [← ht, hnil, List.append_nil]
  unfold decodeFrame
  by_cases h4 : p.length < 4
  · rw [if_pos h4]
  · have htake : p.take 4 = toBeBytes (UInt32.ofNat json.length) := by
      have hf := take_frame json []
      rw [List.append_nil, ← ht, List.take_append_of_le_length (by omega)] at hf
      exact hf
    have hl : (fromBeBytes (p.take 4)).toNat = json.length := by
      rw [htake, fromBeBytes_toBeBytes, announced_length json h]
    rw [if_neg h4]
    simp only [hl]
    rw [if_pos (by rw [List.length_drop]; omega)]

/-- `m` has a JSON text of fewer than `2 ^ 32` bytes that parses back to `m`. -/
def SerdeJson.Carries (J : SerdeJson) (m : Message) : Prop :=
  ∃ json, J.toVec m = .ok json ∧ json.length < 2 ^ 32 ∧ J.fromSlice json = .ok m

/-- The bytes `serialize_message` writes for a message (none when it fails). -/
def wireBytes (J : SerdeJson) (m : Message) : Bytes :=
  match serializeMessage J m with
  | .ok bytes => bytes
  | .error _ => []

theorem serializeMessage_of_toVec {J : SerdeJson} {m : Message} {json : Bytes}
    (h : J.toVec m = .ok json) : serializeMessage J m = .ok (frame json) := by
  simp only [serializeMessage, h]

theorem wireBytes_of_toVec {J : SerdeJson} {m : Message} {json : Bytes}
    (h : J.toVec m = .ok json) : wireBytes J m = frame json := by
  simp only [wireBytes, serializeMessage_of_toVec h]

theorem wireBytes_delimits (J : SerdeJson) :
    Delimits (wireBytes J) (decodeFrame J) J.Carries where
  whole := by
    rintro m rest ⟨json, hto, hlen, hfrom⟩
    rw [wireBytes_of_toVec hto, decodeFrame_frame J json rest hlen, hfrom]
  cut := by
    rintro m p ⟨json, hto, hlen, hfrom⟩ hp hne
    rw [wireBytes_of_toVec hto] at hp hne
    exact ⟨_, decodeFrame_cut J json p hlen hp hne⟩
  nonempty := by
    rintro m ⟨json, hto, hlen, hfrom⟩ hnil
    have hl := congrArg List.length hnil
    rw [wireBytes_of_toVec hto, length_frame, List.length_nil] at hl
    omega

/-! ### `serde_json` on a finite table of messages -/

def utf8 (text : String) : Bytes := text.toUTF8.data.toList

/-- `serde_json` restricted to the messages of a table; anything else is an error. -/
def SerdeJson.ofTable (table : List (Message × Bytes)) : SerdeJson where
  toVec m :=
    match table.find? (fun e => e.1 = m) with
    | some e => .ok e.2
    | none => .error (.json "not in the table")
  fromSlice json :=
    match table.find? (fun e => e.2 = json) with
    | some e => .ok e.1
    | none => .error (.json "not in the table")

theorem ofTable_inverts (table : List (Message × Bytes)) (h : (table.map Prod.snd).Nodup) :
    (SerdeJson.ofTable table).Inverts := by
  intro m json hto
  simp only [SerdeJson.ofTable] at hto ⊢
  cases hf : table.find? (fun e => e.1 = m) with
  | none => simp [hf] at hto
  | some e =>
    have hjson : e.2 = json := by simpa [hf] using hto
    have hm : e.1 = m := by simpa using List.find?_some hf
    have hmem := List.mem_of_find?_eq_some hf
    cases hg : table.find? (fun e => e.2 = json) with
    | none => exact absurd hjson (by simpa using List.find?_eq_none.mp hg e hmem)
    | some e' =>
      have hj' : e'.2 = json := by simpa using List.find?_some hg
      have he : e' = e :=
        List.inj_on_of_nodup_map h (List.mem_of_find?_eq_some hg) hmem (hj'.trans hjson.symm)
      simp only [he, hm]

theorem ofTable_carries {table : List (Message × Bytes)} (hm : (table.map Prod.fst).Nodup)
    (hj : (table.map Prod.snd).Nodup) (hlen : ∀ e ∈ table, e.2.length < 2 ^ 32)
    {e : Message × Bytes} (he : e ∈ table) : (SerdeJson.ofTable table).Carries e.1 := by
  have hto : (SerdeJson.ofTable table).toVec e.1 = .ok e.2 := by
    simp only [SerdeJson.ofTable]
    cases hf : table.find? (fun x => x.1 = e.1) with
    | none => exact absurd (decide_eq_true rfl) (List.find?_eq_none.mp hf e he)
    | some x =>
      have hx : x.1 = e.1 := by simpa using List.find?_some hf
      rw [List.inj_on_of_nodup_map hm (List.mem_of_find?_eq_some hf) he hx]
  exact ⟨e.2, hto, hlen e he, ofTable_inverts table hj e.1 e.2 hto⟩

/-- The text of an object with these fields, as `serde_json` writes it. -/
def jsonObject (fields : List String) : Bytes :=
  utf8 "\x7b" ++ ((fields.map utf8).intersperse (utf8 ",")).flatten ++ utf8 "\x7d"

def startDoneTable : List (Message × Bytes) :=
  [(.start 7, utf8 "\x7b\"type\":\"Start\",\"timestamp\":7\x7d"),
    (.done, utf8 "\x7b\"type\":\"Done\"\x7d")]

/-! ### Streams of messages -/

def deserializeMessages (J : SerdeJson) (n : ℕ) (reader : Source UInt8) :
    List (Except Error Message) × Source UInt8 :=
  decodeMany (deserializeMessage J) n reader

theorem deserializeMessages_contents (J : SerdeJson) (n : ℕ) (reader : Source UInt8) :
    (deserializeMessages J n reader).1 = (decodeMany (decodeFrame J) n (contents reader)).1 ∧
      contents (deserializeMessages J n reader).2 =
        (decodeMany (decodeFrame J) n (contents reader)).2 :=
  decodeMany_follows (deserializeMessage_follows J) n reader

theorem mapM_serializeMessage (J : SerdeJson) (ms : List Message) (frames : List Bytes)
    (h : ms.mapM (serializeMessage J) = .ok frames) :
    frames = ms.map (wireBytes J) ∧ ∀ m ∈ ms, ∃ json, J.toVec m = .ok json := by
  induction ms generalizing frames with
  | nil =>
    have he : frames = [] := by simpa [List.mapM_nil, pure, Except.pure, eq_comm] using h
    subst he
    exact ⟨rfl, by simp⟩
  | cons m ms ih =>
    rw [List.mapM_cons] at h
    cases hm : J.toVec m with
    | error e => simp [serializeMessage, hm, bind, Except.bind] at h
    | ok json =>
      rw [serializeMessage_of_toVec hm] at h
      cases hms : ms.mapM (serializeMessage J) with
      | error e => simp [hms, bind, Except.bind] at h
      | ok rest =>
        have he : frames = frame json :: rest := by
          simpa [hms, bind, Except.bind, pure, Except.pure, eq_comm] using h
        obtain ⟨hrest, hto⟩ := ih rest hms
        subst he
        refine ⟨by rw [List.map_cons, wireBytes_of_toVec hm, hrest], ?_⟩
        intro x hx
        rcases List.mem_cons.mp hx with hx | hx
        · exact ⟨json, hx ▸ hm⟩
        · exact hto x hx

/-- Repeated `deserialize_message` undoes the concatenation of `serialize_message` outputs, for
every chunking of the reads, and stops at the first trailing byte. On a proper prefix it returns
the messages whose frames are complete and errors from then on. -/
theorem serializeMessage_stream_roundtrip (J : SerdeJson) (hJ : J.Inverts) (ms : List Message)
    (frames : List Bytes) (hser : ms.mapM (serializeMessage J) = .ok frames)
    (hlen : ∀ m ∈ ms, ∀ json, J.toVec m = .ok json → json.length < 2 ^ 32) :
    (∀ (trailing : Bytes) (reader : Source UInt8),
      contents reader = frames.flatten ++ trailing →
        (deserializeMessages J ms.length reader).1 = ms.map .ok ∧
        contents (deserializeMessages J ms.length reader).2 = trailing) ∧
    (∀ (p : Bytes) (reader : Source UInt8),
      p <+: frames.flatten → p ≠ frames.flatten → contents reader = p →
        ∃ k < ms.length, (frames.take k).flatten <+: p ∧
          p.length < (frames.take (k + 1)).flatten.length ∧
          ∀ n, ∃ es : List Error, es.length = n + 1 ∧
            (deserializeMessages J (k + (n + 1)) reader).1 =
              (ms.take k).map .ok ++ es.map .error) := by
  obtain ⟨hframes, hto⟩ := mapM_serializeMessage J ms frames hser
  have hcarry : ∀ m ∈ ms, J.Carries m := by
    intro m hm
    obtain ⟨json, hjson⟩ := hto m hm
    exact ⟨json, hjson, hlen m hm json hjson, hJ m json hjson⟩
  have hflat : frames.flatten = ms.flatMap (wireBytes J) := by
    rw [hframes, List.flatMap_def]
  have htake : ∀ k, (frames.take k).flatten = (ms.take k).flatMap (wireBytes J) := by
    intro k
    rw [hframes, ← List.map_take, List.flatMap_def]
  constructor
  · intro trailing reader hc
    obtain ⟨h1, h2⟩ := deserializeMessages_contents J ms.length reader
    rw [hc, hflat, decodeMany_encode (wireBytes_delimits J) ms hcarry trailing] at h1 h2
    exact ⟨h1, h2⟩
  · intro p reader hp hne hc
    rw [hflat] at hp hne
    obtain ⟨k, hk⟩ := exists_cutAfter ms p hp hne
    refine ⟨k, hk.1, by rw [htake]; exact hk.2.1, by rw [htake]; exact hk.2.2, ?_⟩
    intro n
    obtain ⟨es, hes, hdec⟩ := decodeMany_cut (wireBytes_delimits J) ms hcarry p hp k hk n
    refine ⟨es, hes, ?_⟩
    rw [(deserializeMessages_contents J _ reader).1, hc, hdec]

theorem serializeMessage_stream_roundtrip_startDone :
    (deserializeMessages (.ofTable startDoneTable) 2
        [⟨[0, 0, 0], by decide⟩,
          ⟨30 :: utf8 "\x7b\"type\":\"Start\",\"timestamp\"" ++ utf8 ":7", by decide⟩,
          ⟨utf8 "\x7d" ++ frame (utf8 "\x7b\"type\":\"Done\"\x7d") ++ [33], by decide⟩]).1 =
      [.ok (.start 7), .ok .done] :=
  ((serializeMessage_stream_roundtrip (.ofTable startDoneTable)
    (ofTable_inverts _ (by decide)) [.start 7, .done]
    [frame (utf8 "\x7b\"type\":\"Start\",\"timestamp\":7\x7d"),
      frame (utf8 "\x7b\"type\":\"Done\"\x7d")]
    (by decide)
    (by
      intro m hm json hto
      rcases List.mem_cons.mp hm with rfl | hm
      · cases hto
        decide
      · rcases List.mem_singleton.mp hm with rfl
        cases hto
        decide)).1 [33] _ (by decide)).1

end Rperf3
