import Rperf3.Config

/-!
# The server's configuration of a UDP test (`server.rs:648-712`)

`handle_tcp_client` reads the `Setup` message and, for UDP, hands a copy of its
own configuration with the client's parameters to `handle_udp_test`. The number
of parallel streams is bound to `_parallel` and not copied.
-/

namespace Rperf3
open Framing

/-- `udp_config`: the server's own configuration, overridden by the client's test. -/
def Config.forTest (config : Config) (t : ServerTest) : Config :=
  { config with
    duration := t.duration
    reverse := t.reverse
    bandwidth := t.bandwidth
    bufferSize := t.bufferSize
    oneWay := t.oneWay
    expectedPps := t.expectedPps }

/-- `handle_tcp_client` up to the call of `handle_udp_test`: the configuration it passes, or none
when the test is not a UDP test. -/
def udpConfigOf (J : SerdeJson) (config : Config) (reader : Source UInt8) :
    Except Error (Option Config) :=
  match (deserializeMessage J reader).1 with
  | .error e => .error e
  | .ok setupMsg =>
    match ServerTest.ofSetup setupMsg with
    | none => .error (.protocol "Expected Setup message")
    | some t => .ok (if t.udp then some (config.forTest t) else none)

/-- The parameters both sides have to agree on. -/
structure SameTest (client server : Config) : Prop where
  duration : server.duration = client.duration
  bandwidth : server.bandwidth = client.bandwidth
  bufferSize : server.bufferSize = client.bufferSize
  parallel : server.parallel = client.parallel
  reverse : server.reverse = client.reverse
  oneWay : server.oneWay = client.oneWay

def Duration.WholeSeconds (d : Duration) : Prop := 1000000000 ∣ d

instance (d : Duration) : Decidable d.WholeSeconds := inferInstanceAs (Decidable (_ ∣ _))

theorem fromSecs_asSecs_eq_iff (d : Duration) :
    Duration.fromSecs d.asSecs = d ↔ d.WholeSeconds := by
  unfold Duration.fromSecs Duration.asSecs Duration.WholeSeconds
  rw [Nat.dvd_iff_div_mul_eq]

theorem deserializeMessage_wireBytes {J : SerdeJson} {m : Message} (hJ : J.Carries m)
    {reader : Source UInt8} {rest : Bytes} (hread : contents reader = wireBytes J m ++ rest) :
    (deserializeMessage J reader).1 = .ok m := by
  rw [(deserializeMessage_follows J reader).1, hread, (wireBytes_delimits J).whole m rest hJ]

/-- Whatever the client asks for reaches the server, except its number of streams and the
fraction of a second of its duration. -/
theorem udpConfigOf_setup {J : SerdeJson} {client : Config} (server : Config)
    (hudp : client.protocol = .udp) (hJ : J.Carries client.setup)
    {reader : Source UInt8} {rest : Bytes}
    (hread : contents reader = wireBytes J client.setup ++ rest) :
    udpConfigOf J server reader = .ok (some (server.forTest client.serverTest)) := by
  have hmsg := deserializeMessage_wireBytes hJ hread
  have htrue : client.serverTest.udp = true := decide_eq_true hudp
  unfold udpConfigOf
  rw [hmsg]
  simp only [ofSetup_setup, htrue, if_true]

theorem sameTest_forTest_iff (client server : Config) :
    SameTest client (server.forTest client.serverTest) ↔
      client.duration.WholeSeconds ∧ client.parallel = server.parallel := by
  constructor
  · intro h
    exact ⟨(fromSecs_asSecs_eq_iff client.duration).mp h.duration, h.parallel.symm⟩
  · rintro ⟨hduration, hparallel⟩
    exact
      { duration := (fromSecs_asSecs_eq_iff client.duration).mpr hduration
        bandwidth := rfl
        bufferSize := rfl
        parallel := hparallel.symm
        reverse := rfl
        oneWay := rfl }

/-- Client and server run the same UDP test exactly when the duration is a whole number of
seconds and the server is configured with the client's number of streams. -/
theorem udpConfigOf_sameTest_iff (J : SerdeJson) (client server : Config)
    (hudp : client.protocol = .udp) (hJ : J.Carries client.setup)
    (reader : Source UInt8) (rest : Bytes)
    (hread : contents reader = wireBytes J client.setup ++ rest) :
    (∃ config, udpConfigOf J server reader = .ok (some config) ∧ SameTest client config) ↔
      client.duration.WholeSeconds ∧ client.parallel = server.parallel := by
  rw [← sameTest_forTest_iff, udpConfigOf_setup server hudp hJ hread]
  constructor
  · rintro ⟨config, hconfig, hsame⟩
    cases hconfig
    exact hsame
  · intro hsame
    exact ⟨_, rfl, hsame⟩

/-- A UDP client with four streams for one second, and a server with its defaults. -/
def fourStreams : Config :=
  { protocol := .udp
    duration := 1000000000
    bandwidth := none
    bufferSize := 1200
    parallel := 4
    reverse := false
    oneWay := .none
    expectedPps := none }

def defaultServer : Config :=
  { protocol := .tcp
    duration := 10000000000
    bandwidth := none
    bufferSize := 131072
    parallel := 1
    reverse := false
    oneWay := .none
    expectedPps := none }

def oneStream : Config := { fourStreams with parallel := 1 }

def setupTexts : List (Message × Bytes) :=
  [fourStreams, oneStream].map fun client => (client.setup, jsonObject
    ["\"type\":\"Setup\"", "\"version\":1", "\"protocol\":\"Udp\"", "\"duration\":1",
      "\"bandwidth\":null", "\"buffer_size\":1200",
      "\"parallel\":" ++ toString client.parallel, "\"reverse\":false", "\"one_way\":null",
      "\"expected_pps\":null"])

theorem setupTexts_carries {e : Message × Bytes} (he : e ∈ setupTexts) :
    (SerdeJson.ofTable setupTexts).Carries e.1 :=
  ofTable_carries (by decide +kernel) (by decide +kernel) (by decide +kernel) he

def oneChunk {J : SerdeJson} {m : Message} (hJ : J.Carries m) : Source UInt8 :=
  [⟨wireBytes J m, (wireBytes_delimits J).nonempty m hJ⟩]

theorem contents_oneChunk {J : SerdeJson} {m : Message} (hJ : J.Carries m) :
    contents (oneChunk hJ) = wireBytes J m ++ [] := rfl

theorem udpConfigOf_sameTest_iff_oneStream :
    (∃ config,
      udpConfigOf (.ofTable setupTexts) defaultServer
          (oneChunk (setupTexts_carries (.tail _ (.head _)) :
            (SerdeJson.ofTable setupTexts).Carries oneStream.setup)) = .ok (some config) ∧
      SameTest oneStream config) ↔
      oneStream.duration.WholeSeconds ∧ oneStream.parallel = defaultServer.parallel :=
  udpConfigOf_sameTest_iff _ _ _ rfl (setupTexts_carries (.tail _ (.head _))) _ []
    (contents_oneChunk _)

/-- The server runs the four-stream client's test with one stream. -/
theorem fourStreams_not_sameTest :
    ¬ ∀ (J : SerdeJson) (client server : Config), client.protocol = .udp →
      J.Carries client.setup → ∀ (reader : Source UInt8) (rest : Bytes),
      contents reader = wireBytes J client.setup ++ rest →
      ∃ config, udpConfigOf J server reader = .ok (some config) ∧ SameTest client config := by
  intro h
  have hJ : (SerdeJson.ofTable setupTexts).Carries fourStreams.setup :=
    setupTexts_carries (.head _)
  have hread := udpConfigOf_setup defaultServer rfl hJ (contents_oneChunk hJ)
  obtain ⟨config, hconfig, hsame⟩ :=
    h _ fourStreams defaultServer rfl hJ _ [] (contents_oneChunk hJ)
  rw [hread] at hconfig
  cases hconfig
  exact absurd hsame.parallel (by decide)

end Rperf3
