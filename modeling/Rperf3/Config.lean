import Rperf3.Protocol

/-!
# Configuration (`config.rs`) and the `Setup` message made from it

The fields of `Config` that the client sends, and the test parameters the server
takes from a `Setup` message (`handle_tcp_client`, `server.rs:659-712`).
-/

namespace Rperf3

inductive TestProtocol where
  | tcp
  | udp
  deriving DecidableEq

/-- `Protocol::as_str`. -/
def TestProtocol.asStr : TestProtocol → String
  | .tcp => "Tcp"
  | .udp => "Udp"

inductive OneWayMode where
  | none
  | send
  | receive
  deriving DecidableEq

structure Config where
  protocol : TestProtocol
  duration : Duration
  bandwidth : Option ℕ
  bufferSize : ℕ
  parallel : ℕ
  reverse : Bool
  oneWay : OneWayMode
  expectedPps : Option ℕ
  deriving DecidableEq

/-- The `Setup` message of a client (`client.rs:567-595`, `756-785`). -/
def Config.setup (cfg : Config) : Message :=
  let (oneWayStr, expectedPps) :=
    match cfg.oneWay with
    | .send => (some "send", cfg.expectedPps)
    | .receive => (some "receive", cfg.expectedPps)
    | .none => (none, none)
  if oneWayStr.isSome then
    .setupWithOneWay cfg.protocol.asStr cfg.duration cfg.bandwidth cfg.bufferSize cfg.parallel
      cfg.reverse oneWayStr expectedPps
  else
    .setupPlain cfg.protocol.asStr cfg.duration cfg.bandwidth cfg.bufferSize cfg.parallel
      cfg.reverse

/-- What the server takes from a `Setup` message; `udp` is its test for UDP mode. -/
structure ServerTest where
  udp : Bool
  duration : Duration
  bandwidth : Option ℕ
  bufferSize : ℕ
  reverse : Bool
  oneWay : OneWayMode
  expectedPps : Option ℕ
  deriving DecidableEq

def ServerTest.ofSetup : Message → Option ServerTest
  | .setup _ protocol duration bandwidth bufferSize _ reverse oneWay expectedPps =>
    some
      { udp := protocol == "Udp"
        duration := Duration.fromSecs duration
        bandwidth := bandwidth
        bufferSize := bufferSize
        reverse := reverse
        oneWay :=
          match oneWay with
          | some "send" => .send
          | some "receive" => .receive
          | _ => .none
        expectedPps := expectedPps }
  | _ => none

/-- The server's view of a client's test: the duration in whole seconds, and the expected rate in
one-way modes only. -/
def Config.serverTest (cfg : Config) : ServerTest :=
  { udp := cfg.protocol = .udp
    duration := Duration.fromSecs cfg.duration.asSecs
    bandwidth := cfg.bandwidth
    bufferSize := cfg.bufferSize
    reverse := cfg.reverse
    oneWay := cfg.oneWay
    expectedPps := if cfg.oneWay = .none then none else cfg.expectedPps }

theorem ofSetup_setup (cfg : Config) : ServerTest.ofSetup cfg.setup = some cfg.serverTest := by
  obtain ⟨protocol, duration, bandwidth, bufferSize, parallel, reverse, oneWay, pps⟩ := cfg
  cases protocol <;> cases oneWay <;> rfl

end Rperf3
