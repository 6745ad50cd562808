import Rperf3.Config
import Rperf3.Joint.Control
import Rperf3.Library.Lts
import Rperf3.OneWaySend
import Rperf3.ServerPacing
import Rperf3.UdpPacket

/-!
# One client and one server

The session as a state machine of two parties, the control connection between
them and the UDP network (`client.rs:520-935`, `server.rs:647-1382`). A program
counter says where a party is; `got` is what it has of the frame it is reading.
Clocks and cancellation decide when a loop is left, so leaving is always
possible; a loop is entered only when its duration is not zero. A receive that
the program calls without a timeout can only be left by receiving. A party sees
that the other has gone by the end of the stream only: writes that fail then, and
connections that break, are not modelled.
-/

namespace Rperf3.Joint
open Rperf3

inductive ClientPc where
  | sendSetup
  | readAck (got : Bytes)
  | readStart (got : Bytes)
  | bindUdp
  /-- `run_udp_send`, `send_one_way` or the threads of `send_one_way_with_offset` -/
  | udpSend
  /-- before the initialization packet of reverse mode -/
  | sendInit
  /-- `run_udp_receive`, with a timeout -/
  | udpReceive
  /-- `recv_one_way`: the loop condition, and its receive without a timeout -/
  | oneWayCheck
  | oneWayWait
  | tcpSend
  | tcpReceive
  | readResult (got : Bytes)
  | readDone (got : Bytes)
  | finished
  deriving DecidableEq

inductive ServerPc where
  | readSetup (got : Bytes)
  | writeAck (t : ServerTest)
  | writeStart (t : ServerTest)
  | bindUdp (t : ServerTest)
  /-- `send_udp_data`: the first receive, without a timeout -/
  | udpWaitFirst (t : ServerTest)
  | udpSend (t : ServerTest)
  /-- `receive_udp_data` or `recv_one_way_server`, with a timeout -/
  | udpReceive (t : ServerTest)
  | tcpSend (t : ServerTest)
  | tcpReceive (t : ServerTest)
  | writeResult
  | writeDone
  | finished
  deriving DecidableEq

structure ResultStats where
  bytesSent : ℕ
  bytesReceived : ℕ
  duration : F64
  bitsPerSecond : F64

/-- What a session depends on besides the client's configuration. `stats` is the first stream of
the collector at the end of a TCP test, `clock` what the server's clock shows when the receiving
of a one-way test begins, and `recvWorkers` how many threads receive it (one on macOS).
`unboundDrops` says whether a datagram that arrives at an unbound port is dropped by the host or
kept until the port is bound. -/
structure Env where
  port : UInt16
  cookie : String
  timestamp : ℕ
  stats : Option ResultStats
  clock : Instant
  recvWorkers : ℕ
  unboundDrops : Bool

def Env.ack (env : Env) : Message := .setupAck env.port env.cookie
def Env.startMsg (env : Env) : Message := .start env.timestamp

def ResultStats.message (st : ResultStats) : Message :=
  .resultOf 0 st.bytesSent st.bytesReceived st.duration st.bitsPerSecond none

structure State where
  client : ClientPc
  server : ServerPc
  toServer : Pipe
  toClient : Pipe
  serverBound : Bool
  /-- datagrams of the client on their way, and waiting in the server's socket -/
  inFlight : ℕ
  serverQueue : ℕ
  /-- datagrams of the server that the client has not received -/
  clientQueue : ℕ
  /-- whether the server was bound when the client handed over its first datagram -/
  firstDatagram : Option Bool
  /-- octets the client has recorded as received, and datagrams its test has received -/
  recorded : List Octet
  received : ℕ
  /-- messages the client has decoded after its data phase, and those the server has written -/
  decoded : List Message
  frames : List Message
  /-- reads and writes of the server's loop over TCP -/
  moved : ℕ
  /-- reads of the server's test, over TCP or UDP -/
  serverReads : ℕ
  deriving DecidableEq

def State.init : State :=
  { client := .sendSetup
    server := .readSetup []
    toServer := Pipe.empty
    toClient := Pipe.empty
    serverBound := false
    inFlight := 0
    serverQueue := 0
    clientQueue := 0
    firstDatagram := none
    recorded := []
    received := 0
    decoded := []
    frames := []
    moved := 0
    serverReads := 0 }

inductive Act where
  | go
  | read (k : ℕ)
  | transfer (k : ℕ)
  | leave

inductive Action where
  | client (a : Act)
  | server (a : Act)
  /-- a datagram arrives at the server's port -/
  | deliver

/-! ### The client -/

def State.clientClose (s : State) : State :=
  { s with client := .finished, toServer := s.toServer.close }

def State.sendDatagram (s : State) : State :=
  { s with
    inFlight := s.inFlight + 1
    firstDatagram := s.firstDatagram.or (some s.serverBound) }

def maxUdpPayload : ℕ := 65507

/-- The loop condition of the sender holds at first: the threads of `send_one_way_with_offset`
compare nanoseconds as `u64` (`client.rs:2137-2139`). -/
def sendLoopEntered (cfg : Config) : Prop :=
  if cfg.oneWay = .send ∧ 1 < cfg.parallel then offsetRunning 0 cfg.duration 0
  else 0 < cfg.duration

instance (cfg : Config) : Decidable (sendLoopEntered cfg) :=
  inferInstanceAs (Decidable (ite _ _ _))

/-- The data loop sends something: it is entered, the one-way senders can write their header and
the datagram is not too long for the network. -/
def sendable (cfg : Config) : Prop :=
  sendLoopEntered cfg ∧
    match cfg.oneWay with
    | .send => 8 ≤ cfg.bufferSize ∧ cfg.bufferSize ≤ maxUdpPayload
    | _ => UdpPacketHeader.size + payloadSizeFor cfg.bufferSize ≤ maxUdpPayload

instance (cfg : Config) : Decidable (sendable cfg) := by
  unfold sendable
  cases cfg.oneWay <;> exact inferInstance

/-- The data phase after `Start` (`client.rs:634-662`, `805-935`). -/
def clientDispatch (cfg : Config) : ClientPc :=
  match cfg.protocol with
  | .tcp => if cfg.reverse then .tcpReceive else .tcpSend
  | .udp => .bindUdp

def udpDispatch (cfg : Config) : ClientPc :=
  match cfg.oneWay with
  | .send => .udpSend
  | .receive => .oneWayCheck
  | .none => if cfg.reverse then .sendInit else .udpSend

/-! What the client does with what it gets of a frame. -/

def State.onAck (s : State) (p : Pipe) : FrameRead → State
  | .more got => { s with toClient := p, client := .readAck got }
  | .message (.ok (.setupAck _ _)) => { s with toClient := p, client := .readStart [] }
  | .message _ => State.clientClose { s with toClient := p }

def State.onStart (cfg : Config) (s : State) (p : Pipe) : FrameRead → State
  | .more got => { s with toClient := p, client := .readStart got }
  | .message (.ok (.start _)) => { s with toClient := p, client := clientDispatch cfg }
  | .message _ => State.clientClose { s with toClient := p }

def State.onResult (s : State) (p : Pipe) : FrameRead → State
  | .more got => { s with toClient := p, client := .readResult got }
  | .message m =>
    { s with
      toClient := p
      client := .readDone []
      decoded := s.decoded ++ m.toOption.toList }

def State.onDone (s : State) (p : Pipe) : FrameRead → State
  | .more got => { s with toClient := p, client := .readDone got }
  | .message m =>
    State.clientClose { s with
      toClient := p
      decoded := s.decoded ++ m.toOption.toList }

def clientStep (J : SerdeJson) (cfg : Config) (s : State) (a : Act) : Option State :=
  match s.client, a with
  | .sendSetup, .go =>
    match serializeMessage J cfg.setup with
    | .ok bytes =>
      some { s with client := .readAck [], toServer := s.toServer.write (frameOctets bytes) }
    | .error _ => some s.clientClose
  | .readAck got, .read k =>
    (readFrame J s.toClient got k).map fun r => s.onAck r.1 r.2
  | .readStart got, .read k =>
    (readFrame J s.toClient got k).map fun r => s.onStart cfg r.1 r.2
  | .bindUdp, .go => some { s with client := udpDispatch cfg }
  | .udpSend, .transfer _ => if sendable cfg then some s.sendDatagram else none
  | .udpSend, .leave => some s.clientClose
  | .sendInit, .go => some { s.sendDatagram with client := .udpReceive }
  | .udpReceive, .transfer _ =>
    if 0 < cfg.duration ∧ 0 < s.clientQueue then
      some { s with clientQueue := s.clientQueue - 1, received := s.received + 1 }
    else none
  | .udpReceive, .leave => some s.clientClose
  | .oneWayCheck, .go => if 0 < cfg.duration then some { s with client := .oneWayWait } else none
  | .oneWayCheck, .leave => some s.clientClose
  | .oneWayWait, .transfer _ =>
    if 0 < s.clientQueue then
      some { s with
        clientQueue := s.clientQueue - 1
        received := s.received + 1
        client := .oneWayCheck }
    else none
  | .tcpSend, .transfer k =>
    if 0 < cfg.duration ∧ k ≤ cfg.bufferSize then
      some { s with toServer := s.toServer.write (dataOctets k) }
    else none
  | .tcpSend, .leave => some { s with client := .readResult [] }
  | .tcpReceive, .transfer k =>
    if 0 < cfg.duration ∧ 0 < k ∧ k ≤ cfg.bufferSize ∧ k ≤ s.toClient.unread.length then
      some { s with
        toClient := s.toClient.advance k
        recorded := s.recorded ++ s.toClient.unread.take k }
    else none
  | .tcpReceive, .leave => some { s with client := .readResult [] }
  | .readResult got, .read k =>
    (readFrame J s.toClient got k).map fun r => s.onResult r.1 r.2
  | .readDone got, .read k =>
    (readFrame J s.toClient got k).map fun r => s.onDone r.1 r.2
  | _, _ => none

/-! ### The server -/

def State.serverClose (s : State) : State :=
  { s with server := .finished, toClient := s.toClient.close, serverBound := false }

/-- The data phase after `Start` (`server.rs:731-741`, `808-861`). -/
def serverDispatch (t : ServerTest) : ServerPc :=
  if t.udp then .bindUdp t else if t.reverse then .tcpSend t else .tcpReceive t

def serverUdpDispatch (t : ServerTest) : ServerPc :=
  match t.oneWay with
  | .send => .udpReceive t
  | .receive => .udpWaitFirst t
  | .none => if t.reverse then .udpWaitFirst t else .udpReceive t

/-- The server's loop over the datagrams of a test is entered. A one-way test has a deadline, which
must be an `Instant`, and its workers look at the clock only between the beginning and the end of
their receiving (`server.rs:1052`, `1629-1650`, `1798-1820`, `1888-1923`). -/
def receiveLoopEntered (env : Env) (t : ServerTest) : Prop :=
  if t.oneWay = .send then
    env.clock + t.duration ≤ instantMax ∧ (0 < t.duration ∨ 1 < env.recvWorkers)
  else 0 < t.duration

instance (env : Env) (t : ServerTest) : Decidable (receiveLoopEntered env t) :=
  inferInstanceAs (Decidable (ite _ _ _))

/-- Serializing a message and writing it; the handler ends when that fails. -/
def State.serverWrite (J : SerdeJson) (s : State) (m : Message) (next : State → State) : State :=
  match serializeMessage J m with
  | .ok bytes => next { s with toClient := s.toClient.write (frameOctets bytes) }
  | .error _ => s.serverClose

def State.onSetup (s : State) (p : Pipe) : FrameRead → State
  | .more got => { s with toServer := p, server := .readSetup got }
  | .message m =>
    match m.toOption.bind ServerTest.ofSetup with
    | some t => { s with toServer := p, server := .writeAck t }
    | none => State.serverClose { s with toServer := p }

def serverStep (J : SerdeJson) (env : Env) (s : State) (a : Act) : Option State :=
  match s.server, a with
  | .readSetup got, .read k =>
    (readFrame J s.toServer got k).map fun r => s.onSetup r.1 r.2
  | .writeAck t, .go =>
    some (s.serverWrite J env.ack fun s => { s with server := .writeStart t })
  | .writeStart t, .go =>
    some (s.serverWrite J env.startMsg fun s => { s with server := serverDispatch t })
  | .bindUdp t, .go => some { s with server := serverUdpDispatch t, serverBound := true }
  | .udpWaitFirst t, .transfer _ =>
    if 0 < s.serverQueue then
      some { s with serverQueue := s.serverQueue - 1, server := .udpSend t }
    else none
  | .udpSend t, .transfer _ =>
    if 0 < t.duration then some { s with clientQueue := s.clientQueue + 1 } else none
  | .udpSend _, .leave => some s.serverClose
  | .udpReceive t, .transfer _ =>
    if receiveLoopEntered env t ∧ 0 < s.serverQueue then
      some { s with serverQueue := s.serverQueue - 1, serverReads := s.serverReads + 1 }
    else none
  | .udpReceive _, .leave => some s.serverClose
  | .tcpSend t, .transfer k =>
    if 0 < t.duration then
      some { s with toClient := s.toClient.write (dataOctets k), moved := s.moved + 1 }
    else none
  | .tcpSend _, .leave => some { s with server := .writeResult }
  | .tcpReceive t, .transfer k =>
    if 0 < t.duration ∧ 0 < k ∧ k ≤ s.toServer.unread.length then
      some { s with
        toServer := s.toServer.advance k
        moved := s.moved + 1
        serverReads := s.serverReads + 1 }
    else none
  | .tcpReceive _, .leave => some { s with server := .writeResult }
  | .writeResult, .go =>
    match env.stats with
    | some st =>
      some (s.serverWrite J st.message fun s =>
        { s with server := .writeDone, frames := s.frames ++ [st.message] })
    | none =>
      -- no stream in the collector: this session has recorded nothing either
      if s.moved = 0 then some { s with server := .writeDone } else none
  | .writeDone, .go =>
    some (s.serverWrite J .done fun s =>
      State.serverClose { s with frames := s.frames ++ [.done] })
  | _, _ => none

/-! ### The session -/

def deliverStep (env : Env) (s : State) : Option State :=
  if s.inFlight = 0 then none
  else if s.serverBound then
    some { s with inFlight := s.inFlight - 1, serverQueue := s.serverQueue + 1 }
  else if env.unboundDrops then some { s with inFlight := s.inFlight - 1 }
  else none

def step (J : SerdeJson) (cfg : Config) (env : Env) (s : State) : Action → Option State
  | .client a => clientStep J cfg s a
  | .server a => serverStep J env s a
  | .deliver => deliverStep env s

def Reachable (J : SerdeJson) (cfg : Config) (env : Env) (s : State) : Prop :=
  Lts.Reachable (step J cfg env) State.init s

/-- `serde_json` carries the messages before the data phase. -/
structure Honest (J : SerdeJson) (cfg : Config) (env : Env) : Prop where
  setup : J.Carries cfg.setup
  ack : J.Carries env.ack
  start : J.Carries env.startMsg

end Rperf3.Joint
