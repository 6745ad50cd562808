import Rperf3.ClientLoops
import Rperf3.Joint.TcpFrames
import Rperf3.ServerLoops

/-!
# What a TCP test counts (`client.rs:1535-1763`, `server.rs:1151-1382`)

The session together with the collectors of its two parties: every read and
write of a data loop is recorded as the loop's body says. Data sent is data
received or still in the connection. In reverse mode the client may go on
reading after the data, and then it counts bytes of the server's last frames.
-/

namespace Rperf3.Joint
open Rperf3

variable {J : SerdeJson} {cfg : Config} {env : Env}

structure Measured where
  session : State
  client : MeasurementsCollector
  server : MeasurementsCollector

def clientRecords : ClientPc → Act → List CollectorCall
  | .tcpSend, .transfer k => ((Client.sendData.onIo k).map Transfer.calls).getD []
  | .tcpReceive, .transfer k => ((Client.receiveData.onIo k).map Transfer.calls).getD []
  | _, _ => []

def serverRecords : ServerPc → Act → List CollectorCall
  | .tcpSend _, .transfer k => ((sendData.onIo (UInt64.ofNat k)).map Prod.fst).getD []
  | .tcpReceive _, .transfer k => ((receiveData.onIo (UInt64.ofNat k)).map Prod.fst).getD []
  | _, _ => []

def Measured.record (s : Measured) (t : State) : Action → Measured
  | .client a =>
    { s with session := t, client := s.client.calls (clientRecords s.session.client a) }
  | .server a =>
    { s with session := t, server := s.server.calls (serverRecords s.session.server a) }
  | .deliver => { s with session := t }

def measuredStep (J : SerdeJson) (cfg : Config) (env : Env) (s : Measured) (a : Action) :
    Option Measured :=
  (step J cfg env s.session a).map fun t => s.record t a

/-! ### The calls of one step -/

section Calls

variable {c c' : MeasurementsCollector} {sent received : ℕ}

theorem grown_clientSend (k : ℕ) (h : Grown c c' sent received) :
    Grown c (c'.calls (clientRecords .tcpSend (.transfer k))) (sent + k) received :=
  h.trans (grown_calls c' (s := k) (r := 0) (UInt64.add_zero _) rfl)

theorem grown_clientReceive (k : ℕ) (h : Grown c c' sent received) :
    Grown c (c'.calls (clientRecords .tcpReceive (.transfer k))) sent (received + k) := by
  suffices hcalls : Grown c' (c'.calls (clientRecords .tcpReceive (.transfer k))) 0 k from
    h.trans hcalls
  unfold clientRecords Client.receiveData
  by_cases hk : k = 0
  · subst hk
    exact grown_refl c'
  · simp only [if_neg hk]
    exact grown_calls c' rfl (UInt64.add_zero _)

theorem grown_serverSend (t : ServerTest) (k : ℕ) (h : Grown c c' sent received) :
    Grown c (c'.calls (serverRecords (.tcpSend t) (.transfer k))) (sent + k) received :=
  h.trans (grown_calls c' (s := k) (r := 0) (UInt64.add_zero _) rfl)

theorem grown_serverReceive (t : ServerTest) (k : ℕ) (h : Grown c c' sent received) :
    Grown c (c'.calls (serverRecords (.tcpReceive t) (.transfer k))) sent (received + k) := by
  suffices hcalls : Grown c' (c'.calls (serverRecords (.tcpReceive t) (.transfer k))) 0 k from
    h.trans hcalls
  unfold serverRecords receiveData
  by_cases hk : UInt64.ofNat k = 0
  · simp only [if_pos hk]
    exact ⟨(UInt64.add_zero _).symm, by rw [hk]; exact (UInt64.add_zero _).symm⟩
  · simp only [if_neg hk]
    exact grown_calls c' rfl (UInt64.add_zero _)

end Calls

/-! ### The two streams -/

def ClientWrote (J : SerdeJson) (cfg : Config) (p : Pipe) : ClientPc → Prop
  | .sendSetup => p.sent = [] ∧ p.closed = false
  | _ => p.sent = frameOctets (wireBytes J cfg.setup) ++ dataOctets (dataWritten p)

/-- What the server has of it: the frame, `received` octets of data, and the rest is unread. -/
def ServerTook (J : SerdeJson) (cfg : Config) (p : Pipe) (received : ℕ) : ServerPc → Prop
  | .readSetup _ => received = 0
  | _ => frameOctets (wireBytes J cfg.setup) ++ dataOctets received ++ p.unread = p.sent

def ServerWrote (J : SerdeJson) (env : Env) (p : Pipe) (frames : List Message) : ServerPc → Prop
  | .readSetup _ | .writeAck _ | .writeStart _ => frames = [] ∧ dataWritten p = 0
  | .writeDone | .finished =>
    p.sent = handshakeOctets J env ++ dataOctets (dataWritten p) ++ framesOctets J frames
  | _ => frames = [] ∧ p.sent = handshakeOctets J env ++ dataOctets (dataWritten p)

/-- What the client has of it, as far as it has recorded it. -/
def ClientTook (J : SerdeJson) (env : Env) (p : Pipe) (recorded : List Octet) : ClientPc → Prop
  | .sendSetup | .readAck _ | .readStart _ => recorded = []
  | .tcpReceive => handshakeOctets J env ++ recorded ++ p.unread = p.sent
  | _ => handshakeOctets J env ++ recorded <+: p.sent

section Pipes

variable {p : Pipe} {frames : List Message} {recorded : List Octet} {received : ℕ}

theorem ServerTook.write (os : List Octet) {pc : ServerPc} (h : ServerTook J cfg p received pc) :
    ServerTook J cfg (p.write os) received pc := by
  cases pc with
  | readSetup got => exact h
  | _ =>
    show _ ++ (p.write os).unread = (p.write os).sent
    rw [unread_write, ← List.append_assoc, show _ ++ p.unread = p.sent from h]
    rfl

theorem ClientTook.write (os : List Octet) {pc : ClientPc} (h : ClientTook J env p recorded pc) :
    ClientTook J env (p.write os) recorded pc := by
  cases pc with
  | sendSetup => exact h
  | readAck got => exact h
  | readStart got => exact h
  | tcpReceive =>
    show _ ++ (p.write os).unread = (p.write os).sent
    rw [unread_write, ← List.append_assoc, show _ ++ p.unread = p.sent from h]
    rfl
  | _ => exact List.IsPrefix.trans h (List.prefix_append _ _)

theorem ServerTook.close {pc : ServerPc} (h : ServerTook J cfg p received pc) :
    ServerTook J cfg p.close received pc := by
  cases pc with
  | readSetup got => exact h
  | _ => exact h

theorem ClientTook.close {pc : ClientPc} (h : ClientTook J env p recorded pc) :
    ClientTook J env p.close recorded pc := by
  cases pc with
  | sendSetup => exact h
  | readAck got => exact h
  | readStart got => exact h
  | tcpReceive => exact h
  | _ => exact h

theorem dataWritten_write_data (p : Pipe) (k : ℕ) :
    dataWritten (p.write (dataOctets k)) = dataWritten p + k := by
  rw [dataWritten_write, countP_dataOctets]

theorem ServerWrote.start {t : ServerTest}
    (hack : p.sent = frameOctets (wireBytes J env.ack))
    (h : ServerWrote J env p frames (.writeStart t)) :
    ServerWrote J env (p.write (frameOctets (wireBytes J env.startMsg))) frames
      (serverDispatch t) := by
  have hsent : (p.write (frameOctets (wireBytes J env.startMsg))).sent =
      handshakeOctets J env ++
        dataOctets (dataWritten (p.write (frameOctets (wireBytes J env.startMsg)))) := by
    rw [dataWritten_write_frame, h.2]
    show p.sent ++ _ = handshakeOctets J env ++ []
    rw [hack, handshakeOctets, frameOctets_append, List.append_nil]
  unfold serverDispatch
  cases t.udp <;> cases t.reverse <;> exact ⟨h.1, hsent⟩

theorem ServerWrote.sendData {t : ServerTest} (h : ServerWrote J env p frames (.tcpSend t))
    (k : ℕ) : ServerWrote J env (p.write (dataOctets k)) frames (.tcpSend t) := by
  refine ⟨h.1, ?_⟩
  show p.sent ++ dataOctets k = _ ++ dataOctets (dataWritten (p.write _))
  rw [dataWritten_write_data, h.2, List.append_assoc, dataOctets, dataOctets, dataOctets,
    List.replicate_add]

/-- Before its report the server has written data only. -/
theorem ServerWrote.unreported
    (h : frames = [] ∧ p.sent = handshakeOctets J env ++ dataOctets (dataWritten p)) :
    p.sent = handshakeOctets J env ++ dataOctets (dataWritten p) ++ framesOctets J frames := by
  rw [h.1]
  exact h.2.trans (List.append_nil _).symm

/-- Reading on after the data loop takes nothing back of what was recorded. -/
theorem ClientTook.leave {pc : ClientPc} (h : ClientTook J env p recorded pc)
    (hpc : pc = .tcpSend ∨ pc = .tcpReceive) : handshakeOctets J env ++ recorded <+: p.sent := by
  rcases hpc with rfl | rfl
  · exact h
  · exact ⟨p.unread, h⟩

end Pipes

/-- Both directions of a TCP test; the server's data loop has read `received` octets. -/
structure Streams (J : SerdeJson) (cfg : Config) (env : Env) (received : ℕ) (s : State) :
    Prop where
  clientWrote : ClientWrote J cfg s.toServer s.client
  serverTook : ServerTook J cfg s.toServer received s.server
  serverWrote : ServerWrote J env s.toClient s.frames s.server
  clientTook : ClientTook J env s.toClient s.recorded s.client
  upward : cfg.reverse = true → dataWritten s.toServer = 0
  downward : cfg.reverse = false → dataWritten s.toClient = 0 ∧ s.recorded = []

theorem streams_init (J : SerdeJson) (cfg : Config) (env : Env) :
    Streams J cfg env 0 State.init where
  clientWrote := ⟨rfl, rfl⟩
  serverTook := rfl
  serverWrote := ⟨rfl, rfl⟩
  clientTook := rfl
  upward _ := rfl
  downward _ := ⟨rfl, rfl⟩

section Steps

variable {s s' : State} {received : ℕ}

/-! ### Places of a TCP test -/

def ClientPc.onTcp : ClientPc → Prop
  | .bindUdp | .udpSend | .sendInit | .udpReceive | .oneWayCheck | .oneWayWait => False
  | _ => True

def ServerPc.onTcp : ServerPc → Prop
  | .bindUdp _ | .udpWaitFirst _ | .udpSend _ | .udpReceive _ => False
  | _ => True

theorem tcp_ne_udp (htcp : cfg.protocol = .tcp) : cfg.protocol ≠ .udp := by
  rw [htcp]
  exact TestProtocol.noConfusion

theorem Session.client_onTcp (hS : Session J cfg env s) (htcp : cfg.protocol = .tcp) :
    s.client.onTcp := by
  have hfits := hS.clientFits
  cases hpc : s.client <;> rw [hpc] at hfits
  case bindUdp => exact tcp_ne_udp htcp hfits
  case udpSend | sendInit | udpReceive | oneWayCheck | oneWayWait =>
    exact tcp_ne_udp htcp hfits.1
  all_goals trivial

theorem Session.server_onTcp (hS : Session J cfg env s) (htcp : cfg.protocol = .tcp) :
    s.server.onTcp := by
  have hfits := hS.serverFits
  cases hpc : s.server <;> rw [hpc] at hfits
  case bindUdp t => exact tcp_ne_udp htcp hfits.2
  case udpWaitFirst t => exact tcp_ne_udp htcp hfits.2.1
  case udpSend t => exact tcp_ne_udp htcp hfits.2.1
  case udpReceive t => exact tcp_ne_udp htcp hfits.2.1
  all_goals trivial

/-! ### Steps of the client -/

theorem ClientWrote.next {p : Pipe} {pc pc' : ClientPc} (h : ClientWrote J cfg p pc)
    (hpc : pc ≠ .sendSetup) (hpc' : pc' ≠ .sendSetup) : ClientWrote J cfg p pc' := by
  have hsent : p.sent = frameOctets (wireBytes J cfg.setup) ++ dataOctets (dataWritten p) := by
    cases pc with
    | sendSetup => exact absurd rfl hpc
    | _ => exact h
  cases pc' with
  | sendSetup => exact absurd rfl hpc'
  | _ => exact hsent

theorem Streams.setup (h : Streams J cfg env received s) (hpc : s.client = .sendSetup) :
    Streams J cfg env received
      { s with
        client := .readAck []
        toServer := s.toServer.write (frameOctets (wireBytes J cfg.setup)) } := by
  have hwrote := h.clientWrote
  have htook := h.clientTook
  rw [hpc] at hwrote htook
  have hdata := dataWritten_write_frame s.toServer (wireBytes J cfg.setup)
  have hzero : dataWritten s.toServer = 0 := by
    rw [dataWritten, hwrote.1]
    rfl
  refine
    { h with
      clientWrote := ?_
      serverTook := h.serverTook.write _
      clientTook := htook
      upward := fun hr => hdata.trans (h.upward hr) }
  show s.toServer.sent ++ _ = _ ++ dataOctets (dataWritten (s.toServer.write _))
  rw [hdata, hzero, hwrote.1, List.nil_append]
  exact (List.append_nil _).symm

theorem Streams.tcpSent (hS : Session J cfg env s) (h : Streams J cfg env received s)
    (hpc : s.client = .tcpSend) (k : ℕ) :
    Streams J cfg env received { s with toServer := s.toServer.write (dataOctets k) } := by
  have hwrote := h.clientWrote
  have hfits := hS.clientFits
  rw [hpc] at hwrote hfits
  refine
    { h with
      clientWrote := ?_
      serverTook := h.serverTook.write _
      upward := fun hr => Bool.noConfusion (hfits.2.symm.trans hr) }
  show ClientWrote J cfg (s.toServer.write (dataOctets k)) s.client
  rw [hpc]
  show s.toServer.sent ++ dataOctets k = _ ++ dataOctets (dataWritten (s.toServer.write _))
  rw [dataWritten_write_data, show s.toServer.sent = _ from hwrote, List.append_assoc, dataOctets,
    dataOctets, dataOctets, List.replicate_add]

theorem Streams.tcpReceived (hS : Session J cfg env s) (h : Streams J cfg env received s)
    (hpc : s.client = .tcpReceive) (k : ℕ) :
    Streams J cfg env received
      { s with
        toClient := s.toClient.advance k
        recorded := s.recorded ++ s.toClient.unread.take k } := by
  have htook := h.clientTook
  have hfits := hS.clientFits
  rw [hpc] at htook hfits
  refine { h with clientTook := ?_, downward := fun hr => Bool.noConfusion (hr.symm.trans hfits.2) }
  show ClientTook J env (s.toClient.advance k) (s.recorded ++ s.toClient.unread.take k) s.client
  rw [hpc]
  show _ ++ (s.recorded ++ s.toClient.unread.take k) ++ (s.toClient.advance k).unread = _
  rw [unread_advance, List.append_assoc, List.append_assoc, List.take_append_drop,
    ← List.append_assoc]
  exact htook

theorem Streams.readAck (hJ : Honest J cfg env) (hS : Session J cfg env s)
    (h : Streams J cfg env received s) {got : Bytes} {k : ℕ} {p : Pipe} {r : FrameRead}
    (hpc : s.client = .readAck got) (hr : readFrame J s.toClient got k = some (p, r)) :
    Streams J cfg env received (s.onAck p r) := by
  have hcases := hS.readAck hJ hpc hr
  have hnone := h.clientTook
  rw [hpc] at hnone
  have hwrote : ∀ pc ≠ ClientPc.sendSetup, ClientWrote J cfg s.toServer pc :=
    fun pc hne => h.clientWrote.next (by rw [hpc]; exact ClientPc.noConfusion) hne
  obtain ⟨rfl, -⟩ := readFrame_advance hr
  rcases hcases with ⟨got', rfl, -⟩ | ⟨rfl, -⟩
  · exact { h with clientWrote := hwrote _ ClientPc.noConfusion, clientTook := hnone }
  · exact { h with clientWrote := hwrote _ ClientPc.noConfusion, clientTook := hnone }

theorem Streams.readStart (hJ : Honest J cfg env) (htcp : cfg.protocol = .tcp)
    (hS : Session J cfg env s) (h : Streams J cfg env received s) {got : Bytes} {k : ℕ} {p : Pipe}
    {r : FrameRead} (hpc : s.client = .readStart got)
    (hr : readFrame J s.toClient got k = some (p, r)) :
    Streams J cfg env received (s.onStart cfg p r) := by
  have hcases := hS.readStart hJ hpc hr
  have hnone := h.clientTook
  rw [hpc] at hnone
  have hwrote : ∀ pc ≠ ClientPc.sendSetup, ClientWrote J cfg s.toServer pc :=
    fun pc hne => h.clientWrote.next (by rw [hpc]; exact ClientPc.noConfusion) hne
  obtain ⟨rfl, -⟩ := readFrame_advance hr
  rcases hcases with ⟨got', rfl, -⟩ | ⟨rfl, hrest⟩
  · exact { h with clientWrote := hwrote _ ClientPc.noConfusion, clientTook := hnone }
  · have hbegin : handshakeOctets J env ++ s.recorded ++ (s.toClient.advance k).unread =
        (s.toClient.advance k).sent := by
      rw [show s.recorded = [] from hnone, List.append_nil]
      exact hrest
    have hdispatch : clientDispatch cfg = .tcpReceive ∨ clientDispatch cfg = .tcpSend := by
      unfold clientDispatch
      rw [htcp]
      cases cfg.reverse with
      | true => exact .inl rfl
      | false => exact .inr rfl
    refine { h with clientWrote := hwrote _ ?_, clientTook := ?_ }
    · show clientDispatch cfg ≠ _
      rcases hdispatch with hpc' | hpc' <;> rw [hpc'] <;> exact ClientPc.noConfusion
    · show ClientTook J env (s.toClient.advance k) s.recorded (clientDispatch cfg)
      rcases hdispatch with hpc' | hpc'
      · rw [hpc']
        exact hbegin
      · rw [hpc']
        exact ⟨_, hbegin⟩

theorem Streams.leaveTcp (h : Streams J cfg env received s)
    (hpc : s.client = .tcpSend ∨ s.client = .tcpReceive) :
    Streams J cfg env received { s with client := .readResult [] } := by
  refine { h with clientWrote := h.clientWrote.next ?_ ClientPc.noConfusion,
                  clientTook := h.clientTook.leave hpc }
  rcases hpc with hpc | hpc <;> rw [hpc] <;> exact ClientPc.noConfusion

theorem Streams.readResult (h : Streams J cfg env received s) {got : Bytes} {k : ℕ} {p : Pipe}
    {r : FrameRead} (hpc : s.client = .readResult got)
    (hr : readFrame J s.toClient got k = some (p, r)) :
    Streams J cfg env received (s.onResult p r) := by
  have htook := h.clientTook
  rw [hpc] at htook
  have hwrote : ∀ pc ≠ ClientPc.sendSetup, ClientWrote J cfg s.toServer pc :=
    fun pc hne => h.clientWrote.next (by rw [hpc]; exact ClientPc.noConfusion) hne
  obtain ⟨rfl, -⟩ := readFrame_advance hr
  cases r with
  | more got => exact { h with clientWrote := hwrote _ ClientPc.noConfusion, clientTook := htook }
  | message m => exact { h with clientWrote := hwrote _ ClientPc.noConfusion, clientTook := htook }

theorem Streams.readDone (h : Streams J cfg env received s) {got : Bytes} {k : ℕ} {p : Pipe}
    {r : FrameRead} (hpc : s.client = .readDone got)
    (hr : readFrame J s.toClient got k = some (p, r)) :
    Streams J cfg env received (s.onDone p r) := by
  have htook := h.clientTook
  rw [hpc] at htook
  have hwrote : ∀ pc ≠ ClientPc.sendSetup, ClientWrote J cfg s.toServer pc :=
    fun pc hne => h.clientWrote.next (by rw [hpc]; exact ClientPc.noConfusion) hne
  obtain ⟨rfl, -⟩ := readFrame_advance hr
  cases r with
  | more got => exact { h with clientWrote := hwrote _ ClientPc.noConfusion, clientTook := htook }
  | message m =>
    exact { h with clientWrote := hwrote .finished ClientPc.noConfusion,
                   serverTook := h.serverTook.close, clientTook := htook }

theorem streams_client (hJ : Honest J cfg env) (htcp : cfg.protocol = .tcp)
    (hS : Session J cfg env s) (h : Streams J cfg env received s) {a : Act}
    (hrule : ClientRule J cfg s a s') : Streams J cfg env received s' := by
  have hplace := hS.client_onTcp htcp
  cases hrule with
  | setup hpc => exact h.setup hpc
  | readAck hpc hr => exact h.readAck hJ hS hpc hr
  | readStart hpc hr => exact h.readStart hJ htcp hS hpc hr
  | bind hpc | datagram hpc | init hpc | udpReceived hpc | oneWayEnter hpc | oneWayReceived hpc =>
    rw [hpc] at hplace
    exact hplace.elim
  | leaveUdp hpc => rcases hpc with hpc | hpc | hpc <;> rw [hpc] at hplace <;> exact hplace.elim
  | tcpSent hpc => exact h.tcpSent hS hpc _
  | tcpReceived hpc hk => exact h.tcpReceived hS hpc _
  | leaveTcp hpc => exact h.leaveTcp hpc
  | readResult hpc hr => exact h.readResult hpc hr
  | readDone hpc hr => exact h.readDone hpc hr

/-! ### Steps of the server -/

theorem ServerTook.next {p : Pipe} {pc pc' : ServerPc} (h : ServerTook J cfg p received pc)
    (hpc : ∀ got, pc ≠ .readSetup got) (hpc' : ∀ got, pc' ≠ .readSetup got) :
    ServerTook J cfg p received pc' := by
  have hsent : frameOctets (wireBytes J cfg.setup) ++ dataOctets received ++ p.unread = p.sent := by
    cases pc with
    | readSetup got => exact absurd rfl (hpc got)
    | _ => exact h
  cases pc' with
  | readSetup got => exact absurd rfl (hpc' got)
  | _ => exact hsent

theorem Streams.unread_toServer (hS : Session J cfg env s) (h : Streams J cfg env received s) :
    dataWritten s.toServer = received + s.toServer.unread.countP Octet.data := by
  have htook := h.serverTook
  have hgot := hS.setupTaken
  unfold dataWritten
  cases hpc : s.server <;> rw [hpc] at htook hgot
  case readSetup got =>
    rw [← hgot.2, List.nil_append, List.countP_append, countP_frameOctets,
      show received = 0 from htook]
  all_goals
    rw [← show _ = s.toServer.sent from htook, List.countP_append, List.countP_append,
      countP_frameOctets, countP_dataOctets, Nat.zero_add]

theorem Streams.unread_data (h : Streams J cfg env received s) {t : ServerTest}
    (hpc : s.server = .tcpReceive t) :
    s.toServer.unread = dataOctets s.toServer.unread.length := by
  have htook := h.serverTook
  have hwrote := h.clientWrote
  rw [hpc] at htook
  have hstream : frameOctets (wireBytes J cfg.setup) ++ (dataOctets received ++ s.toServer.unread) =
      s.toServer.sent := by
    rw [← List.append_assoc]
    exact htook
  cases hclient : s.client <;> rw [hclient] at hwrote
  case sendSetup =>
    rw [hwrote.1] at hstream
    rw [(List.append_eq_nil_iff.mp (List.append_eq_nil_iff.mp hstream).2).2]
    rfl
  all_goals
    rw [show s.toServer.sent = _ from hwrote] at hstream
    have hdata := List.append_cancel_left hstream
    refine List.eq_replicate_iff.mpr ⟨rfl, fun o ho => ?_⟩
    exact List.eq_of_mem_replicate (hdata ▸ List.mem_append_right _ ho)

theorem Streams.readSetup (hJ : Honest J cfg env) (hS : Session J cfg env s)
    (h : Streams J cfg env received s) {got : Bytes} {k : ℕ} {p : Pipe} {r : FrameRead}
    (hpc : s.server = .readSetup got) (hr : readFrame J s.toServer got k = some (p, r)) :
    Streams J cfg env received (s.onSetup p r) := by
  have hgot := hS.setupTaken
  have htook := h.serverTook
  have hwrote := h.serverWrote
  have hclient := h.clientWrote
  rw [hpc] at hgot htook hwrote
  have hwritten : [] ++ frameOctets (wireBytes J cfg.setup) <+: s.toServer.sent ∨
      s.toServer.sent = [] ∧ s.toServer.closed = false := by
    cases hc : s.client <;> rw [hc] at hclient
    case sendSetup => exact .inr hclient
    all_goals exact .inl ⟨_, (show s.toServer.sent = _ from hclient).symm⟩
  have hcases := Gathering.read hJ.setup hgot hwritten hr
  obtain ⟨rfl, -⟩ := readFrame_advance hr
  have hwrote' : ClientWrote J cfg (s.toServer.advance k) s.client := by
    cases hc : s.client <;> rw [hc] at hclient <;> exact hclient
  rcases hcases with ⟨got', rfl, -⟩ | ⟨rfl, hrest⟩
  · exact { h with clientWrote := hwrote', serverTook := htook, serverWrote := hwrote }
  · rw [onSetup_setup]
    refine { h with clientWrote := hwrote', serverTook := ?_, serverWrote := hwrote }
    show _ ++ dataOctets received ++ _ = _
    rw [show received = 0 from htook]
    exact (congrArg (· ++ _) (List.append_nil _)).trans hrest

theorem Streams.start (hS : Session J cfg env s) (h : Streams J cfg env received s)
    {t : ServerTest} (hpc : s.server = .writeStart t) :
    Streams J cfg env received
      { s with
        toClient := s.toClient.write (frameOctets (wireBytes J env.startMsg))
        server := serverDispatch t } := by
  have hwrote := h.serverWrote
  have hack := hS.handshakeSent
  rw [hpc] at hwrote hack
  have hdata := dataWritten_write_frame s.toClient (wireBytes J env.startMsg)
  have hnew : ∀ got, serverDispatch t ≠ .readSetup got := by
    intro got
    unfold serverDispatch
    cases t.udp <;> cases t.reverse <;> exact ServerPc.noConfusion
  exact
    { h with
      serverTook := h.serverTook.next (by rw [hpc]; exact fun _ => ServerPc.noConfusion) hnew
      serverWrote := hwrote.start hack
      clientTook := h.clientTook.write _
      downward := fun hr => ⟨hdata.trans (h.downward hr).1, (h.downward hr).2⟩ }

theorem Streams.serverSent (hS : Session J cfg env s) (h : Streams J cfg env received s)
    {t : ServerTest} (hpc : s.server = .tcpSend t) (k : ℕ) :
    Streams J cfg env received
      { s with toClient := s.toClient.write (dataOctets k), moved := s.moved + 1 } := by
  have hwrote := h.serverWrote
  have hfits := hS.serverFits
  rw [hpc] at hwrote hfits
  refine
    { h with
      serverWrote := ?_
      clientTook := h.clientTook.write _
      downward := fun hr => Bool.noConfusion (hr.symm.trans hfits.2.2) }
  show ServerWrote J env (s.toClient.write (dataOctets k)) s.frames s.server
  rw [hpc]
  exact hwrote.sendData k

theorem Streams.serverReceived (h : Streams J cfg env received s) {t : ServerTest} {k : ℕ}
    (hpc : s.server = .tcpReceive t) (hk : k ≤ s.toServer.unread.length) :
    Streams J cfg env (received + k)
      { s with
        toServer := s.toServer.advance k
        moved := s.moved + 1
        serverReads := s.serverReads + 1 } := by
  have htook := h.serverTook
  have hdata := h.unread_data hpc
  rw [hpc] at htook
  have htaken : dataOctets k = s.toServer.unread.take k := by
    rw [hdata, dataOctets, dataOctets, List.take_replicate, Nat.min_eq_left hk]
  have hwrote' : ClientWrote J cfg (s.toServer.advance k) s.client := by
    have hclient := h.clientWrote
    cases hc : s.client <;> rw [hc] at hclient <;> exact hclient
  refine { h with clientWrote := hwrote', serverTook := ?_ }
  show ServerTook J cfg (s.toServer.advance k) (received + k) s.server
  rw [hpc]
  show _ ++ dataOctets (received + k) ++ (s.toServer.advance k).unread = s.toServer.sent
  rw [unread_advance, dataOctets, List.replicate_add, ← dataOctets, ← dataOctets, htaken,
    List.append_assoc, List.append_assoc, List.take_append_drop, ← List.append_assoc]
  exact htook

theorem sent_write_frame {p : Pipe} {frames : List Message}
    (h : p.sent = handshakeOctets J env ++ dataOctets (dataWritten p) ++ framesOctets J frames)
    (m : Message) :
    (p.write (frameOctets (wireBytes J m))).sent =
      handshakeOctets J env ++ dataOctets (dataWritten (p.write (frameOctets (wireBytes J m)))) ++
        framesOctets J (frames ++ [m]) := by
  rw [dataWritten_write_frame, framesOctets_append, framesOctets_singleton, ← List.append_assoc,
    ← h]
  rfl

def takenBy : ServerPc → Act → ℕ
  | .tcpReceive _, .transfer k => k
  | _, _ => 0

theorem streams_server (hJ : Honest J cfg env) (htcp : cfg.protocol = .tcp)
    (hS : Session J cfg env s) (h : Streams J cfg env received s) {a : Act}
    (hrule : ServerRule J env s a s') :
    Streams J cfg env (received + takenBy s.server a) s' := by
  have hplace := hS.server_onTcp htcp
  have hwrote := h.serverWrote
  have htook : ∀ pc : ServerPc, (∀ got, pc ≠ .readSetup got) →
      (∀ got, s.server ≠ .readSetup got) → ServerTook J cfg s.toServer received pc :=
    fun pc hpc' hpc => h.serverTook.next hpc hpc'
  cases hrule with
  | readSetup hpc hr =>
    rw [hpc]
    exact h.readSetup hJ hS hpc hr
  | ack hpc =>
    rw [hpc] at hwrote htook ⊢
    have hdata := dataWritten_write_frame s.toClient (wireBytes J env.ack)
    exact
      { h with
        serverTook := htook _ (fun _ => ServerPc.noConfusion) (fun _ => ServerPc.noConfusion)
        serverWrote := ⟨hwrote.1, hdata.trans hwrote.2⟩
        clientTook := h.clientTook.write _
        downward := fun hr => ⟨hdata.trans (h.downward hr).1, (h.downward hr).2⟩ }
  | start hpc =>
    rw [hpc]
    exact h.start hS hpc
  | bind hpc | first hpc | datagram hpc | received hpc =>
    rw [hpc] at hplace
    exact hplace.elim
  | leaveUdp hpc => rcases hpc with hpc | hpc <;> rw [hpc] at hplace <;> exact hplace.elim
  | @tcpSent t k hpc =>
    have htaken : takenBy s.server (.transfer k) = 0 := by
      rw [hpc]
      rfl
    rw [htaken]
    exact h.serverSent hS hpc k
  | @tcpReceived t k hpc hk =>
    have htaken : takenBy s.server (.transfer k) = k := by
      rw [hpc]
      rfl
    rw [htaken]
    exact h.serverReceived hpc hk
  | leaveTcp hpc =>
    rcases hpc with hpc | hpc
    · rw [hpc] at hwrote htook ⊢
      exact
        { h with
          serverTook := htook _ (fun _ => ServerPc.noConfusion) (fun _ => ServerPc.noConfusion)
          serverWrote := hwrote }
    · rw [hpc] at hwrote htook ⊢
      exact
        { h with
          serverTook := htook _ (fun _ => ServerPc.noConfusion) (fun _ => ServerPc.noConfusion)
          serverWrote := hwrote }
  | @result st hpc hst =>
    rw [hpc] at hwrote htook ⊢
    have hdata := dataWritten_write_frame s.toClient (wireBytes J st.message)
    exact
      { h with
        serverTook := htook _ (fun _ => ServerPc.noConfusion) (fun _ => ServerPc.noConfusion)
        serverWrote := sent_write_frame (ServerWrote.unreported hwrote) st.message
        clientTook := h.clientTook.write _
        downward := fun hr => ⟨hdata.trans (h.downward hr).1, (h.downward hr).2⟩ }
  | noResult hpc hst =>
    rw [hpc] at hwrote htook ⊢
    exact
      { h with
        serverTook := htook _ (fun _ => ServerPc.noConfusion) (fun _ => ServerPc.noConfusion)
        serverWrote := ServerWrote.unreported hwrote }
  | done hpc =>
    rw [hpc] at hwrote htook ⊢
    have hdata := dataWritten_write_frame s.toClient (wireBytes J .done)
    exact
      { h with
        serverTook := htook _ (fun _ => ServerPc.noConfusion) (fun _ => ServerPc.noConfusion)
        serverWrote := sent_write_frame hwrote .done
        clientTook := (h.clientTook.write _).close
        downward := fun hr => ⟨hdata.trans (h.downward hr).1, (h.downward hr).2⟩ }
  | resultFails hpc hst hfail =>
    rw [hpc] at hwrote htook ⊢
    exact
      { h with
        serverTook := htook _ (fun _ => ServerPc.noConfusion) (fun _ => ServerPc.noConfusion)
        serverWrote := ServerWrote.unreported hwrote
        clientTook := h.clientTook.close }
  | doneFails hpc hfail =>
    rw [hpc] at hwrote htook ⊢
    exact
      { h with
        serverTook := htook _ (fun _ => ServerPc.noConfusion) (fun _ => ServerPc.noConfusion)
        serverWrote := hwrote
        clientTook := h.clientTook.close }

/-! ### What the collectors count -/

theorem recorded_client {c m : MeasurementsCollector} (htcp : cfg.protocol = .tcp)
    (hS : Session J cfg env s) {a : Act} (hrule : ClientRule J cfg s a s')
    (h : Grown c m (dataWritten s.toServer) s.recorded.length) :
    Grown c (m.calls (clientRecords s.client a)) (dataWritten s'.toServer) s'.recorded.length ∧
      dataWritten s'.toClient = dataWritten s.toClient := by
  have hplace := hS.client_onTcp htcp
  cases hrule with
  | setup hpc =>
    rw [hpc]
    refine ⟨?_, rfl⟩
    show Grown c m (dataWritten (s.toServer.write _)) s.recorded.length
    rw [dataWritten_write_frame]
    exact h
  | @readAck got k p r hpc hr =>
    rw [hpc]
    obtain ⟨rfl, -⟩ := readFrame_advance hr
    rcases r with got' | ⟨e | m'⟩
    · exact ⟨h, rfl⟩
    · exact ⟨h, rfl⟩
    · cases m' <;> exact ⟨h, rfl⟩
  | @readStart got k p r hpc hr =>
    rw [hpc]
    obtain ⟨rfl, -⟩ := readFrame_advance hr
    rcases r with got' | ⟨e | m'⟩
    · exact ⟨h, rfl⟩
    · exact ⟨h, rfl⟩
    · cases m' <;> exact ⟨h, rfl⟩
  | bind hpc | datagram hpc | init hpc | udpReceived hpc | oneWayEnter hpc | oneWayReceived hpc =>
    rw [hpc] at hplace
    exact hplace.elim
  | leaveUdp hpc => rcases hpc with hpc | hpc | hpc <;> rw [hpc] at hplace <;> exact hplace.elim
  | @tcpSent k hpc =>
    rw [hpc]
    refine ⟨?_, rfl⟩
    show Grown c _ (dataWritten (s.toServer.write (dataOctets k))) s.recorded.length
    rw [dataWritten_write_data]
    exact grown_clientSend k h
  | @tcpReceived k hpc hk =>
    have hlen : (s.recorded ++ s.toClient.unread.take k).length = s.recorded.length + k := by
      rw [List.length_append, List.length_take, Nat.min_eq_left hk]
    rw [hpc]
    refine ⟨?_, rfl⟩
    show Grown c _ (dataWritten s.toServer) (s.recorded ++ s.toClient.unread.take k).length
    rw [hlen]
    exact grown_clientReceive k h
  | leaveTcp hpc => rcases hpc with hpc | hpc <;> rw [hpc] <;> exact ⟨h, rfl⟩
  | @readResult got k p r hpc hr =>
    rw [hpc]
    obtain ⟨rfl, -⟩ := readFrame_advance hr
    cases r <;> exact ⟨h, rfl⟩
  | @readDone got k p r hpc hr =>
    rw [hpc]
    obtain ⟨rfl, -⟩ := readFrame_advance hr
    cases r <;> exact ⟨h, rfl⟩

theorem onSetup_frame (s : State) (p : Pipe) (r : FrameRead) :
    dataWritten (s.onSetup p r).toServer = dataWritten p ∧
      dataWritten (s.onSetup p r).toClient = dataWritten s.toClient ∧
      (s.onSetup p r).recorded = s.recorded := by
  cases r with
  | more got => exact ⟨rfl, rfl, rfl⟩
  | message m =>
    unfold State.onSetup
    dsimp only
    split <;> exact ⟨rfl, rfl, rfl⟩

theorem recorded_server {d m : MeasurementsCollector} (htcp : cfg.protocol = .tcp)
    (hS : Session J cfg env s) {a : Act} (hrule : ServerRule J env s a s')
    (h : Grown d m (dataWritten s.toClient) received) :
    Grown d (m.calls (serverRecords s.server a)) (dataWritten s'.toClient)
        (received + takenBy s.server a) ∧
      dataWritten s'.toServer = dataWritten s.toServer ∧ s'.recorded = s.recorded := by
  have hplace := hS.server_onTcp htcp
  have hframe : ∀ bytes, Grown d m (dataWritten (s.toClient.write (frameOctets bytes))) received :=
    fun bytes => by
      rw [dataWritten_write_frame]
      exact h
  cases hrule with
  | @readSetup got k p r hpc hr =>
    obtain ⟨hup, hdown, hrecorded⟩ := onSetup_frame s p r
    obtain ⟨rfl, -⟩ := readFrame_advance hr
    rw [hpc, hdown]
    exact ⟨h, hup, hrecorded⟩
  | ack hpc =>
    rw [hpc]
    exact ⟨hframe _, rfl, rfl⟩
  | start hpc =>
    rw [hpc]
    exact ⟨hframe _, rfl, rfl⟩
  | bind hpc | first hpc | datagram hpc | received hpc =>
    rw [hpc] at hplace
    exact hplace.elim
  | leaveUdp hpc => rcases hpc with hpc | hpc <;> rw [hpc] at hplace <;> exact hplace.elim
  | @tcpSent t k hpc =>
    rw [hpc]
    refine ⟨?_, rfl, rfl⟩
    show Grown d _ (dataWritten (s.toClient.write (dataOctets k))) received
    rw [dataWritten_write_data]
    exact grown_serverSend t k h
  | @tcpReceived t k hpc hk =>
    rw [hpc]
    exact ⟨grown_serverReceive t k h, rfl, rfl⟩
  | leaveTcp hpc => rcases hpc with hpc | hpc <;> rw [hpc] <;> exact ⟨h, rfl, rfl⟩
  | result hpc =>
    rw [hpc]
    exact ⟨hframe _, rfl, rfl⟩
  | noResult hpc =>
    rw [hpc]
    exact ⟨h, rfl, rfl⟩
  | done hpc =>
    rw [hpc]
    exact ⟨hframe _, rfl, rfl⟩
  | resultFails hpc =>
    rw [hpc]
    exact ⟨h, rfl, rfl⟩
  | doneFails hpc =>
    rw [hpc]
    exact ⟨h, rfl, rfl⟩

end Steps

/-! ### Whole runs -/

structure Flow (J : SerdeJson) (cfg : Config) (env : Env) (c d : MeasurementsCollector)
    (received : ℕ) (s : Measured) : Prop where
  session : Session J cfg env s.session
  streams : Streams J cfg env received s.session
  client : Grown c s.client (dataWritten s.session.toServer) s.session.recorded.length
  server : Grown d s.server (dataWritten s.session.toClient) received

theorem flow_step {c d : MeasurementsCollector} {received : ℕ} {s s' : Measured} {a : Action}
    (hJ : Honest J cfg env) (htcp : cfg.protocol = .tcp) (h : Flow J cfg env c d received s)
    (hs : measuredStep J cfg env s a = some s') :
    ∃ received', Flow J cfg env c d received' s' := by
  obtain ⟨t, ht, rfl⟩ := Option.map_eq_some_iff.mp hs
  have hnext : Session J cfg env t := session_step hJ h.session ht
  cases a with
  | client a =>
    have hrule := clientStep_rule hJ.setup ht
    obtain ⟨hcounts, hdown⟩ := recorded_client htcp h.session hrule h.client
    refine ⟨received, hnext, streams_client hJ htcp h.session h.streams hrule, hcounts, ?_⟩
    show Grown d s.server (dataWritten t.toClient) received
    rw [hdown]
    exact h.server
  | server a =>
    have hrule := serverStep_rule hJ.ack hJ.start ht
    obtain ⟨hcounts, hup, hrecorded⟩ := recorded_server htcp h.session hrule h.server
    refine ⟨_, hnext, streams_server hJ htcp h.session h.streams hrule, ?_, hcounts⟩
    show Grown c s.client (dataWritten t.toServer) t.recorded.length
    rw [hup, hrecorded]
    exact h.client
  | deliver =>
    rcases (deliverStep_cases ht).2 with rfl | ⟨-, rfl⟩
    · exact ⟨received, hnext, { h.streams with }, h.client, h.server⟩
    · exact ⟨received, hnext, { h.streams with }, h.client, h.server⟩

theorem flow_reachable {c d : MeasurementsCollector} {s : Measured} (hJ : Honest J cfg env)
    (htcp : cfg.protocol = .tcp)
    (h : Lts.Reachable (measuredStep J cfg env) ⟨State.init, c, d⟩ s) :
    ∃ received, Flow J cfg env c d received s := by
  refine h.invariant (I := fun s => ∃ received, Flow J cfg env c d received s) ?_ ?_
  · exact ⟨0, session_init J cfg env, streams_init J cfg env, grown_refl c, grown_refl d⟩
  · rintro s a s' ⟨received, hflow⟩ _ hs
    exact flow_step hJ htcp hflow hs

theorem ServerWrote.sent {p : Pipe} {frames : List Message} {pc : ServerPc}
    (h : ServerWrote J env p frames pc) (hstarted : pc.started) :
    p.sent = handshakeOctets J env ++ (dataOctets (dataWritten p) ++ framesOctets J frames) := by
  cases pc with
  | readSetup got => exact hstarted.elim
  | writeAck t => exact hstarted.elim
  | writeStart t => exact hstarted.elim
  | writeDone => exact (show p.sent = _ from h).trans (List.append_assoc ..)
  | finished => exact (show p.sent = _ from h).trans (List.append_assoc ..)
  | _ => exact (ServerWrote.unreported h).trans (List.append_assoc ..)

/-- What has been recorded is the beginning of the data and the frames after it. -/
theorem Streams.recorded_prefix {received : ℕ} {s : State} (hJ : Honest J cfg env)
    (hS : Session J cfg env s) (h : Streams J cfg env received s) :
    s.recorded <+: dataOctets (dataWritten s.toClient) ++ framesOctets J s.frames := by
  have htook := h.clientTook
  have hwritten : s.client.started → s.toClient.sent = _ :=
    fun hclient => h.serverWrote.sent (hS.server_started hJ hclient)
  have hcancel : s.client.started → handshakeOctets J env ++ s.recorded <+: s.toClient.sent →
      s.recorded <+: dataOctets (dataWritten s.toClient) ++ framesOctets J s.frames := by
    intro hclient hpre
    rw [hwritten hclient] at hpre
    exact (List.prefix_append_right_inj _).mp hpre
  cases hpc : s.client <;> rw [hpc] at htook hcancel
  case sendSetup | readAck got | readStart got =>
    rw [show s.recorded = [] from htook]
    exact List.nil_prefix
  case tcpReceive => exact hcancel trivial ⟨s.toClient.unread, htook⟩
  all_goals exact hcancel trivial htook

/-- The bytes of a TCP test: the server's data loop has taken `received`, and the rest is where it
can be. -/
structure Accounted (J : SerdeJson) (cfg : Config) (c d : MeasurementsCollector) (s : Measured)
    (received : ℕ) : Prop where
  client : Grown c s.client (dataWritten s.session.toServer) s.session.recorded.length
  server : Grown d s.server (dataWritten s.session.toClient) received
  forward : dataWritten s.session.toServer =
    received + s.session.toServer.unread.countP Octet.data
  reverse : s.session.recorded <+:
    dataOctets (dataWritten s.session.toClient) ++ framesOctets J s.session.frames
  excess : s.session.recorded.length ≤
    dataWritten s.session.toClient + (framesOctets J s.session.frames).length
  inLoop : s.session.client = .tcpReceive →
    s.session.recorded.length + s.session.toClient.unread.length =
      dataWritten s.session.toClient + (framesOctets J s.session.frames).length
  onlyUp : cfg.reverse = false →
    dataWritten s.session.toClient = 0 ∧ s.session.recorded = []
  onlyDown : cfg.reverse = true → dataWritten s.session.toServer = 0 ∧ received = 0

/-- At every moment of a TCP test: in forward mode the server has counted what the client has
sent but for what is still unread; in reverse mode the client has counted the first octets of the
server's data and, behind them, of its frames. -/
theorem tcpBytes_conserved (hJ : Honest J cfg env) (htcp : cfg.protocol = .tcp)
    (c d : MeasurementsCollector) (s : Measured)
    (h : Lts.Reachable (measuredStep J cfg env) ⟨State.init, c, d⟩ s) :
    ∃ received, Accounted J cfg c d s received := by
  obtain ⟨received, hflow⟩ := flow_reachable hJ htcp h
  have hS := hflow.session
  have hstreams := hflow.streams
  have hunread := hstreams.unread_toServer hS
  have hprefix := hstreams.recorded_prefix hJ hS
  have hlen := hprefix.length_le
  rw [List.length_append, dataOctets, List.length_replicate] at hlen
  refine ⟨received, hflow.client, hflow.server, hunread, hprefix, hlen, fun hpc => ?_,
    hstreams.downward, fun hr => ?_⟩
  · have htook := hstreams.clientTook
    have hstarted := hS.server_started hJ (by rw [hpc]; trivial)
    rw [hpc] at htook
    have hsame := (show _ = s.session.toClient.sent from htook).trans
      (hstreams.serverWrote.sent hstarted)
    rw [List.append_assoc] at hsame
    have hlengths := congrArg List.length (List.append_cancel_left hsame)
    rwa [List.length_append, List.length_append, dataOctets, List.length_replicate] at hlengths
  · have hup := hstreams.upward hr
    exact ⟨hup, by omega⟩

/-- The reverse test whose client takes the two frames for data. -/
theorem tcpBytes_conserved_excess :
    ∃ s : Measured, s.session.recorded.length = 249 ∧
      ∃ received, Accounted (.ofTable sessionTexts) tcpReverseTest .new .new s received := by
  have hrun : (Lts.run (measuredStep (.ofTable sessionTexts) tcpReverseTest localEnv)
      (fun _ _ => True) ⟨State.init, .new, .new⟩
      (reverseRun ++ [.server .go, .client (.transfer 245)])).any
      (fun s => s.session.recorded.length = 249) = true := by decide +kernel
  obtain ⟨s, hs, hend⟩ := (Option.any_eq_true _ _).mp hrun
  exact ⟨s, of_decide_eq_true hend, tcpBytes_conserved tcpReverseTest_honest rfl .new .new s
    (Lts.Reach.start.run hs)⟩

end Rperf3.Joint
