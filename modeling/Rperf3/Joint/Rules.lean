import Rperf3.Joint.Machine

/-!
# The steps of a session as rules

What a step of the client, of the server and of the network can be: where the
party was, and what becomes of the state.
-/

namespace Rperf3.Joint
open Rperf3

variable {J : SerdeJson} {cfg : Config} {env : Env} {s s' : State}

theorem serializeMessage_carries {m : Message} (hm : J.Carries m) :
    serializeMessage J m = .ok (wireBytes J m) := by
  obtain ⟨json, hto, -, -⟩ := hm
  rw [wireBytes_of_toVec hto, serializeMessage_of_toVec hto]

inductive ClientRule (J : SerdeJson) (cfg : Config) (s : State) : Act → State → Prop
  | setup (hpc : s.client = .sendSetup) :
    ClientRule J cfg s .go
      { s with
        client := .readAck []
        toServer := s.toServer.write (frameOctets (wireBytes J cfg.setup)) }
  | readAck {got k p r} (hpc : s.client = .readAck got)
    (hr : readFrame J s.toClient got k = some (p, r)) :
    ClientRule J cfg s (.read k) (s.onAck p r)
  | readStart {got k p r} (hpc : s.client = .readStart got)
    (hr : readFrame J s.toClient got k = some (p, r)) :
    ClientRule J cfg s (.read k) (s.onStart cfg p r)
  | bind (hpc : s.client = .bindUdp) :
    ClientRule J cfg s .go { s with client := udpDispatch cfg }
  | datagram {k} (hpc : s.client = .udpSend) (hs : sendable cfg) :
    ClientRule J cfg s (.transfer k) s.sendDatagram
  | init (hpc : s.client = .sendInit) :
    ClientRule J cfg s .go { s.sendDatagram with client := .udpReceive }
  | udpReceived {k} (hpc : s.client = .udpReceive) :
    ClientRule J cfg s (.transfer k)
      { s with clientQueue := s.clientQueue - 1, received := s.received + 1 }
  | oneWayEnter (hpc : s.client = .oneWayCheck) :
    ClientRule J cfg s .go { s with client := .oneWayWait }
  | oneWayReceived {k} (hpc : s.client = .oneWayWait) :
    ClientRule J cfg s (.transfer k)
      { s with
        clientQueue := s.clientQueue - 1
        received := s.received + 1
        client := .oneWayCheck }
  | leaveUdp (hpc : s.client = .udpSend ∨ s.client = .udpReceive ∨ s.client = .oneWayCheck) :
    ClientRule J cfg s .leave s.clientClose
  | tcpSent {k} (hpc : s.client = .tcpSend) :
    ClientRule J cfg s (.transfer k) { s with toServer := s.toServer.write (dataOctets k) }
  | tcpReceived {k} (hpc : s.client = .tcpReceive) (hk : k ≤ s.toClient.unread.length) :
    ClientRule J cfg s (.transfer k)
      { s with
        toClient := s.toClient.advance k
        recorded := s.recorded ++ s.toClient.unread.take k }
  | leaveTcp (hpc : s.client = .tcpSend ∨ s.client = .tcpReceive) :
    ClientRule J cfg s .leave { s with client := .readResult [] }
  | readResult {got k p r} (hpc : s.client = .readResult got)
    (hr : readFrame J s.toClient got k = some (p, r)) :
    ClientRule J cfg s (.read k) (s.onResult p r)
  | readDone {got k p r} (hpc : s.client = .readDone got)
    (hr : readFrame J s.toClient got k = some (p, r)) :
    ClientRule J cfg s (.read k) (s.onDone p r)

inductive ServerRule (J : SerdeJson) (env : Env) (s : State) : Act → State → Prop
  | readSetup {got k p r} (hpc : s.server = .readSetup got)
    (hr : readFrame J s.toServer got k = some (p, r)) :
    ServerRule J env s (.read k) (s.onSetup p r)
  | ack {t} (hpc : s.server = .writeAck t) :
    ServerRule J env s .go
      { s with
        toClient := s.toClient.write (frameOctets (wireBytes J env.ack))
        server := .writeStart t }
  | start {t} (hpc : s.server = .writeStart t) :
    ServerRule J env s .go
      { s with
        toClient := s.toClient.write (frameOctets (wireBytes J env.startMsg))
        server := serverDispatch t }
  | bind {t} (hpc : s.server = .bindUdp t) :
    ServerRule J env s .go { s with server := serverUdpDispatch t, serverBound := true }
  | first {t k} (hpc : s.server = .udpWaitFirst t) (hq : 0 < s.serverQueue) :
    ServerRule J env s (.transfer k)
      { s with serverQueue := s.serverQueue - 1, server := .udpSend t }
  | datagram {t k} (hpc : s.server = .udpSend t) :
    ServerRule J env s (.transfer k) { s with clientQueue := s.clientQueue + 1 }
  | received {t k} (hpc : s.server = .udpReceive t) (hloop : receiveLoopEntered env t) :
    ServerRule J env s (.transfer k)
      { s with serverQueue := s.serverQueue - 1, serverReads := s.serverReads + 1 }
  | leaveUdp {t} (hpc : s.server = .udpSend t ∨ s.server = .udpReceive t) :
    ServerRule J env s .leave s.serverClose
  | tcpSent {t k} (hpc : s.server = .tcpSend t) :
    ServerRule J env s (.transfer k)
      { s with toClient := s.toClient.write (dataOctets k), moved := s.moved + 1 }
  | tcpReceived {t k} (hpc : s.server = .tcpReceive t) (hk : k ≤ s.toServer.unread.length) :
    ServerRule J env s (.transfer k)
      { s with
        toServer := s.toServer.advance k
        moved := s.moved + 1
        serverReads := s.serverReads + 1 }
  | leaveTcp {t} (hpc : s.server = .tcpSend t ∨ s.server = .tcpReceive t) :
    ServerRule J env s .leave { s with server := .writeResult }
  | result {st} (hpc : s.server = .writeResult) (hst : env.stats = some st) :
    ServerRule J env s .go
      { s with
        toClient := s.toClient.write (frameOctets (wireBytes J st.message))
        server := .writeDone
        frames := s.frames ++ [st.message] }
  | noResult (hpc : s.server = .writeResult) (hst : env.stats = none) :
    ServerRule J env s .go { s with server := .writeDone }
  | done (hpc : s.server = .writeDone) :
    ServerRule J env s .go
      (State.serverClose
        { s with
          toClient := s.toClient.write (frameOctets (wireBytes J .done))
          frames := s.frames ++ [.done] })
  | resultFails {st} (hpc : s.server = .writeResult) (hst : env.stats = some st)
    (hfail : ¬ J.Carries st.message) :
    ServerRule J env s .go s.serverClose
  | doneFails (hpc : s.server = .writeDone) (hfail : ¬ J.Carries .done) :
    ServerRule J env s .go s.serverClose

theorem clientStep_rule (hJ : J.Carries cfg.setup) {a : Act}
    (h : clientStep J cfg s a = some s') : ClientRule J cfg s a s' := by
  unfold clientStep at h
  split at h
  next hpc =>
    rw [serializeMessage_carries hJ] at h
    cases h
    exact .setup hpc
  next got k hpc =>
    obtain ⟨r, hr, rfl⟩ := Option.map_eq_some_iff.mp h
    exact .readAck hpc hr
  next got k hpc =>
    obtain ⟨r, hr, rfl⟩ := Option.map_eq_some_iff.mp h
    exact .readStart hpc hr
  next hpc =>
    cases h
    exact .bind hpc
  next k hpc =>
    obtain ⟨hs, hs'⟩ := Option.ite_none_right_eq_some.mp h
    cases hs'
    exact .datagram hpc hs
  next hpc =>
    cases h
    exact .leaveUdp (.inl hpc)
  next hpc =>
    cases h
    exact .init hpc
  next k hpc =>
    obtain ⟨-, hs'⟩ := Option.ite_none_right_eq_some.mp h
    cases hs'
    exact .udpReceived hpc
  next hpc =>
    cases h
    exact .leaveUdp (.inr (.inl hpc))
  next hpc =>
    obtain ⟨-, hs'⟩ := Option.ite_none_right_eq_some.mp h
    cases hs'
    exact .oneWayEnter hpc
  next hpc =>
    cases h
    exact .leaveUdp (.inr (.inr hpc))
  next k hpc =>
    obtain ⟨-, hs'⟩ := Option.ite_none_right_eq_some.mp h
    cases hs'
    exact .oneWayReceived hpc
  next k hpc =>
    obtain ⟨-, hs'⟩ := Option.ite_none_right_eq_some.mp h
    cases hs'
    exact .tcpSent hpc
  next hpc =>
    cases h
    exact .leaveTcp (.inl hpc)
  next k hpc =>
    obtain ⟨hs, hs'⟩ := Option.ite_none_right_eq_some.mp h
    cases hs'
    exact .tcpReceived hpc hs.2.2.2
  next hpc =>
    cases h
    exact .leaveTcp (.inr hpc)
  next got k hpc =>
    obtain ⟨r, hr, rfl⟩ := Option.map_eq_some_iff.mp h
    exact .readResult hpc hr
  next got k hpc =>
    obtain ⟨r, hr, rfl⟩ := Option.map_eq_some_iff.mp h
    exact .readDone hpc hr
  next => exact nomatch h

theorem serverWrite_carries {m : Message} (hm : J.Carries m) (next : State → State) :
    s.serverWrite J m next =
      next { s with toClient := s.toClient.write (frameOctets (wireBytes J m)) } := by
  rw [State.serverWrite, serializeMessage_carries hm]

theorem serverWrite_cases (J : SerdeJson) (s : State) (m : Message) (next : State → State) :
    s.serverWrite J m next =
        next { s with toClient := s.toClient.write (frameOctets (wireBytes J m)) } ∨
      s.serverWrite J m next = s.serverClose ∧ ¬ J.Carries m := by
  unfold State.serverWrite wireBytes
  cases hm : serializeMessage J m with
  | ok bytes => exact .inl rfl
  | error e =>
    refine .inr ⟨rfl, fun hc => ?_⟩
    rw [serializeMessage_carries hc] at hm
    exact nomatch hm

theorem serverStep_rule (hack : J.Carries env.ack) (hstart : J.Carries env.startMsg) {a : Act}
    (h : serverStep J env s a = some s') : ServerRule J env s a s' := by
  unfold serverStep at h
  split at h
  next got k hpc =>
    obtain ⟨r, hr, rfl⟩ := Option.map_eq_some_iff.mp h
    exact .readSetup hpc hr
  next t hpc =>
    rw [serverWrite_carries hack] at h
    cases h
    exact .ack hpc
  next t hpc =>
    rw [serverWrite_carries hstart] at h
    cases h
    exact .start hpc
  next t hpc =>
    cases h
    exact .bind hpc
  next t k hpc =>
    obtain ⟨hq, hs'⟩ := Option.ite_none_right_eq_some.mp h
    cases hs'
    exact .first hpc hq
  next t k hpc =>
    obtain ⟨-, hs'⟩ := Option.ite_none_right_eq_some.mp h
    cases hs'
    exact .datagram hpc
  next t hpc =>
    cases h
    exact .leaveUdp (.inl hpc)
  next t k hpc =>
    obtain ⟨⟨hloop, -⟩, hs'⟩ := Option.ite_none_right_eq_some.mp h
    cases hs'
    exact .received hpc hloop
  next t hpc =>
    cases h
    exact .leaveUdp (.inr hpc)
  next t k hpc =>
    obtain ⟨-, hs'⟩ := Option.ite_none_right_eq_some.mp h
    cases hs'
    exact .tcpSent hpc
  next t hpc =>
    cases h
    exact .leaveTcp (.inl hpc)
  next t k hpc =>
    obtain ⟨hs, hs'⟩ := Option.ite_none_right_eq_some.mp h
    cases hs'
    exact .tcpReceived hpc hs.2.2
  next t hpc =>
    cases h
    exact .leaveTcp (.inr hpc)
  next hpc =>
    cases hst : env.stats with
    | some st =>
      simp only [hst] at h
      cases h
      rcases serverWrite_cases J s st.message _ with hw | ⟨hw, hfail⟩
      · rw [hw]
        exact .result hpc hst
      · rw [hw]
        exact .resultFails hpc hst hfail
    | none =>
      simp only [hst] at h
      obtain ⟨-, hs'⟩ := Option.ite_none_right_eq_some.mp h
      cases hs'
      exact .noResult hpc hst
  next hpc =>
    cases h
    rcases serverWrite_cases J s .done _ with hw | ⟨hw, hfail⟩
    · rw [hw]
      exact .done hpc
    · rw [hw]
      exact .doneFails hpc hfail
  next => exact nomatch h

/-! ### The network -/

theorem deliverStep_cases (h : deliverStep env s = some s') :
    s.inFlight ≠ 0 ∧
      (s' = { s with inFlight := s.inFlight - 1, serverQueue := s.serverQueue + 1 } ∨
        env.unboundDrops = true ∧ s' = { s with inFlight := s.inFlight - 1 }) := by
  unfold deliverStep at h
  obtain ⟨hflight, h⟩ := Option.ite_none_left_eq_some.mp h
  refine ⟨hflight, ?_⟩
  cases hbound : s.serverBound with
  | true =>
    rw [hbound, if_pos rfl] at h
    cases h
    exact .inl rfl
  | false =>
    rw [hbound, if_neg Bool.false_ne_true] at h
    obtain ⟨hdrops, h⟩ := Option.ite_none_right_eq_some.mp h
    cases h
    exact .inr ⟨hdrops, rfl⟩

end Rperf3.Joint
