import Rperf3.Joint.Handshake

/-!
# Who waits for whom

A deadlock is a party that waits for octets or datagrams that nobody will send,
in a receive without a timeout, while the other party has finished or waits too.
The client's `recv_one_way` and the server's `send_udp_data` both begin with
such a receive on the UDP socket.
-/

namespace Rperf3.Joint
open Rperf3

variable {J : SerdeJson} {cfg : Config} {env : Env} {s s' : State}

/-- The client is in a receive without a timeout, and there is nothing for it. -/
def clientWaits (s : State) : Prop :=
  match s.client with
  | .readAck _ | .readStart _ | .readResult _ | .readDone _ =>
    s.toClient.unread = [] ∧ s.toClient.closed = false
  | .oneWayWait => s.clientQueue = 0
  | _ => False

def serverWaits (s : State) : Prop :=
  match s.server with
  | .readSetup _ => s.toServer.unread = [] ∧ s.toServer.closed = false
  | .udpWaitFirst _ => s.serverQueue = 0 ∧ s.inFlight = 0
  | _ => False

def Deadlocked (s : State) : Prop :=
  clientWaits s ∧ (s.server = .finished ∨ serverWaits s) ∨
    serverWaits s ∧ (s.client = .finished ∨ clientWaits s)

def DeadlockFree (J : SerdeJson) (cfg : Config) (env : Env) : Prop :=
  ∀ s, Reachable J cfg env s → ¬ Deadlocked s

def speaksFirst (cfg : Config) (env : Env) : Prop :=
  cfg.protocol = .udp →
    cfg.oneWay ≠ .receive ∧
      (cfg.oneWay = .none → cfg.reverse = true → env.unboundDrops = false)

/-! ### The control connection never blocks for ever -/

theorem Session.setup_pending (hJ : Honest J cfg env) (h : Session J cfg env s) {got : Bytes}
    (hserver : s.server = .readSetup got) (hclient : s.client ≠ .sendSetup) :
    s.toServer.unread ≠ [] := by
  have htaken := h.setupTaken
  rw [hserver] at htaken
  have hsent := h.setupSent
  have hwritten : frameOctets (wireBytes J cfg.setup) <+: s.toServer.sent := by
    cases hpc : s.client <;> rw [hpc] at hsent
    case sendSetup => exact absurd hpc hclient
    all_goals exact hsent
  exact Gathering.unread_ne_nil hJ.setup htaken hwritten

theorem Session.ack_pending (hJ : Honest J cfg env) (h : Session J cfg env s) {got : Bytes}
    (hclient : s.client = .readAck got) (hserver : s.server.started) : s.toClient.unread ≠ [] := by
  have htaken := h.handshakeTaken
  rw [hclient] at htaken
  have hsent := (handshakeSent_started hserver).mp h.handshakeSent
  rw [frameOctets_append] at hsent
  exact Gathering.unread_ne_nil hJ.ack htaken (List.IsPrefix.trans (List.prefix_append _ _) hsent)

theorem Session.start_pending (hJ : Honest J cfg env) (h : Session J cfg env s) {got : Bytes}
    (hclient : s.client = .readStart got) (hserver : s.server.started) :
    s.toClient.unread ≠ [] := by
  have htaken := h.handshakeTaken
  rw [hclient] at htaken
  have hsent := (handshakeSent_started hserver).mp h.handshakeSent
  rw [frameOctets_append] at hsent
  exact Gathering.unread_ne_nil hJ.start htaken hsent

/-! ### The init packet of reverse mode -/

/-- In reverse mode, once the client has sent its init packet there is something for the server
until the server has received it. -/
def InitHeld (s : State) : Prop :=
  s.client = .udpReceive ∨ s.client = .finished →
    s.server = .finished ∨ (∃ t, s.server = .udpSend t) ∨ 0 < s.inFlight + s.serverQueue

theorem InitHeld.early {pc : ClientPc} (hpc : s.client = pc) (hwait : pc ≠ .udpReceive)
    (hrun : pc ≠ .finished) : InitHeld s := by
  intro hclient
  rcases hclient with hc | hc
  · exact absurd (hpc.symm.trans hc) hwait
  · exact absurd (hpc.symm.trans hc) hrun

theorem initHeld_client (hJ : Honest J cfg env) (hudp : cfg.protocol = .udp)
    (hreverse : udpDispatch cfg = .sendInit) (h : Session J cfg env s) (hheld : InitHeld s)
    {a : Act} (hrule : ClientRule J cfg s a s') : InitHeld s' := by
  have hfits := h.clientFits
  cases hrule with
  | init hpc =>
    intro _
    right
    right
    show 0 < s.inFlight + 1 + s.serverQueue
    omega
  | udpReceived hpc => exact fun _ => hheld (.inl hpc)
  | leaveUdp hpc =>
    rcases hpc with hpc | hpc | hpc
    · rw [hpc] at hfits
      exact nomatch hreverse.symm.trans hfits.2
    · exact fun _ => hheld (.inl hpc)
    · rw [hpc] at hfits
      exact nomatch hreverse.symm.trans hfits.2
  | readAck hpc hr =>
    rcases h.readAck hJ hpc hr with ⟨got', rfl, -⟩ | ⟨rfl, -⟩
    · exact .early rfl ClientPc.noConfusion ClientPc.noConfusion
    · exact .early rfl ClientPc.noConfusion ClientPc.noConfusion
  | readStart hpc hr =>
    rcases h.readStart hJ hpc hr with ⟨got', rfl, -⟩ | ⟨rfl, -⟩
    · exact .early rfl ClientPc.noConfusion ClientPc.noConfusion
    · exact .early (clientDispatch_udp hudp) ClientPc.noConfusion ClientPc.noConfusion
  | bind hpc => exact .early hreverse ClientPc.noConfusion ClientPc.noConfusion
  | readResult hpc hr =>
    rw [hpc] at hfits
    exact nomatch hudp.symm.trans hfits
  | readDone hpc hr =>
    rw [hpc] at hfits
    exact nomatch hudp.symm.trans hfits
  | datagram hpc hs => exact .early hpc ClientPc.noConfusion ClientPc.noConfusion
  | setup hpc => exact .early rfl ClientPc.noConfusion ClientPc.noConfusion
  | oneWayEnter hpc => exact .early rfl ClientPc.noConfusion ClientPc.noConfusion
  | oneWayReceived hpc => exact .early rfl ClientPc.noConfusion ClientPc.noConfusion
  | tcpSent hpc => exact .early hpc ClientPc.noConfusion ClientPc.noConfusion
  | tcpReceived hpc hk => exact .early hpc ClientPc.noConfusion ClientPc.noConfusion
  | leaveTcp hpc => exact .early rfl ClientPc.noConfusion ClientPc.noConfusion

theorem serverUdpDispatch_waits (cfg : Config) :
    serverUdpDispatch cfg.serverTest = .udpWaitFirst cfg.serverTest ↔
      cfg.oneWay = .receive ∨ cfg.oneWay = .none ∧ cfg.reverse = true := by
  have hone : cfg.serverTest.oneWay = cfg.oneWay := rfl
  have hreverse : cfg.serverTest.reverse = cfg.reverse := rfl
  unfold serverUdpDispatch
  rw [hone, hreverse]
  cases cfg.oneWay <;> cases cfg.reverse <;> simp

theorem udpDispatch_init (cfg : Config) :
    udpDispatch cfg = .sendInit ↔ cfg.oneWay = .none ∧ cfg.reverse = true := by
  unfold udpDispatch
  cases cfg.oneWay <;> cases cfg.reverse <;> simp

theorem udpDispatch_receive (cfg : Config) :
    udpDispatch cfg = .oneWayCheck ↔ cfg.oneWay = .receive := by
  unfold udpDispatch
  cases cfg.oneWay <;> cases cfg.reverse <;> simp

theorem InitHeld.keep (hheld : InitHeld s) {pc : ServerPc} (hpc : s.server = pc)
    (hsend : ∀ t, pc ≠ .udpSend t) (hrun : pc ≠ .finished) (hclient : s'.client = s.client)
    (hdata : s'.inFlight + s'.serverQueue = s.inFlight + s.serverQueue) : InitHeld s' := by
  intro hc
  rw [hclient] at hc
  rcases hheld hc with hfin | ⟨t, hudp⟩ | hpos
  · exact absurd (hpc.symm.trans hfin) hrun
  · exact absurd (hpc.symm.trans hudp) (hsend t)
  · rw [hdata]
    exact .inr (.inr hpos)

theorem onSetup_client (p : Pipe) (r : FrameRead) :
    (s.onSetup p r).client = s.client ∧ (s.onSetup p r).inFlight = s.inFlight ∧
      (s.onSetup p r).serverQueue = s.serverQueue := by
  unfold State.onSetup
  split
  · exact ⟨rfl, rfl, rfl⟩
  · split <;> exact ⟨rfl, rfl, rfl⟩

theorem initHeld_server (hreverse : udpDispatch cfg = .sendInit) (h : Session J cfg env s)
    (hheld : InitHeld s) {a : Act} (hrule : ServerRule J env s a s') : InitHeld s' := by
  have hfits := h.serverFits
  cases hrule with
  | @readSetup got k p r hpc hr =>
    obtain ⟨hclient, hflight, hqueue⟩ := @onSetup_client s p r
    exact hheld.keep hpc (fun t => ServerPc.noConfusion) ServerPc.noConfusion hclient
      (by rw [hflight, hqueue])
  | ack hpc =>
    exact hheld.keep hpc (fun t => ServerPc.noConfusion) ServerPc.noConfusion rfl rfl
  | start hpc =>
    exact hheld.keep hpc (fun t => ServerPc.noConfusion) ServerPc.noConfusion rfl rfl
  | bind hpc =>
    exact hheld.keep hpc (fun t => ServerPc.noConfusion) ServerPc.noConfusion rfl rfl
  | @first t k hpc hq => exact fun _ => .inr (.inl ⟨t, rfl⟩)
  | @datagram t k hpc => exact fun _ => .inr (.inl ⟨t, hpc⟩)
  | received hpc =>
    rw [hpc] at hfits
    obtain ⟨rfl, -, hdispatch⟩ := hfits
    have hwaits := (serverUdpDispatch_waits cfg).mpr (.inr ((udpDispatch_init cfg).mp hreverse))
    exact nomatch hwaits.symm.trans hdispatch
  | leaveUdp hpc => exact fun _ => .inl rfl
  | tcpSent hpc =>
    exact hheld.keep hpc (fun t => ServerPc.noConfusion) ServerPc.noConfusion rfl rfl
  | tcpReceived hpc hk =>
    exact hheld.keep hpc (fun t => ServerPc.noConfusion) ServerPc.noConfusion rfl rfl
  | leaveTcp hpc =>
    rcases hpc with hpc | hpc
    · exact hheld.keep hpc (fun t => ServerPc.noConfusion) ServerPc.noConfusion rfl rfl
    · exact hheld.keep hpc (fun t => ServerPc.noConfusion) ServerPc.noConfusion rfl rfl
  | result hpc hst =>
    exact hheld.keep hpc (fun t => ServerPc.noConfusion) ServerPc.noConfusion rfl rfl
  | noResult hpc hst =>
    exact hheld.keep hpc (fun t => ServerPc.noConfusion) ServerPc.noConfusion rfl rfl
  | done hpc => exact fun _ => .inl rfl
  | resultFails hpc hst hfail => exact fun _ => .inl rfl
  | doneFails hpc hfail => exact fun _ => .inl rfl

theorem initHeld_reachable (hJ : Honest J cfg env) (hudp : cfg.protocol = .udp)
    (hreverse : udpDispatch cfg = .sendInit) (hkept : env.unboundDrops = false)
    (h : Reachable J cfg env s) : InitHeld s := by
  have hboth : Session J cfg env s ∧ InitHeld s := by
    apply h.invariant (I := fun s => Session J cfg env s ∧ InitHeld s)
    · exact ⟨session_init J cfg env, .early rfl ClientPc.noConfusion ClientPc.noConfusion⟩
    intro s a s' hboth _ hs
    obtain ⟨hinv, hheld⟩ := hboth
    refine ⟨session_step hJ hinv hs, ?_⟩
    cases a with
    | client a => exact initHeld_client hJ hudp hreverse hinv hheld (clientStep_rule hJ.setup hs)
    | server a => exact initHeld_server hreverse hinv hheld (serverStep_rule hJ.ack hJ.start hs)
    | deliver =>
      obtain ⟨hflight, rfl | ⟨hdrops, -⟩⟩ := deliverStep_cases hs
      · intro hclient
        rcases hheld hclient with hfin | hsend | hpos
        · exact .inl hfin
        · exact .inr (.inl hsend)
        · right
          right
          show 0 < s.inFlight - 1 + (s.serverQueue + 1)
          omega
      · exact Bool.noConfusion (hkept.symm.trans hdrops)
  exact hboth.2

/-! ### No deadlock -/

theorem serverWaits_cases (h : serverWaits s) :
    (∃ got, s.server = .readSetup got ∧ s.toServer.unread = []) ∨
      ∃ t, s.server = .udpWaitFirst t ∧ s.serverQueue = 0 ∧ s.inFlight = 0 := by
  unfold serverWaits at h
  cases hpc : s.server <;> rw [hpc] at h
  case readSetup got => exact .inl ⟨got, rfl, h.1⟩
  case udpWaitFirst t => exact .inr ⟨t, rfl, h⟩
  all_goals exact h.elim

/-- A client that waits has a server that still runs and does not wait. -/
theorem Session.server_active (hJ : Honest J cfg env) (h : Session J cfg env s)
    (hspeaks : speaksFirst cfg env) (hclient : clientWaits s) :
    ¬ (s.server = .finished ∨ serverWaits s) := by
  intro hserver
  have hfits := h.clientFits
  have hserverFits := h.serverFits
  unfold clientWaits at hclient
  have hsetup : s.client ≠ .sendSetup := by
    intro hpc
    rw [hpc] at hclient
    exact hclient
  have hover : s.server = .finished ∨ ∃ t, s.server = .udpWaitFirst t := by
    rcases hserver with hfin | hwaits
    · exact .inl hfin
    · rcases serverWaits_cases hwaits with ⟨got, hpc, hunread⟩ | ⟨t, hpc, -⟩
      · exact absurd hunread (h.setup_pending hJ hpc hsetup)
      · exact .inr ⟨t, hpc⟩
  have hstarted : s.server.started := by
    rcases hover with hpc | ⟨t, hpc⟩
    · rw [hpc]
      trivial
    · rw [hpc]
      trivial
  have htcp : cfg.protocol = .tcp → s.toClient.closed = true := by
    intro hp
    rcases hover with hfin | ⟨t, hpc⟩
    · exact h.toClientOpen.mpr hfin
    · rw [hpc] at hserverFits
      exact nomatch hp.symm.trans hserverFits.2.1
  cases hpc : s.client <;> rw [hpc] at hclient hfits
  case readAck got => exact h.ack_pending hJ hpc hstarted hclient.1
  case readStart got => exact h.start_pending hJ hpc hstarted hclient.1
  case oneWayWait => exact (hspeaks hfits.1).1 ((udpDispatch_receive cfg).mp hfits.2)
  case readResult got => exact Bool.noConfusion (hclient.2.symm.trans (htcp hfits))
  case readDone got => exact Bool.noConfusion (hclient.2.symm.trans (htcp hfits))
  all_goals exact hclient.elim

theorem speaksFirst_deadlockFree (hJ : Honest J cfg env) (hspeaks : speaksFirst cfg env) :
    DeadlockFree J cfg env := by
  intro s hreach hdead
  have h := session_reachable hJ hreach
  rcases hdead with ⟨hclient, hserver⟩ | ⟨hserver, hclient⟩
  · exact h.server_active hJ hspeaks hclient hserver
  · rcases hclient with hfin | hclient
    · rcases serverWaits_cases hserver with ⟨got, hpc, hunread⟩ | ⟨t, hpc, hqueue, hflight⟩
      · have hsetup : s.client ≠ .sendSetup := by
          rw [hfin]
          exact ClientPc.noConfusion
        exact h.setup_pending hJ hpc hsetup hunread
      · -- the server waits for its first datagram: this is reverse mode
        have hfits := h.serverFits
        rw [hpc] at hfits
        obtain ⟨rfl, hudp, hdispatch⟩ := hfits
        obtain ⟨hreceive, hkept⟩ := hspeaks hudp
        obtain ⟨hnone, hreverse⟩ :=
          ((serverUdpDispatch_waits cfg).mp hdispatch).resolve_left hreceive
        have hheld := initHeld_reachable hJ hudp ((udpDispatch_init cfg).mpr ⟨hnone, hreverse⟩)
          (hkept hnone hreverse) hreach
        rcases hheld (.inr hfin) with hend | ⟨t, hsend⟩ | hpos
        · exact nomatch hpc.symm.trans hend
        · exact nomatch hpc.symm.trans hsend
        · omega
    · exact h.server_active hJ hspeaks hclient (.inr hserver)

/-! ### Runs into a deadlock -/

/-- One-way receive mode: nobody sends the first datagram. -/
theorem receive_deadlock (hJ : Honest J cfg env) (hudp : cfg.protocol = .udp)
    (hreceive : cfg.oneWay = .receive) : ∃ s, Reachable J cfg env s ∧ Deadlocked s := by
  have hbind := bindUdp_reachable hJ hudp
  rw [(udpDispatch_receive cfg).mpr hreceive] at hbind
  have hserver : Reachable J cfg env
      { State.handshaken J cfg env with
        client := .oneWayCheck
        server := .udpWaitFirst cfg.serverTest
        serverBound := true } := by
    refine hbind.snoc (a := .server .go) ?_
    show some { State.handshaken J cfg env with
      client := .oneWayCheck
      server := serverUdpDispatch cfg.serverTest
      serverBound := true } = _
    rw [(serverUdpDispatch_waits cfg).mpr (.inl hreceive)]
  by_cases hduration : 0 < cfg.duration
  · have hwait : Reachable J cfg env
        { State.handshaken J cfg env with
          client := .oneWayWait
          server := .udpWaitFirst cfg.serverTest
          serverBound := true } := by
      refine hserver.snoc (a := .client .go) ?_
      exact if_pos hduration
    exact ⟨_, hwait, .inl ⟨rfl, .inr ⟨rfl, rfl⟩⟩⟩
  · refine ⟨_, hserver.snoc (a := .client .leave) rfl, ?_⟩
    exact .inr ⟨⟨rfl, rfl⟩, .inl rfl⟩

/-- Reverse mode: the init packet is dropped when it arrives before the server's `bind`. -/
theorem reverse_deadlock (hJ : Honest J cfg env) (hudp : cfg.protocol = .udp)
    (hnone : cfg.oneWay = .none) (hreverse : cfg.reverse = true)
    (hdrops : env.unboundDrops = true) : ∃ s, Reachable J cfg env s ∧ Deadlocked s := by
  have hbind := bindUdp_reachable hJ hudp
  rw [(udpDispatch_init cfg).mpr ⟨hnone, hreverse⟩] at hbind
  have hsent := hbind.snoc (a := .client .go) rfl
  have hlost : Reachable J cfg env
      { State.handshaken J cfg env with
        client := .udpReceive
        server := .bindUdp cfg.serverTest
        firstDatagram := some false } := by
    refine hsent.snoc (a := .deliver) ?_
    show (if env.unboundDrops = true then _ else none) = _
    rw [if_pos hdrops]
    rfl
  have hserver : Reachable J cfg env
      { State.handshaken J cfg env with
        client := .udpReceive
        server := .udpWaitFirst cfg.serverTest
        serverBound := true
        firstDatagram := some false } := by
    refine hlost.snoc (a := .server .go) ?_
    show some { State.handshaken J cfg env with
      client := .udpReceive
      server := serverUdpDispatch cfg.serverTest
      serverBound := true
      firstDatagram := some false } = _
    rw [(serverUdpDispatch_waits cfg).mpr (.inr ⟨hnone, hreverse⟩)]
  refine ⟨_, hserver.snoc (a := .client .leave) rfl, ?_⟩
  exact .inr ⟨⟨rfl, rfl⟩, .inl rfl⟩

/-- Which configurations have no deadlock, on hosts that drop datagrams for unbound ports and on
hosts that keep them. -/
theorem deadlockFree_iff (hJ : Honest J cfg env) :
    DeadlockFree J cfg env ↔ speaksFirst cfg env := by
  refine ⟨?_, speaksFirst_deadlockFree hJ⟩
  intro hfree hudp
  refine ⟨?_, ?_⟩
  · intro hreceive
    obtain ⟨s, hreach, hdead⟩ := receive_deadlock hJ hudp hreceive
    exact hfree s hreach hdead
  · intro hnone hreverse
    by_contra hdrops
    obtain ⟨s, hreach, hdead⟩ :=
      reverse_deadlock hJ hudp hnone hreverse (Bool.eq_true_of_not_eq_false hdrops)
    exact hfree s hreach hdead

theorem deadlockFree_iff_udpTest : DeadlockFree (.ofTable sessionTexts) udpTest localEnv :=
  (deadlockFree_iff udpTest_honest).mpr fun _ => ⟨by decide, by decide⟩

theorem udpReceiveTest_deadlock :
    ¬ DeadlockFree (.ofTable sessionTexts) udpReceiveTest localEnv := by
  intro hfree
  obtain ⟨s, hreach, hdead⟩ := receive_deadlock udpReceiveTest_honest rfl rfl
  exact hfree s hreach hdead

end Rperf3.Joint
