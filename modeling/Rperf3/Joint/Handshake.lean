import Rperf3.Joint.Rules

/-!
# The handshake, up to the data phase

The invariant of the control connection: what each party has sent of `Setup`,
`SetupAck` and `Start`, and what the other one has of it, for every chunking of
the reads.
-/

namespace Rperf3.Joint
open Rperf3

variable {J : SerdeJson} {cfg : Config} {env : Env} {s s' : State}

/-! ### The invariant of the control connection -/

/-- The places of the client's program that its configuration leads to. -/
def ClientPc.fits (cfg : Config) : ClientPc → Prop
  | .bindUdp => cfg.protocol = .udp
  | .udpSend => cfg.protocol = .udp ∧ udpDispatch cfg = .udpSend
  | .sendInit | .udpReceive => cfg.protocol = .udp ∧ udpDispatch cfg = .sendInit
  | .oneWayCheck | .oneWayWait => cfg.protocol = .udp ∧ udpDispatch cfg = .oneWayCheck
  | .tcpSend => cfg.protocol = .tcp ∧ cfg.reverse = false
  | .tcpReceive => cfg.protocol = .tcp ∧ cfg.reverse = true
  | .readResult _ | .readDone _ => cfg.protocol = .tcp
  | _ => True

def ServerPc.fits (cfg : Config) : ServerPc → Prop
  | .writeAck t | .writeStart t => t = cfg.serverTest
  | .bindUdp t => t = cfg.serverTest ∧ cfg.protocol = .udp
  | .udpWaitFirst t | .udpSend t =>
    t = cfg.serverTest ∧ cfg.protocol = .udp ∧ serverUdpDispatch t = .udpWaitFirst t
  | .udpReceive t => t = cfg.serverTest ∧ cfg.protocol = .udp ∧ serverUdpDispatch t = .udpReceive t
  | .tcpSend t => t = cfg.serverTest ∧ cfg.protocol = .tcp ∧ cfg.reverse = true
  | .tcpReceive t => t = cfg.serverTest ∧ cfg.protocol = .tcp ∧ cfg.reverse = false
  | .writeResult | .writeDone => cfg.protocol = .tcp
  | _ => True

/-- What the client has sent of its `Setup`. -/
def SetupSent (J : SerdeJson) (cfg : Config) (sent : List Octet) : ClientPc → Prop
  | .sendSetup => sent = []
  | _ => frameOctets (wireBytes J cfg.setup) <+: sent

/-- What the server has of the `Setup`. -/
def SetupTaken (p : Pipe) : ServerPc → Prop
  | .readSetup got => Gathering [] got p
  | _ => True

/-- What the server has sent of `SetupAck` and `Start`. -/
def HandshakeSent (J : SerdeJson) (env : Env) (sent : List Octet) : ServerPc → Prop
  | .readSetup _ | .writeAck _ => sent = []
  | .writeStart _ => sent = frameOctets (wireBytes J env.ack)
  | _ => frameOctets (wireBytes J env.ack ++ wireBytes J env.startMsg) <+: sent

def HandshakeTaken (J : SerdeJson) (env : Env) (p : Pipe) : ClientPc → Prop
  | .sendSetup => p.unread = p.sent
  | .readAck got => Gathering [] got p
  | .readStart got => Gathering (frameOctets (wireBytes J env.ack)) got p
  | _ => frameOctets (wireBytes J env.ack ++ wireBytes J env.startMsg) <+: p.sent

structure Session (J : SerdeJson) (cfg : Config) (env : Env) (s : State) : Prop where
  clientFits : s.client.fits cfg
  serverFits : s.server.fits cfg
  toServerOpen : s.toServer.closed = true → s.client = .finished
  toClientOpen : s.toClient.closed = true ↔ s.server = .finished
  setupSent : SetupSent J cfg s.toServer.sent s.client
  setupTaken : SetupTaken s.toServer s.server
  handshakeSent : HandshakeSent J env s.toClient.sent s.server
  handshakeTaken : HandshakeTaken J env s.toClient s.client

theorem session_init (J : SerdeJson) (cfg : Config) (env : Env) : Session J cfg env State.init where
  clientFits := trivial
  serverFits := trivial
  toServerOpen h := Bool.noConfusion h
  toClientOpen := ⟨fun h => Bool.noConfusion h, fun h => ServerPc.noConfusion h⟩
  setupSent := rfl
  setupTaken := ⟨by decide, rfl⟩
  handshakeSent := rfl
  handshakeTaken := rfl

theorem SetupTaken.write {p : Pipe} (os : List Octet) {pc : ServerPc} (h : SetupTaken p pc) :
    SetupTaken (p.write os) pc := by
  cases pc with
  | readSetup got => exact Gathering.write os h
  | _ => trivial

theorem HandshakeTaken.write {p : Pipe} (os : List Octet) {pc : ClientPc}
    (h : HandshakeTaken J env p pc) : HandshakeTaken J env (p.write os) pc := by
  cases pc with
  | sendSetup =>
    show (p.write os).unread = (p.write os).sent
    rw [unread_write, show p.unread = p.sent from h]
    rfl
  | readAck got => exact Gathering.write os h
  | readStart got => exact Gathering.write os h
  | _ => exact List.IsPrefix.trans h (List.prefix_append _ _)

theorem Session.ack_written (h : Session J cfg env s) :
    frameOctets (wireBytes J env.ack) <+: s.toClient.sent ∨
      s.toClient.sent = [] ∧ s.toClient.closed = false := by
  have hsent := h.handshakeSent
  have hopen := h.toClientOpen
  cases hpc : s.server <;> rw [hpc] at hsent hopen
  case readSetup got => exact .inr ⟨hsent, by simpa using hopen⟩
  case writeAck t => exact .inr ⟨hsent, by simpa using hopen⟩
  case writeStart t => exact .inl (hsent ▸ List.prefix_refl _)
  all_goals
    refine .inl (List.IsPrefix.trans ?_ hsent)
    rw [frameOctets_append]
    exact List.prefix_append _ _

/-! ### Steps that leave the handshake alone -/

def ClientPc.started : ClientPc → Prop
  | .sendSetup | .readAck _ | .readStart _ => False
  | _ => True

theorem handshakeTaken_started {p : Pipe} {pc : ClientPc} (hpc : pc.started) :
    HandshakeTaken J env p pc ↔
      frameOctets (wireBytes J env.ack ++ wireBytes J env.startMsg) <+: p.sent := by
  cases pc <;> first | exact Iff.rfl | exact hpc.elim

theorem setupSent_started {sent : List Octet} {pc : ClientPc} (hpc : pc.started) :
    SetupSent J cfg sent pc ↔ frameOctets (wireBytes J cfg.setup) <+: sent := by
  cases pc <;> first | exact Iff.rfl | exact hpc.elim

theorem Session.goOn (h : Session J cfg env s) {old pc : ClientPc} (hpc : s.client = old)
    (hold : old.started) (hrun : old ≠ .finished) (hnew : pc.started) (hfits : pc.fits cfg) :
    Session J cfg env { s with client := pc } := by
  subst hpc
  exact
    { h with
      clientFits := hfits
      toServerOpen := fun hclosed => absurd (h.toServerOpen hclosed) hrun
      setupSent := (setupSent_started hnew).mpr ((setupSent_started hold).mp h.setupSent)
      handshakeTaken :=
        (handshakeTaken_started hnew).mpr ((handshakeTaken_started hold).mp h.handshakeTaken) }

theorem Session.close (h : Session J cfg env s) {old : ClientPc} (hpc : s.client = old)
    (hold : old.started) : Session J cfg env s.clientClose := by
  subst hpc
  exact
    { h with
      clientFits := trivial
      toServerOpen := fun _ => rfl
      setupSent := (setupSent_started hold).mp h.setupSent
      handshakeTaken := (handshakeTaken_started hold).mp h.handshakeTaken }

theorem Session.advance (h : Session J cfg env s) {old : ClientPc} (hpc : s.client = old)
    (hold : old.started) (k : ℕ) :
    Session J cfg env { s with toClient := s.toClient.advance k } := by
  subst hpc
  have hpre := (handshakeTaken_started hold).mp h.handshakeTaken
  exact
    { h with
      handshakeTaken := (handshakeTaken_started hold).mpr hpre }

/-! ### Steps of the client -/

theorem Session.toServer_open (h : Session J cfg env s) (hrun : s.client ≠ .finished) :
    s.toServer.closed = false := by
  cases hclosed : s.toServer.closed with
  | true => exact absurd (h.toServerOpen hclosed) hrun
  | false => rfl

theorem Session.readAck (hJ : Honest J cfg env) (h : Session J cfg env s) {got : Bytes} {k : ℕ}
    {p : Pipe} {r : FrameRead} (hpc : s.client = .readAck got)
    (hr : readFrame J s.toClient got k = some (p, r)) :
    (∃ got', r = .more got' ∧ Gathering [] got' p) ∨
      r = .message (.ok env.ack) ∧ frameOctets (wireBytes J env.ack) ++ p.unread = p.sent := by
  have htaken := h.handshakeTaken
  rw [hpc] at htaken
  exact Gathering.read hJ.ack htaken h.ack_written hr

theorem session_readAck (hJ : Honest J cfg env) (h : Session J cfg env s) {got : Bytes} {k : ℕ}
    {p : Pipe} {r : FrameRead} (hpc : s.client = .readAck got)
    (hr : readFrame J s.toClient got k = some (p, r)) : Session J cfg env (s.onAck p r) := by
  have hsetup := h.setupSent
  rw [hpc] at hsetup
  have hopen := h.toServer_open (by rw [hpc]; exact ClientPc.noConfusion)
  have hcases := h.readAck hJ hpc hr
  obtain ⟨rfl, hk⟩ := readFrame_advance hr
  rcases hcases with ⟨got', rfl, hgot⟩ | ⟨rfl, hrest⟩
  · exact
      { h with
        clientFits := trivial
        toServerOpen := fun hclosed => Bool.noConfusion (hopen.symm.trans hclosed)
        setupSent := hsetup
        handshakeTaken := hgot }
  · exact
      { h with
        clientFits := trivial
        toServerOpen := fun hclosed => Bool.noConfusion (hopen.symm.trans hclosed)
        setupSent := hsetup
        handshakeTaken := Gathering.begin hrest }

theorem Session.start_written (hJ : Honest J cfg env) (h : Session J cfg env s) {got : Bytes}
    (hpc : s.client = .readStart got) :
    frameOctets (wireBytes J env.ack) ++ frameOctets (wireBytes J env.startMsg) <+:
        s.toClient.sent ∨
      s.toClient.sent = frameOctets (wireBytes J env.ack) ∧ s.toClient.closed = false := by
  have hsent := h.handshakeSent
  have hopen := h.toClientOpen
  have htaken : Gathering (frameOctets (wireBytes J env.ack)) got s.toClient := by
    have ht := h.handshakeTaken
    rw [hpc] at ht
    exact ht
  have hne : s.toClient.sent ≠ [] := by
    intro hnil
    have hgot := htaken.2
    rw [hnil, List.append_assoc] at hgot
    have hack : frameOctets (wireBytes J env.ack) = frameOctets [] :=
      (List.append_eq_nil_iff.mp hgot).1
    exact wireBytes_ne_nil hJ.ack (frameOctets_injective hack)
  rw [← frameOctets_append]
  cases hserver : s.server <;> rw [hserver] at hsent hopen
  case readSetup got => exact absurd hsent hne
  case writeAck t => exact absurd hsent hne
  case writeStart t => exact .inr ⟨hsent, by simpa using hopen⟩
  all_goals exact .inl hsent

/-- A read of `Start`: the data phase begins right behind it. -/
theorem Session.readStart (hJ : Honest J cfg env) (h : Session J cfg env s) {got : Bytes} {k : ℕ}
    {p : Pipe} {r : FrameRead} (hpc : s.client = .readStart got)
    (hr : readFrame J s.toClient got k = some (p, r)) :
    (∃ got', r = .more got' ∧ Gathering (frameOctets (wireBytes J env.ack)) got' p) ∨
      r = .message (.ok env.startMsg) ∧
        frameOctets (wireBytes J env.ack ++ wireBytes J env.startMsg) ++ p.unread = p.sent := by
  have htaken := h.handshakeTaken
  rw [hpc] at htaken
  rw [frameOctets_append]
  exact Gathering.read hJ.start htaken (h.start_written hJ hpc) hr

theorem clientDispatch_started (cfg : Config) :
    (clientDispatch cfg).started ∧ (clientDispatch cfg).fits cfg := by
  unfold clientDispatch
  cases hp : cfg.protocol with
  | udp => exact ⟨trivial, hp⟩
  | tcp =>
    cases hr : cfg.reverse with
    | true => exact ⟨trivial, hp, hr⟩
    | false => exact ⟨trivial, hp, hr⟩

theorem udpDispatch_cases (cfg : Config) :
    udpDispatch cfg = .udpSend ∨ udpDispatch cfg = .sendInit ∨ udpDispatch cfg = .oneWayCheck := by
  unfold udpDispatch
  cases cfg.oneWay with
  | send => exact .inl rfl
  | receive => exact .inr (.inr rfl)
  | none =>
    cases cfg.reverse with
    | true => exact .inr (.inl rfl)
    | false => exact .inl rfl

theorem udpDispatch_started {cfg : Config} (hudp : cfg.protocol = .udp) :
    (udpDispatch cfg).started ∧ (udpDispatch cfg).fits cfg := by
  rcases udpDispatch_cases cfg with h | h | h
  · rw [h]
    exact ⟨trivial, hudp, h⟩
  · rw [h]
    exact ⟨trivial, hudp, h⟩
  · rw [h]
    exact ⟨trivial, hudp, h⟩

theorem session_readStart (hJ : Honest J cfg env) (h : Session J cfg env s) {got : Bytes} {k : ℕ}
    {p : Pipe} {r : FrameRead} (hpc : s.client = .readStart got)
    (hr : readFrame J s.toClient got k = some (p, r)) : Session J cfg env (s.onStart cfg p r) := by
  have hsetup := h.setupSent
  rw [hpc] at hsetup
  have hopen := h.toServer_open (by rw [hpc]; exact ClientPc.noConfusion)
  have hcases := h.readStart hJ hpc hr
  obtain ⟨rfl, hk⟩ := readFrame_advance hr
  rcases hcases with ⟨got', rfl, hgot⟩ | ⟨rfl, hrest⟩
  · exact
      { h with
        clientFits := trivial
        toServerOpen := fun hclosed => Bool.noConfusion (hopen.symm.trans hclosed)
        setupSent := hsetup
        handshakeTaken := hgot }
  · obtain ⟨hstarted, hfits⟩ := clientDispatch_started cfg
    exact
      { h with
        clientFits := hfits
        toServerOpen := fun hclosed => Bool.noConfusion (hopen.symm.trans hclosed)
        setupSent := (setupSent_started hstarted).mpr hsetup
        handshakeTaken := (handshakeTaken_started hstarted).mpr ⟨_, hrest⟩ }

theorem session_client (hJ : Honest J cfg env) (h : Session J cfg env s) {a : Act}
    (hrule : ClientRule J cfg s a s') : Session J cfg env s' := by
  have hfits := h.clientFits
  cases hrule with
  | setup hpc =>
    have hsent := h.setupSent
    have htaken := h.handshakeTaken
    rw [hpc] at hsent htaken
    have hopen := h.toServer_open (by rw [hpc]; exact ClientPc.noConfusion)
    exact
      { h with
        clientFits := trivial
        toServerOpen := fun hclosed => Bool.noConfusion (hopen.symm.trans hclosed)
        setupSent := by
          show frameOctets (wireBytes J cfg.setup) <+:
            s.toServer.sent ++ frameOctets (wireBytes J cfg.setup)
          rw [show s.toServer.sent = [] from hsent]
          exact List.prefix_refl _
        setupTaken := h.setupTaken.write _
        handshakeTaken := Gathering.begin htaken }
  | readAck hpc hr => exact session_readAck hJ h hpc hr
  | readStart hpc hr => exact session_readStart hJ h hpc hr
  | bind hpc =>
    rw [hpc] at hfits
    obtain ⟨hstarted, hfits'⟩ := udpDispatch_started hfits
    exact h.goOn hpc trivial ClientPc.noConfusion hstarted hfits'
  | datagram hpc hs => exact { h with }
  | init hpc =>
    rw [hpc] at hfits
    have hsend : Session J cfg env s.sendDatagram := { h with }
    exact hsend.goOn hpc trivial ClientPc.noConfusion trivial hfits
  | udpReceived hpc => exact { h with }
  | oneWayEnter hpc =>
    rw [hpc] at hfits
    exact h.goOn hpc trivial ClientPc.noConfusion trivial hfits
  | oneWayReceived hpc =>
    rw [hpc] at hfits
    have hreceive : Session J cfg env
        { s with clientQueue := s.clientQueue - 1, received := s.received + 1 } := { h with }
    exact hreceive.goOn hpc trivial ClientPc.noConfusion trivial hfits
  | leaveUdp hpc =>
    rcases hpc with hpc | hpc | hpc
    · exact h.close hpc trivial
    · exact h.close hpc trivial
    · exact h.close hpc trivial
  | tcpSent hpc =>
    have hsetup := h.setupSent
    have hopen := h.toServerOpen
    rw [hpc] at hsetup
    exact
      { h with
        setupSent := by
          show SetupSent J cfg _ s.client
          rw [hpc]
          exact List.IsPrefix.trans hsetup (List.prefix_append _ _)
        setupTaken := h.setupTaken.write _ }
  | @tcpReceived k hpc hk =>
    have hadvance := h.advance hpc trivial k
    exact { hadvance with }
  | leaveTcp hpc =>
    have htcp : cfg.protocol = .tcp := by
      rcases hpc with hpc | hpc
      · rw [hpc] at hfits
        exact hfits.1
      · rw [hpc] at hfits
        exact hfits.1
    rcases hpc with hpc | hpc
    · exact h.goOn hpc trivial ClientPc.noConfusion trivial htcp
    · exact h.goOn hpc trivial ClientPc.noConfusion trivial htcp
  | @readResult got k p r hpc hr =>
    rw [hpc] at hfits
    obtain ⟨rfl, hk⟩ := readFrame_advance hr
    have hadvance := h.advance hpc trivial k
    cases r with
    | more got' => exact hadvance.goOn hpc trivial ClientPc.noConfusion trivial hfits
    | message m =>
      have hgo : Session J cfg env
          { s with client := .readDone [], toClient := s.toClient.advance k } :=
        hadvance.goOn hpc trivial ClientPc.noConfusion trivial hfits
      exact { hgo with }
  | @readDone got k p r hpc hr =>
    rw [hpc] at hfits
    obtain ⟨rfl, hk⟩ := readFrame_advance hr
    have hadvance := h.advance hpc trivial k
    cases r with
    | more got' => exact hadvance.goOn hpc trivial ClientPc.noConfusion trivial hfits
    | message m =>
      have hclose := hadvance.close hpc trivial
      exact { hclose with }

/-! ### Steps of the server -/

def ServerPc.started : ServerPc → Prop
  | .readSetup _ | .writeAck _ | .writeStart _ => False
  | _ => True

theorem setupTaken_started {p : Pipe} {pc : ServerPc} (hpc : pc.started) : SetupTaken p pc := by
  cases pc <;> trivial

theorem handshakeSent_started {sent : List Octet} {pc : ServerPc} (hpc : pc.started) :
    HandshakeSent J env sent pc ↔
      frameOctets (wireBytes J env.ack ++ wireBytes J env.startMsg) <+: sent := by
  cases pc <;> first | exact Iff.rfl | exact hpc.elim

theorem Session.toClient_open (h : Session J cfg env s) (hrun : s.server ≠ .finished) :
    s.toClient.closed = false := by
  cases hclosed : s.toClient.closed with
  | true => exact absurd (h.toClientOpen.mp hclosed) hrun
  | false => rfl

theorem Session.serverGoOn (h : Session J cfg env s) {old pc : ServerPc} (hpc : s.server = old)
    (hold : old.started) (hrun : old ≠ .finished) (hnew : pc.started) (hnext : pc ≠ .finished)
    (hfits : pc.fits cfg) : Session J cfg env { s with server := pc } := by
  subst hpc
  have hopen := h.toClient_open hrun
  exact
    { h with
      serverFits := hfits
      toClientOpen := by
        show s.toClient.closed = true ↔ pc = .finished
        rw [hopen]
        exact ⟨fun hclosed => Bool.noConfusion hclosed, fun hfin => absurd hfin hnext⟩
      setupTaken := setupTaken_started hnew
      handshakeSent :=
        (handshakeSent_started hnew).mpr ((handshakeSent_started hold).mp h.handshakeSent) }

theorem Session.serverEnds (h : Session J cfg env s) {old : ServerPc} (hpc : s.server = old)
    (hold : old.started) : Session J cfg env s.serverClose := by
  subst hpc
  exact
    { h with
      serverFits := trivial
      toClientOpen := ⟨fun _ => rfl, fun _ => rfl⟩
      setupTaken := trivial
      handshakeSent := (handshakeSent_started hold).mp h.handshakeSent }

theorem Session.serverWrites (h : Session J cfg env s) {old : ServerPc} (hpc : s.server = old)
    (hold : old.started) (os : List Octet) :
    Session J cfg env { s with toClient := s.toClient.write os } := by
  subst hpc
  have hpre := (handshakeSent_started hold).mp h.handshakeSent
  exact
    { h with
      handshakeSent :=
        (handshakeSent_started hold).mpr (List.IsPrefix.trans hpre (List.prefix_append _ _))
      handshakeTaken := h.handshakeTaken.write os }

theorem Session.readSetup (hJ : Honest J cfg env) (h : Session J cfg env s) {got : Bytes} {k : ℕ}
    {p : Pipe} {r : FrameRead} (hpc : s.server = .readSetup got)
    (hr : readFrame J s.toServer got k = some (p, r)) :
    (∃ got', r = .more got' ∧ Gathering [] got' p) ∨ r = .message (.ok cfg.setup) := by
  have htaken := h.setupTaken
  have hsetup := h.setupSent
  rw [hpc] at htaken
  have hwritten : frameOctets (wireBytes J cfg.setup) <+: s.toServer.sent ∨
      s.toServer.sent = [] ∧ s.toServer.closed = false := by
    cases hclient : s.client <;> rw [hclient] at hsetup
    case sendSetup =>
      exact .inr ⟨hsetup, h.toServer_open (by rw [hclient]; exact ClientPc.noConfusion)⟩
    all_goals exact .inl hsetup
  rcases Gathering.read hJ.setup htaken hwritten hr with hmore | ⟨hmessage, -⟩
  · exact .inl hmore
  · exact .inr hmessage

theorem onSetup_setup (p : Pipe) :
    s.onSetup p (.message (.ok cfg.setup)) =
      { s with toServer := p, server := .writeAck cfg.serverTest } := by
  simp only [State.onSetup, Except.toOption, Option.bind_some, ofSetup_setup]

theorem session_readSetup (hJ : Honest J cfg env) (h : Session J cfg env s) {got : Bytes} {k : ℕ}
    {p : Pipe} {r : FrameRead} (hpc : s.server = .readSetup got)
    (hr : readFrame J s.toServer got k = some (p, r)) : Session J cfg env (s.onSetup p r) := by
  have hsent := h.handshakeSent
  rw [hpc] at hsent
  have hopen := h.toClient_open (by rw [hpc]; exact ServerPc.noConfusion)
  have hclosed : s.toClient.closed = true → False := fun hclosed =>
    Bool.noConfusion (hopen.symm.trans hclosed)
  have hcases := h.readSetup hJ hpc hr
  obtain ⟨rfl, hk⟩ := readFrame_advance hr
  rcases hcases with ⟨got', rfl, hgot⟩ | rfl
  · exact
      { h with
        serverFits := trivial
        toClientOpen := ⟨fun hc => (hclosed hc).elim, fun hfin => ServerPc.noConfusion hfin⟩
        setupTaken := hgot
        handshakeSent := hsent }
  · rw [onSetup_setup]
    exact
      { h with
        serverFits := rfl
        toClientOpen := ⟨fun hc => (hclosed hc).elim, fun hfin => ServerPc.noConfusion hfin⟩
        setupTaken := trivial
        handshakeSent := hsent }

theorem Session.server_started (hJ : Honest J cfg env) (h : Session J cfg env s)
    (hclient : s.client.started) : s.server.started := by
  have hpre := (handshakeTaken_started hclient).mp h.handshakeTaken
  have hsent := h.handshakeSent
  have hack := List.length_pos_iff.mpr (wireBytes_ne_nil hJ.ack)
  have hstart := List.length_pos_iff.mpr (wireBytes_ne_nil hJ.start)
  have hlen := hpre.length_le
  rw [length_frameOctets, List.length_append] at hlen
  cases hserver : s.server <;> rw [hserver] at hsent
  case readSetup got =>
    rw [show s.toClient.sent = [] from hsent, List.length_nil] at hlen
    omega
  case writeAck t =>
    rw [show s.toClient.sent = [] from hsent, List.length_nil] at hlen
    omega
  case writeStart t =>
    rw [show s.toClient.sent = _ from hsent, length_frameOctets] at hlen
    omega
  all_goals trivial

theorem serverDispatch_started (cfg : Config) :
    (serverDispatch cfg.serverTest).started ∧ serverDispatch cfg.serverTest ≠ .finished ∧
      (serverDispatch cfg.serverTest).fits cfg := by
  have hudp : cfg.serverTest.udp = decide (cfg.protocol = .udp) := rfl
  have hreverse : cfg.serverTest.reverse = cfg.reverse := rfl
  unfold serverDispatch
  rw [hudp, hreverse]
  cases hp : cfg.protocol with
  | udp => exact ⟨trivial, ServerPc.noConfusion, rfl, hp⟩
  | tcp =>
    cases hr : cfg.reverse with
    | true => exact ⟨trivial, ServerPc.noConfusion, rfl, hp, hr⟩
    | false => exact ⟨trivial, ServerPc.noConfusion, rfl, hp, hr⟩

theorem serverUdpDispatch_cases (t : ServerTest) :
    serverUdpDispatch t = .udpWaitFirst t ∨ serverUdpDispatch t = .udpReceive t := by
  unfold serverUdpDispatch
  cases t.oneWay with
  | send => exact .inr rfl
  | receive => exact .inl rfl
  | none =>
    cases t.reverse with
    | true => exact .inl rfl
    | false => exact .inr rfl

theorem session_server (hJ : Honest J cfg env) (h : Session J cfg env s) {a : Act}
    (hrule : ServerRule J env s a s') : Session J cfg env s' := by
  have hfits := h.serverFits
  cases hrule with
  | readSetup hpc hr => exact session_readSetup hJ h hpc hr
  | @ack t hpc =>
    have hsent := h.handshakeSent
    have hopen := h.toClient_open (by rw [hpc]; exact ServerPc.noConfusion)
    rw [hpc] at hfits hsent
    exact
      { h with
        serverFits := hfits
        toClientOpen := by
          show s.toClient.closed = true ↔ ServerPc.writeStart t = .finished
          simp [hopen]
        setupTaken := trivial
        handshakeSent := by
          show s.toClient.sent ++ _ = _
          rw [show s.toClient.sent = [] from hsent, List.nil_append]
        handshakeTaken := h.handshakeTaken.write _ }
  | @start t hpc =>
    have hsent := h.handshakeSent
    have hopen := h.toClient_open (by rw [hpc]; exact ServerPc.noConfusion)
    rw [hpc] at hfits hsent
    obtain rfl : t = cfg.serverTest := hfits
    obtain ⟨hstarted, hnext, hfits'⟩ := serverDispatch_started cfg
    exact
      { h with
        serverFits := hfits'
        toClientOpen := by
          show s.toClient.closed = true ↔ serverDispatch cfg.serverTest = .finished
          simp [hopen, hnext]
        setupTaken := setupTaken_started hstarted
        handshakeSent := by
          refine (handshakeSent_started hstarted).mpr ?_
          show _ <+: s.toClient.sent ++ _
          rw [show s.toClient.sent = _ from hsent, frameOctets_append]
        handshakeTaken := h.handshakeTaken.write _ }
  | @bind t hpc =>
    rw [hpc] at hfits
    have hbind : Session J cfg env { s with serverBound := true } := { h with }
    rcases serverUdpDispatch_cases t with hd | hd
    · rw [hd]
      exact hbind.serverGoOn hpc trivial ServerPc.noConfusion trivial ServerPc.noConfusion
        ⟨hfits.1, hfits.2, hd⟩
    · rw [hd]
      exact hbind.serverGoOn hpc trivial ServerPc.noConfusion trivial ServerPc.noConfusion
        ⟨hfits.1, hfits.2, hd⟩
  | first hpc hq =>
    rw [hpc] at hfits
    have hreceive : Session J cfg env { s with serverQueue := s.serverQueue - 1 } := { h with }
    exact hreceive.serverGoOn hpc trivial ServerPc.noConfusion trivial ServerPc.noConfusion hfits
  | datagram hpc => exact { h with }
  | received hpc => exact { h with }
  | leaveUdp hpc =>
    rcases hpc with hpc | hpc
    · exact h.serverEnds hpc trivial
    · exact h.serverEnds hpc trivial
  | @tcpSent t k hpc =>
    have hwrites := h.serverWrites hpc trivial (dataOctets k)
    exact { hwrites with }
  | tcpReceived hpc hk =>
    exact
      { h with
        setupTaken := by
          show SetupTaken _ s.server
          rw [hpc]
          trivial }
  | leaveTcp hpc =>
    rcases hpc with hpc | hpc
    · rw [hpc] at hfits
      exact h.serverGoOn hpc trivial ServerPc.noConfusion trivial ServerPc.noConfusion hfits.2.1
    · rw [hpc] at hfits
      exact h.serverGoOn hpc trivial ServerPc.noConfusion trivial ServerPc.noConfusion hfits.2.1
  | @result st hpc hst =>
    rw [hpc] at hfits
    have hwrites := h.serverWrites hpc trivial (frameOctets (wireBytes J st.message))
    have hgo : Session J cfg env
        { s with
          server := .writeDone
          toClient := s.toClient.write (frameOctets (wireBytes J st.message)) } :=
      hwrites.serverGoOn hpc trivial ServerPc.noConfusion trivial ServerPc.noConfusion hfits
    exact { hgo with }
  | noResult hpc hst =>
    rw [hpc] at hfits
    exact h.serverGoOn hpc trivial ServerPc.noConfusion trivial ServerPc.noConfusion hfits
  | done hpc =>
    have hwrites := h.serverWrites hpc trivial (frameOctets (wireBytes J .done))
    have hends := hwrites.serverEnds hpc trivial
    exact { hends with }
  | resultFails hpc hst hfail => exact h.serverEnds hpc trivial
  | doneFails hpc hfail => exact h.serverEnds hpc trivial

/-! ### The whole session -/

theorem session_step (hJ : Honest J cfg env) (h : Session J cfg env s) {a : Action}
    (hs : step J cfg env s a = some s') : Session J cfg env s' := by
  cases a with
  | client a => exact session_client hJ h (clientStep_rule hJ.setup hs)
  | server a => exact session_server hJ h (serverStep_rule hJ.ack hJ.start hs)
  | deliver =>
    rcases (deliverStep_cases hs).2 with rfl | ⟨-, rfl⟩
    · exact { h with }
    · exact { h with }

theorem session_reachable (hJ : Honest J cfg env) (h : Reachable J cfg env s) :
    Session J cfg env s :=
  h.invariant (session_init J cfg env) fun _ _ _ hinv _ hs => session_step hJ hinv hs

/-! ### A run to the data phases -/

def State.handshaken (J : SerdeJson) (cfg : Config) (env : Env) : State :=
  { State.init with
    client := clientDispatch cfg
    server := serverDispatch cfg.serverTest
    toServer :=
      (Pipe.empty.write (frameOctets (wireBytes J cfg.setup))).advance
        (wireBytes J cfg.setup).length
    toClient :=
      (((Pipe.empty.write (frameOctets (wireBytes J env.ack))).write
        (frameOctets (wireBytes J env.startMsg))).advance (wireBytes J env.ack).length).advance
          (wireBytes J env.startMsg).length }

theorem handshaken_reachable (hJ : Honest J cfg env) :
    Reachable J cfg env (State.handshaken J cfg env) := by
  let S := wireBytes J cfg.setup
  let A := wireBytes J env.ack
  let T := wireBytes J env.startMsg
  let toServer := Pipe.empty.write (frameOctets S)
  let toClient := (Pipe.empty.write (frameOctets A)).write (frameOctets T)
  have hsetup : readFrame J toServer [] S.length =
      some (toServer.advance S.length, .message (.ok cfg.setup)) := by
    have hunread : toServer.unread = frameOctets S ++ [] := by
      rw [List.append_nil]
      rfl
    exact readFrame_whole hJ.setup hunread
  have hack : readFrame J toClient [] A.length =
      some (toClient.advance A.length, .message (.ok env.ack)) :=
    readFrame_whole hJ.ack rfl
  have hstart : readFrame J (toClient.advance A.length) [] T.length =
      some ((toClient.advance A.length).advance T.length, .message (.ok env.startMsg)) := by
    have hunread : (toClient.advance A.length).unread = frameOctets T ++ [] := by
      rw [unread_advance, List.append_nil]
      exact List.drop_left' (length_frameOctets _)
    exact readFrame_whole hJ.start hunread
  have h1 : Reachable J cfg env
      { State.init with client := .readAck [], toServer := toServer } := by
    refine Lts.Reach.snoc (a := .client .go) .start ?_
    simp only [step, clientStep, State.init, serializeMessage_carries hJ.setup]
    rfl
  have h2 : Reachable J cfg env
      { State.init with
        client := .readAck []
        server := .writeAck cfg.serverTest
        toServer := toServer.advance S.length } := by
    refine h1.snoc (a := .server (.read S.length)) ?_
    show (readFrame J toServer [] S.length).map _ = _
    rw [hsetup]
    exact congrArg some (onSetup_setup _)
  have h3 : Reachable J cfg env
      { State.init with
        client := .readAck []
        server := .writeStart cfg.serverTest
        toServer := toServer.advance S.length
        toClient := Pipe.empty.write (frameOctets A) } := by
    refine h2.snoc (a := .server .go) ?_
    show some (State.serverWrite J _ env.ack _) = _
    rw [serverWrite_carries hJ.ack]
    rfl
  have h4 : Reachable J cfg env
      { State.init with
        client := .readAck []
        server := serverDispatch cfg.serverTest
        toServer := toServer.advance S.length
        toClient := toClient } := by
    refine h3.snoc (a := .server .go) ?_
    show some (State.serverWrite J _ env.startMsg _) = _
    rw [serverWrite_carries hJ.start]
  have h5 : Reachable J cfg env
      { State.init with
        client := .readStart []
        server := serverDispatch cfg.serverTest
        toServer := toServer.advance S.length
        toClient := toClient.advance A.length } := by
    refine h4.snoc (a := .client (.read A.length)) ?_
    show (readFrame J toClient [] A.length).map _ = _
    rw [hack]
    rfl
  refine h5.snoc (a := .client (.read T.length)) ?_
  show (readFrame J (toClient.advance A.length) [] T.length).map _ = _
  rw [hstart]
  rfl

theorem clientDispatch_udp (hudp : cfg.protocol = .udp) : clientDispatch cfg = .bindUdp := by
  rw [clientDispatch, hudp]

theorem serverDispatch_udp (hudp : cfg.protocol = .udp) :
    serverDispatch cfg.serverTest = .bindUdp cfg.serverTest := by
  have hp : cfg.serverTest.udp = decide (cfg.protocol = .udp) := rfl
  rw [serverDispatch, hp, hudp]
  rfl

theorem bindUdp_reachable (hJ : Honest J cfg env) (hudp : cfg.protocol = .udp) :
    Reachable J cfg env
      { State.handshaken J cfg env with
        client := udpDispatch cfg
        server := .bindUdp cfg.serverTest } := by
  refine (handshaken_reachable hJ).snoc (a := .client .go) ?_
  show clientStep J cfg
    { State.handshaken J cfg env with
      client := clientDispatch cfg, server := serverDispatch cfg.serverTest } .go = _
  rw [clientDispatch_udp hudp, serverDispatch_udp hudp]
  rfl

/-! ### Sessions on the local host -/

def localEnv : Env :=
  { port := 5201
    cookie := "127.0.0.1:40000"
    timestamp := 7
    stats := some { bytesSent := 4, bytesReceived := 0, duration := 1, bitsPerSecond := 32 }
    clock := 0
    recvWorkers := 1
    unboundDrops := false }

def udpTest : Config :=
  { protocol := .udp
    duration := 1000000000
    bandwidth := none
    bufferSize := 1200
    parallel := 1
    reverse := false
    oneWay := .none
    expectedPps := none }

def udpLongTest : Config := { udpTest with bufferSize := 70000 }
def udpReceiveTest : Config := { udpTest with oneWay := .receive }
def tcpReverseTest : Config := { udpTest with protocol := .tcp, reverse := true }

def setupText (protocol bufferSize reverse oneWay : String) : Bytes :=
  jsonObject
    ["\"type\":\"Setup\"", "\"version\":1", protocol, "\"duration\":1", "\"bandwidth\":null",
      bufferSize, "\"parallel\":1", reverse, oneWay, "\"expected_pps\":null"]

def sessionTexts : List (Message × Bytes) :=
  [(localEnv.ack, jsonObject
      ["\"type\":\"SetupAck\"", "\"port\":5201", "\"cookie\":\"127.0.0.1:40000\""]),
    (localEnv.startMsg, jsonObject ["\"type\":\"Start\"", "\"timestamp\":7"]),
    (.done, jsonObject ["\"type\":\"Done\""]),
    (.resultOf 0 4 0 1 32 none, jsonObject
      ["\"type\":\"Result\"", "\"stream_id\":0", "\"bytes_sent\":4", "\"bytes_received\":0",
        "\"duration\":1.0", "\"bits_per_second\":32.0", "\"retransmits\":null",
        "\"packets_sent\":null", "\"packets_received\":null", "\"packet_loss\":null",
        "\"jitter_ms\":null", "\"out_of_order\":null"]),
    (udpTest.setup, setupText "\"protocol\":\"Udp\"" "\"buffer_size\":1200" "\"reverse\":false"
      "\"one_way\":null"),
    (udpLongTest.setup, setupText "\"protocol\":\"Udp\"" "\"buffer_size\":70000"
      "\"reverse\":false" "\"one_way\":null"),
    (udpReceiveTest.setup, setupText "\"protocol\":\"Udp\"" "\"buffer_size\":1200"
      "\"reverse\":false" "\"one_way\":\"receive\""),
    (tcpReverseTest.setup, setupText "\"protocol\":\"Tcp\"" "\"buffer_size\":1200"
      "\"reverse\":true" "\"one_way\":null")]

theorem sessionTexts_carries {e : Message × Bytes} (he : e ∈ sessionTexts) :
    (SerdeJson.ofTable sessionTexts).Carries e.1 :=
  ofTable_carries (by decide +kernel) (by decide +kernel) (by decide +kernel) he

theorem sessionTexts_honest {cfg : Config} {text : Bytes} (h : (cfg.setup, text) ∈ sessionTexts) :
    Honest (.ofTable sessionTexts) cfg localEnv where
  setup := sessionTexts_carries h
  ack := sessionTexts_carries (.head _)
  start := sessionTexts_carries (.tail _ (.head _))

theorem udpTest_honest : Honest (.ofTable sessionTexts) udpTest localEnv :=
  sessionTexts_honest (.tail _ (.tail _ (.tail _ (.tail _ (.head _)))))

theorem udpLongTest_honest : Honest (.ofTable sessionTexts) udpLongTest localEnv :=
  sessionTexts_honest (.tail _ (.tail _ (.tail _ (.tail _ (.tail _ (.head _))))))

theorem udpReceiveTest_honest : Honest (.ofTable sessionTexts) udpReceiveTest localEnv :=
  sessionTexts_honest (.tail _ (.tail _ (.tail _ (.tail _ (.tail _ (.tail _ (.head _)))))))

theorem tcpReverseTest_honest : Honest (.ofTable sessionTexts) tcpReverseTest localEnv :=
  sessionTexts_honest
    (.tail _ (.tail _ (.tail _ (.tail _ (.tail _ (.tail _ (.tail _ (.head _))))))))

end Rperf3.Joint
