import Rperf3.Joint.TcpBytes

/-!
# One party and any other (`client.rs:520-935`, `server.rs:647-870`)

Here only one of the two programs runs. The other end of the connection writes
whatever octets it likes, closes when it likes and sends any datagrams. What the
program answers, and when it begins its test, depends on the frames it could
decode and on nothing else.
-/

namespace Rperf3.Joint
open Rperf3

variable {J : SerdeJson} {cfg : Config} {env : Env}

/-! ### Frames at the front of a stream -/

def octetBytes (os : List Octet) : Bytes := os.map Octet.byte

def Pipe.bytes (p : Pipe) : Bytes := octetBytes p.sent

structure IsFrame (J : SerdeJson) (f : Bytes) (m : Message) : Prop where
  whole : f.length = need f
  decodes : J.fromSlice (f.drop 4) = .ok m

theorem IsFrame.decodeFrame {f : Bytes} {m : Message} (h : IsFrame J f m) (rest : Bytes) :
    decodeFrame J (f ++ rest) = (.ok m, rest) := by
  rw [decodeFrame_complete J h.whole, h.decodes]

/-- The reader has taken `pre` and the incomplete frame `got`, whatever the octets are. -/
def Reading (pre got : Bytes) (p : Pipe) : Prop :=
  got.length < need got ∧ pre ++ (got ++ octetBytes p.unread) = p.bytes

section Reader

variable {p p' : Pipe} {pre got : Bytes} {k : ℕ}

theorem Reading.begin (h : pre ++ octetBytes p.unread = p.bytes) : Reading pre [] p :=
  ⟨by decide, h⟩

theorem bytes_write (p : Pipe) (os : List Octet) : (p.write os).bytes = p.bytes ++ octetBytes os :=
  List.map_append

theorem Reading.write (os : List Octet) (h : Reading pre got p) : Reading pre got (p.write os) := by
  refine ⟨h.1, ?_⟩
  rw [bytes_write, ← h.2, unread_write, octetBytes, List.map_append, List.append_assoc,
    List.append_assoc]
  rfl

theorem Reading.close (h : Reading pre got p) : Reading pre got p.close := h

theorem bytes_readFrame {r : FrameRead} (hr : readFrame J p got k = some (p', r)) :
    p'.bytes = p.bytes := by
  rw [(readFrame_advance hr).1]
  rfl

theorem Reading.more (h : Reading pre got p) {got' : Bytes}
    (hr : readFrame J p got k = some (p', .more got')) : Reading pre got' p' := by
  obtain ⟨hinc, hbytes⟩ := (readFrame_decodeFrame hr h.1).1 got' rfl
  refine ⟨hinc, ?_⟩
  rw [bytes_readFrame hr, ← h.2]
  exact congrArg (pre ++ ·) hbytes

theorem Reading.message (h : Reading pre got p) {m : Message}
    (hr : readFrame J p got k = some (p', .message (.ok m))) :
    ∃ f, IsFrame J f m ∧ (pre ++ f) ++ octetBytes p'.unread = p'.bytes := by
  have hbytes := bytes_readFrame hr
  unfold readFrame at hr
  by_cases hk : k = 0
  · rw [if_pos hk] at hr
    obtain ⟨-, hsome⟩ := Option.ite_none_right_eq_some.mp hr
    cases hsome
  · rw [if_neg hk] at hr
    obtain ⟨-, hsome⟩ := Option.ite_none_right_eq_some.mp hr
    obtain ⟨-, hsome⟩ := Option.ite_none_left_eq_some.mp hsome
    by_cases hdone : (got ++ (p.unread.take k).map Octet.byte).length =
        need (got ++ (p.unread.take k).map Octet.byte)
    · rw [if_pos hdone] at hsome
      have hpair := Option.some.inj hsome
      have hp : p.advance k = p' := congrArg Prod.fst hpair
      have hm : J.fromSlice ((got ++ (p.unread.take k).map Octet.byte).drop 4) = .ok m :=
        FrameRead.message.inj (congrArg Prod.snd hpair)
      refine ⟨_, ⟨hdone, hm⟩, ?_⟩
      rw [hbytes, ← h.2, ← hp, unread_advance, octetBytes, octetBytes, List.append_assoc,
        List.append_assoc, ← List.map_append, List.take_append_drop]
    · rw [if_neg hdone] at hsome
      cases hsome

end Reader

/-! ### A server and any client -/

inductive ServerMove where
  | server (a : Act)
  | write (os : List Octet)
  | close
  | datagram
  | deliver

def anyClientStep (J : SerdeJson) (env : Env) (s : State) : ServerMove → Option State
  | .server a => serverStep J env s a
  | .write os =>
    if s.toServer.closed then none else some { s with toServer := s.toServer.write os }
  | .close => some { s with toServer := s.toServer.close }
  | .datagram => some { s with inFlight := s.inFlight + 1 }
  | .deliver => deliverStep env s

/-- The first frame of the client asks for the test `t`. -/
def Asked (J : SerdeJson) (p : Pipe) (t : ServerTest) : Prop :=
  ∃ f m, IsFrame J f m ∧ f <+: p.bytes ∧ ServerTest.ofSetup m = some t

/-- The server of the test is the one that reads the data. -/
def readsData (t : ServerTest) : Prop :=
  if t.udp then serverUdpDispatch t = .udpReceive t else t.reverse = false

theorem readsData_udp {t : ServerTest} (hudp : t.udp = true)
    (hd : serverUdpDispatch t = .udpReceive t) : readsData t := by
  rw [readsData, if_pos hudp]
  exact hd

theorem readsData_tcp {t : ServerTest} (htcp : t.udp = false) (hr : t.reverse = false) :
    readsData t := by
  rw [readsData, htcp, if_neg Bool.false_ne_true]
  exact hr

def ServerPc.serves (t : ServerTest) : ServerPc → Prop
  | .readSetup _ => False
  | .writeAck t' | .writeStart t' => t' = t
  | .bindUdp t' => t' = t ∧ t.udp = true
  | .udpReceive t' => t' = t ∧ t.udp = true ∧ serverUdpDispatch t = .udpReceive t
  | .udpWaitFirst t' | .udpSend t' =>
    t' = t ∧ t.udp = true ∧ serverUdpDispatch t = .udpWaitFirst t
  | .tcpSend t' => t' = t ∧ t.udp = false ∧ t.reverse = true
  | .tcpReceive t' => t' = t ∧ t.udp = false ∧ t.reverse = false
  | .writeResult | .writeDone => t.udp = false
  | .finished => True

/-- What of its report the server has written, place by place. -/
def Reported (env : Env) (frames : List Message) : ServerPc → Prop
  | .writeDone => frames = (env.stats.map ResultStats.message).toList
  | .finished => frames <+: env.report
  | _ => frames = []

structure Serving (J : SerdeJson) (env : Env) (t : ServerTest) (s : State) : Prop where
  asked : Asked J s.toServer t
  place : s.server.serves t
  handshake : HandshakeSent J env s.toClient.sent s.server
  wrote : ServerWrote J env s.toClient s.frames s.server
  reported : Reported env s.frames s.server
  data : 0 < dataWritten s.toClient → t.udp = false ∧ t.reverse = true
  datagrams : 0 < s.clientQueue → t.udp = true ∧ serverUdpDispatch t = .udpWaitFirst t
  bound : s.serverBound = true → t.udp = true
  moved : 0 < s.moved → t.udp = false
  reads : 0 < s.serverReads → readsData t

/-- Nothing has been answered and nothing counted. -/
structure Silent (s : State) : Prop where
  sent : s.toClient.sent = []
  frames : s.frames = []
  queue : s.clientQueue = 0
  unbound : s.serverBound = false
  unmoved : s.moved = 0
  unread : s.serverReads = 0

/-- The server still reads the first frame, it has turned the client away, or it serves a test that
the client asked for. -/
def AnyClientInv (J : SerdeJson) (env : Env) (s : State) : Prop :=
  (∃ got, s.server = .readSetup got ∧ Reading [] got s.toServer ∧ Silent s) ∨
    (s.server = .finished ∧ Silent s) ∨ ∃ t, Serving J env t s

section Server

variable {s s' : State} {t : ServerTest}

theorem Asked.of_prefix {p p' : Pipe} (h : Asked J p t) (hp : p.bytes <+: p'.bytes) :
    Asked J p' t := by
  obtain ⟨f, m, hf, hpre, ht⟩ := h
  exact ⟨f, m, hf, hpre.trans hp, ht⟩

theorem anyClientInv_init : AnyClientInv J env State.init :=
  .inl ⟨[], rfl, .begin rfl, rfl, rfl, rfl, rfl, rfl, rfl⟩

/-- What the client writes changes nothing of what has been decoded. -/
theorem AnyClientInv.grow {p : Pipe} (h : AnyClientInv J env s)
    (hread : ∀ got, Reading [] got s.toServer → Reading [] got p)
    (hbytes : s.toServer.bytes <+: p.bytes) : AnyClientInv J env { s with toServer := p } := by
  rcases h with ⟨got, hpc, hgot, hsilent⟩ | ⟨hpc, hsilent⟩ | ⟨t, ht⟩
  · exact .inl ⟨got, hpc, hread got hgot, { hsilent with }⟩
  · exact .inr (.inl ⟨hpc, { hsilent with }⟩)
  · exact .inr (.inr ⟨t, { ht with asked := ht.asked.of_prefix hbytes }⟩)

theorem AnyClientInv.network (h : AnyClientInv J env s) (inFlight serverQueue : ℕ) :
    AnyClientInv J env { s with inFlight := inFlight, serverQueue := serverQueue } := by
  rcases h with ⟨got, hpc, hgot, hsilent⟩ | ⟨hpc, hsilent⟩ | ⟨t, ht⟩
  · exact .inl ⟨got, hpc, hgot, { hsilent with }⟩
  · exact .inr (.inl ⟨hpc, { hsilent with }⟩)
  · exact .inr (.inr ⟨t, { ht with }⟩)

theorem AnyClientInv.readSetup {got : Bytes} {k : ℕ} {p : Pipe} {r : FrameRead}
    (hgot : Reading [] got s.toServer) (hsilent : Silent s)
    (hr : readFrame J s.toServer got k = some (p, r)) : AnyClientInv J env (s.onSetup p r) := by
  cases r with
  | more got' => exact .inl ⟨got', rfl, hgot.more hr, { hsilent with }⟩
  | message m =>
    cases hm : m.toOption.bind ServerTest.ofSetup with
    | none =>
      simp only [State.onSetup, hm]
      exact .inr (.inl ⟨rfl, hsilent.sent, hsilent.frames, hsilent.queue, rfl, hsilent.unmoved,
        hsilent.unread⟩)
    | some t =>
      simp only [State.onSetup, hm]
      obtain ⟨msg, hmsg, ht⟩ := Option.bind_eq_some_iff.mp hm
      have hok : m = .ok msg := by
        cases m with
        | error e => exact absurd hmsg.symm (Option.some_ne_none msg)
        | ok m' => exact congrArg Except.ok (Option.some.inj hmsg)
      subst hok
      obtain ⟨f, hf, hrest⟩ := hgot.message hr
      rw [List.nil_append] at hrest
      have hnone : dataWritten s.toClient = 0 := by
        rw [dataWritten, hsilent.sent]
        rfl
      exact .inr (.inr ⟨t,
        { asked := ⟨f, msg, hf, ⟨_, hrest⟩, ht⟩
          place := rfl
          handshake := hsilent.sent
          wrote := ⟨hsilent.frames, hnone⟩
          reported := hsilent.frames
          data := fun hpos => absurd hpos (by rw [hnone]; exact Nat.lt_irrefl 0)
          datagrams := fun hpos => absurd hpos (by rw [hsilent.queue]; exact Nat.lt_irrefl 0)
          bound := fun hbound => Bool.noConfusion (hsilent.unbound.symm.trans hbound)
          moved := fun hpos => absurd hpos (by rw [hsilent.unmoved]; exact Nat.lt_irrefl 0)
          reads := fun hpos => absurd hpos (by rw [hsilent.unread]; exact Nat.lt_irrefl 0) }⟩)

theorem reported_nil {frames : List Message} (h : frames = []) : frames <+: env.report := by
  rw [h]
  exact List.nil_prefix

theorem Serving.start {t' : ServerTest} (h : Serving J env t s) (hpc : s.server = .writeStart t') :
    Serving J env t
      { s with
        toClient := s.toClient.write (frameOctets (wireBytes J env.startMsg))
        server := serverDispatch t' } := by
  have hplace := h.place
  have hack := h.handshake
  have hwrote := h.wrote
  have hreported := h.reported
  rw [hpc] at hplace hack hwrote hreported
  have hdata := dataWritten_write_frame s.toClient (wireBytes J env.startMsg)
  have hsent : frameOctets (wireBytes J env.ack ++ wireBytes J env.startMsg) <+:
      s.toClient.sent ++ frameOctets (wireBytes J env.startMsg) := by
    rw [show s.toClient.sent = _ from hack, frameOctets_append]
  obtain rfl : t' = t := hplace
  refine
    { asked := h.asked
      place := ?_
      handshake := ?_
      wrote := hwrote.start hack
      reported := ?_
      data := fun hpos => h.data (hdata ▸ hpos)
      datagrams := h.datagrams
      bound := h.bound
      moved := h.moved
      reads := h.reads }
  · show (serverDispatch t').serves t'
    unfold serverDispatch
    cases hudp : t'.udp with
    | true => exact ⟨rfl, hudp⟩
    | false =>
      cases hreverse : t'.reverse with
      | true => exact ⟨rfl, hudp, hreverse⟩
      | false => exact ⟨rfl, hudp, hreverse⟩
  · show HandshakeSent J env (_ ++ _) (serverDispatch t')
    unfold serverDispatch
    cases t'.udp <;> cases t'.reverse <;> exact hsent
  · show Reported env s.frames (serverDispatch t')
    unfold serverDispatch
    cases t'.udp <;> cases t'.reverse <;> exact hreported

theorem Serving.bind {t' : ServerTest} (h : Serving J env t s) (hpc : s.server = .bindUdp t') :
    Serving J env t { s with server := serverUdpDispatch t', serverBound := true } := by
  have hplace := h.place
  have hshake := h.handshake
  have hwrote := h.wrote
  have hreported := h.reported
  rw [hpc] at hplace hshake hwrote hreported
  obtain ⟨rfl, hudp⟩ := hplace
  rcases serverUdpDispatch_cases t' with hnext | hnext
  · rw [hnext]
    exact { h with place := ⟨rfl, hudp, hnext⟩, handshake := hshake, wrote := hwrote,
                   reported := hreported, bound := fun _ => hudp }
  · rw [hnext]
    exact { h with place := ⟨rfl, hudp, hnext⟩, handshake := hshake, wrote := hwrote,
                   reported := hreported, bound := fun _ => hudp }

theorem Serving.close (h : Serving J env t s)
    (hshake : frameOctets (wireBytes J env.ack ++ wireBytes J env.startMsg) <+: s.toClient.sent)
    (hwrote : ServerWrote J env s.toClient s.frames .finished)
    (hreported : s.frames <+: env.report) : Serving J env t s.serverClose :=
  { h with place := trivial, handshake := hshake, wrote := hwrote, reported := hreported,
           bound := fun hbound => Bool.noConfusion hbound }

theorem Serving.leaveUdp {t' : ServerTest} (h : Serving J env t s)
    (hpc : s.server = .udpSend t' ∨ s.server = .udpReceive t') : Serving J env t s.serverClose := by
  have hshake := h.handshake
  have hwrote := h.wrote
  have hreported := h.reported
  rcases hpc with hpc | hpc
  · rw [hpc] at hshake hwrote hreported
    exact h.close hshake (ServerWrote.unreported hwrote) (reported_nil hreported)
  · rw [hpc] at hshake hwrote hreported
    exact h.close hshake (ServerWrote.unreported hwrote) (reported_nil hreported)

theorem Serving.tcpSent {t' : ServerTest} (h : Serving J env t s) (hpc : s.server = .tcpSend t')
    (k : ℕ) : Serving J env t
      { s with toClient := s.toClient.write (dataOctets k), moved := s.moved + 1 } := by
  have hplace := h.place
  have hshake := h.handshake
  have hwrote := h.wrote
  rw [hpc] at hplace hshake hwrote
  refine { h with handshake := ?_, wrote := ?_, data := fun _ => hplace.2,
                  moved := fun _ => hplace.2.1 }
  · show HandshakeSent J env (s.toClient.sent ++ dataOctets k) s.server
    rw [hpc]
    exact List.IsPrefix.trans hshake (List.prefix_append _ _)
  · show ServerWrote J env (s.toClient.write (dataOctets k)) s.frames s.server
    rw [hpc]
    exact hwrote.sendData k

theorem Serving.leaveTcp {t' : ServerTest} (h : Serving J env t s)
    (hpc : s.server = .tcpSend t' ∨ s.server = .tcpReceive t') :
    Serving J env t { s with server := .writeResult } := by
  have hplace := h.place
  have hshake := h.handshake
  have hwrote := h.wrote
  have hreported := h.reported
  rcases hpc with hpc | hpc
  · rw [hpc] at hplace hshake hwrote hreported
    exact { h with place := hplace.2.1, handshake := hshake, wrote := hwrote,
                   reported := hreported }
  · rw [hpc] at hplace hshake hwrote hreported
    exact { h with place := hplace.2.1, handshake := hshake, wrote := hwrote,
                   reported := hreported }

theorem Serving.report {next : ServerPc} (h : Serving J env t s) (m : Message)
    (hsent : s.toClient.sent = handshakeOctets J env ++ dataOctets (dataWritten s.toClient) ++
      framesOctets J s.frames)
    (hnext : next = .writeDone ∨ next = .finished) (hplace : next.serves t)
    (hreported : Reported env (s.frames ++ [m]) next) :
    Serving J env t
      { s with
        toClient := s.toClient.write (frameOctets (wireBytes J m))
        server := next
        frames := s.frames ++ [m] } := by
  have hdata := dataWritten_write_frame s.toClient (wireBytes J m)
  have hwritten := sent_write_frame hsent m
  have hshake : frameOctets (wireBytes J env.ack ++ wireBytes J env.startMsg) <+:
      s.toClient.sent ++ frameOctets (wireBytes J m) := by
    rw [hsent, List.append_assoc, List.append_assoc]
    exact List.prefix_append _ _
  rcases hnext with rfl | rfl
  · exact { h with place := hplace, handshake := hshake, wrote := hwritten, reported := hreported,
                   data := fun hpos => h.data (hdata ▸ hpos) }
  · exact { h with place := hplace, handshake := hshake, wrote := hwritten, reported := hreported,
                   data := fun hpos => h.data (hdata ▸ hpos) }

theorem serving_server {a : Act} (h : Serving J env t s) (hrule : ServerRule J env s a s') :
    Serving J env t s' := by
  have hplace := h.place
  have hshake := h.handshake
  have hwrote := h.wrote
  have hreported := h.reported
  cases hrule with
  | readSetup hpc =>
    rw [hpc] at hplace
    exact hplace.elim
  | ack hpc =>
    rw [hpc] at hplace hshake hwrote hreported
    have hdata := dataWritten_write_frame s.toClient (wireBytes J env.ack)
    have hack : s.toClient.sent ++ frameOctets (wireBytes J env.ack) =
        frameOctets (wireBytes J env.ack) := by
      rw [show s.toClient.sent = [] from hshake]
      rfl
    exact { h with place := hplace, handshake := hack, wrote := ⟨hwrote.1, hdata.trans hwrote.2⟩,
                   reported := hreported, data := fun hpos => h.data (hdata ▸ hpos) }
  | start hpc => exact h.start hpc
  | bind hpc => exact h.bind hpc
  | first hpc hq =>
    rw [hpc] at hplace hshake hwrote hreported
    exact { h with place := hplace, handshake := hshake, wrote := hwrote, reported := hreported }
  | datagram hpc =>
    rw [hpc] at hplace
    exact { h with datagrams := fun _ => hplace.2 }
  | received hpc =>
    rw [hpc] at hplace
    exact { h with reads := fun _ => readsData_udp hplace.2.1 hplace.2.2 }
  | leaveUdp hpc => exact h.leaveUdp hpc
  | tcpSent hpc => exact h.tcpSent hpc _
  | tcpReceived hpc =>
    rw [hpc] at hplace
    exact { h with asked := h.asked, moved := fun _ => hplace.2.1,
                   reads := fun _ => readsData_tcp hplace.2.1 hplace.2.2 }
  | leaveTcp hpc => exact h.leaveTcp hpc
  | @result st hpc hst =>
    rw [hpc] at hplace hwrote hreported
    refine h.report st.message (ServerWrote.unreported hwrote) (.inl rfl) hplace ?_
    show s.frames ++ [st.message] = (env.stats.map ResultStats.message).toList
    rw [show s.frames = [] from hreported, hst]
    rfl
  | noResult hpc hst =>
    rw [hpc] at hplace hshake hwrote hreported
    refine { h with place := hplace, handshake := hshake,
                    wrote := ServerWrote.unreported hwrote, reported := ?_ }
    show s.frames = (env.stats.map ResultStats.message).toList
    rw [show s.frames = [] from hreported, hst]
    rfl
  | done hpc =>
    rw [hpc] at hwrote hreported
    have hnext : ServerPc.finished.serves t := trivial
    have hdone := h.report .done hwrote (.inr rfl) hnext
      (by rw [show s.frames = _ from hreported]; exact List.prefix_refl _)
    exact { hdone with asked := hdone.asked, bound := fun hbound => Bool.noConfusion hbound }
  | resultFails hpc =>
    rw [hpc] at hshake hwrote hreported
    exact h.close hshake (ServerWrote.unreported hwrote) (reported_nil hreported)
  | doneFails hpc =>
    rw [hpc] at hshake hwrote hreported
    refine h.close hshake hwrote ?_
    rw [show s.frames = _ from hreported]
    exact List.prefix_append _ _

theorem anyClientInv_step (hack : J.Carries env.ack) (hstart : J.Carries env.startMsg)
    {a : ServerMove} (h : AnyClientInv J env s) (hs : anyClientStep J env s a = some s') :
    AnyClientInv J env s' := by
  cases a with
  | server a =>
    have hrule := serverStep_rule hack hstart hs
    rcases h with ⟨got, hpc, hgot, hsilent⟩ | ⟨hpc, hsilent⟩ | ⟨t, ht⟩
    · cases hrule with
      | readSetup hpc' hr =>
        obtain rfl := ServerPc.readSetup.inj (hpc.symm.trans hpc')
        exact .readSetup hgot hsilent hr
      | leaveUdp hpc' => rcases hpc' with hpc' | hpc' <;> exact nomatch hpc.symm.trans hpc'
      | leaveTcp hpc' => rcases hpc' with hpc' | hpc' <;> exact nomatch hpc.symm.trans hpc'
      | _ hpc' => exact nomatch hpc.symm.trans hpc'
    · unfold anyClientStep serverStep at hs
      simp only [hpc, reduceCtorEq] at hs
    · exact .inr (.inr ⟨t, serving_server ht hrule⟩)
  | write os =>
    obtain ⟨-, hsome⟩ := Option.ite_none_left_eq_some.mp hs
    cases hsome
    refine h.grow (fun got hgot => hgot.write os) ?_
    rw [bytes_write]
    exact List.prefix_append _ _
  | close =>
    cases hs
    exact h.grow (fun got hgot => hgot.close) (List.prefix_refl _)
  | datagram =>
    cases hs
    exact h.network (s.inFlight + 1) s.serverQueue
  | deliver =>
    rcases (deliverStep_cases hs).2 with rfl | ⟨-, rfl⟩
    · exact h.network (s.inFlight - 1) (s.serverQueue + 1)
    · exact h.network (s.inFlight - 1) s.serverQueue

structure ServerSafe (J : SerdeJson) (env : Env) (s : State) : Prop where
  order : s.toClient.sent <+: handshakeOctets J env ++ dataOctets (dataWritten s.toClient) ++
    framesOctets J env.report
  /-- It answers, binds a port and moves data only for the `Setup` that the client's stream
  begins with, and what it moves is of the kind asked for. -/
  asked : s.toClient.sent ≠ [] ∨ s.serverBound = true ∨ 0 < s.clientQueue ∨ 0 < s.moved ∨
      0 < s.serverReads →
    ∃ m rest t, decodeFrame J s.toServer.bytes = (.ok m, rest) ∧ ServerTest.ofSetup m = some t ∧
      (0 < s.moved → t.udp = false) ∧
      (0 < s.serverReads → readsData t) ∧
      (0 < dataWritten s.toClient → t.udp = false ∧ t.reverse = true) ∧
      (s.serverBound = true → t.udp = true) ∧
      (0 < s.clientQueue → t.udp = true ∧ serverUdpDispatch t = .udpWaitFirst t)

theorem Serving.order (h : Serving J env t s) :
    s.toClient.sent <+: handshakeOctets J env ++ dataOctets (dataWritten s.toClient) ++
      framesOctets J env.report := by
  have hshake := h.handshake
  have hwrote := h.wrote
  have hreported := h.reported
  have hend : s.frames <+: env.report → s.toClient.sent = handshakeOctets J env ++
      dataOctets (dataWritten s.toClient) ++ framesOctets J s.frames →
      s.toClient.sent <+: handshakeOctets J env ++ dataOctets (dataWritten s.toClient) ++
        framesOctets J env.report := by
    rintro ⟨more, hmore⟩ hsent
    rw [← hmore, framesOctets_append, ← List.append_assoc, ← hsent]
    exact List.prefix_append _ _
  cases hpc : s.server <;> rw [hpc] at hshake hwrote hreported
  case readSetup got =>
    rw [show s.toClient.sent = [] from hshake]
    exact List.nil_prefix
  case writeAck t' =>
    rw [show s.toClient.sent = [] from hshake]
    exact List.nil_prefix
  case writeStart t' =>
    rw [show s.toClient.sent = _ from hshake, handshakeOctets, frameOctets_append,
      List.append_assoc, List.append_assoc]
    exact List.prefix_append _ _
  case writeDone =>
    refine hend ?_ hwrote
    rw [show s.frames = _ from hreported]
    exact List.prefix_append _ _
  case finished => exact hend hreported hwrote
  all_goals exact hend (reported_nil hreported) (ServerWrote.unreported hwrote)

theorem Silent.safe (h : Silent s) : ServerSafe J env s where
  order := by
    rw [h.sent]
    exact List.nil_prefix
  asked hdone := by
    have hqueue := h.queue
    have hmoved := h.unmoved
    have hread := h.unread
    rcases hdone with hsent | hbound | hpos | hpos | hpos
    · exact absurd h.sent hsent
    · exact Bool.noConfusion (h.unbound.symm.trans hbound)
    · omega
    · omega
    · omega

end Server

/-- Whatever a client writes and sends, and however the server's reads cut it up: the server
answers nothing but a `Setup`, in the order of the protocol, and runs the test asked for. -/
theorem server_anyClient (hack : J.Carries env.ack) (hstart : J.Carries env.startMsg) (s : State)
    (h : Lts.Reachable (anyClientStep J env) State.init s) : ServerSafe J env s := by
  have hinv : AnyClientInv J env s :=
    h.invariant anyClientInv_init fun _ _ _ hi _ hs => anyClientInv_step hack hstart hi hs
  rcases hinv with ⟨got, -, -, hsilent⟩ | ⟨-, hsilent⟩ | ⟨t, ht⟩
  · exact hsilent.safe
  · exact hsilent.safe
  · obtain ⟨f, m, hf, ⟨rest, hrest⟩, htest⟩ := ht.asked
    refine ⟨ht.order, fun _ => ⟨m, rest, t, ?_, htest, ht.moved, ht.reads, ht.data, ht.bound,
      ht.datagrams⟩⟩
    rw [← hrest]
    exact hf.decodeFrame rest

/-- A client that writes its `Setup` and some octets more, and then only reads. -/
def talkativeClient : List ServerMove :=
  [.write (frameOctets (wireBytes (.ofTable sessionTexts) tcpReverseTest.setup)),
    .write (dataOctets 7), .server (.read 100), .server (.read 61), .server .go, .server .go,
    .close, .datagram, .server (.transfer 4), .server .leave]

theorem server_anyClient_talkative :
    ∃ s, (dataWritten s.toClient = 4 ∧ s.server = .writeResult) ∧
      ServerSafe (.ofTable sessionTexts) localEnv s := by
  have hrun : (Lts.run (anyClientStep (.ofTable sessionTexts) localEnv) (fun _ _ => True)
      State.init talkativeClient).any
      (fun s => dataWritten s.toClient = 4 ∧ s.server = .writeResult) = true := by decide +kernel
  obtain ⟨s, hs, hend⟩ := (Option.any_eq_true _ _).mp hrun
  exact ⟨s, of_decide_eq_true hend, server_anyClient tcpReverseTest_honest.ack
    tcpReverseTest_honest.start s (Lts.Reach.start.run hs)⟩

/-! ### A client and any server -/

inductive ClientMove where
  | client (a : Act)
  | write (os : List Octet)
  | close
  | datagram

def anyServerStep (J : SerdeJson) (cfg : Config) (s : State) : ClientMove → Option State
  | .client a => clientStep J cfg s a
  | .write os =>
    if s.toClient.closed then none else some { s with toClient := s.toClient.write os }
  | .close => some { s with toClient := s.toClient.close }
  | .datagram => some { s with clientQueue := s.clientQueue + 1 }

/-- The server's stream begins with a `SetupAck` and a `Start`. -/
def Agreed (J : SerdeJson) (p : Pipe) : Prop :=
  ∃ f g port cookie time, IsFrame J f (.setupAck port cookie) ∧ IsFrame J g (.start time) ∧
    f ++ g <+: p.bytes

structure Testing (J : SerdeJson) (cfg : Config) (s : State) : Prop where
  agreed : Agreed J s.toClient
  started : s.client.started
  place : s.client.fits cfg
  wrote : s.toServer.sent =
    frameOctets (wireBytes J cfg.setup) ++ dataOctets (dataWritten s.toServer)
  data : 0 < dataWritten s.toServer → cfg.protocol = .tcp ∧ cfg.reverse = false
  datagrams : 0 < s.inFlight → cfg.protocol = .udp ∧ udpDispatch cfg ≠ .oneWayCheck
  recorded : s.recorded ≠ [] → cfg.protocol = .tcp ∧ cfg.reverse = true
  received : 0 < s.received → cfg.protocol = .udp ∧ udpDispatch cfg ≠ .udpSend

/-- The client has sent `octets`, without test data among them, and nothing else. -/
structure Untested (octets : List Octet) (s : State) : Prop where
  sent : s.toServer.sent = octets
  noData : octets.countP Octet.data = 0
  noDatagram : s.inFlight = 0
  nothing : s.recorded = []
  unreceived : s.received = 0

/-- The frames of the handshake that the client has, place by place. -/
def Handshaking (J : SerdeJson) (p : Pipe) : ClientPc → Prop
  | .readAck got => Reading [] got p
  | .readStart got => ∃ f port cookie, IsFrame J f (.setupAck port cookie) ∧ Reading f got p
  | .finished => True
  | _ => False

def AnyServerInv (J : SerdeJson) (cfg : Config) (s : State) : Prop :=
  (s.client = .sendSetup ∧ Reading [] [] s.toClient ∧ Untested [] s) ∨
    (Handshaking J s.toClient s.client ∧ Untested (frameOctets (wireBytes J cfg.setup)) s) ∨
    Testing J cfg s

section Client

variable {s s' : State}

theorem Agreed.of_prefix {p p' : Pipe} (h : Agreed J p) (hp : p.bytes <+: p'.bytes) :
    Agreed J p' := by
  obtain ⟨f, g, port, cookie, time, hf, hg, hpre⟩ := h
  exact ⟨f, g, port, cookie, time, hf, hg, hpre.trans hp⟩

theorem anyServerInv_init : AnyServerInv J cfg State.init :=
  .inl ⟨rfl, .begin rfl, rfl, rfl, rfl, rfl, rfl⟩

theorem AnyServerInv.grow {p : Pipe} (h : AnyServerInv J cfg s)
    (hread : ∀ pre got, Reading pre got s.toClient → Reading pre got p)
    (hbytes : s.toClient.bytes <+: p.bytes) : AnyServerInv J cfg { s with toClient := p } := by
  rcases h with ⟨hpc, hread', huntested⟩ | ⟨hplace, huntested⟩ | ht
  · exact .inl ⟨hpc, hread _ _ hread', { huntested with }⟩
  · refine .inr (.inl ⟨?_, { huntested with }⟩)
    show Handshaking J p s.client
    cases hpc : s.client <;> rw [hpc] at hplace
    case readAck got => exact hread _ _ hplace
    case readStart got =>
      obtain ⟨f, port, cookie, hf, hgot⟩ := hplace
      exact ⟨f, port, cookie, hf, hread _ _ hgot⟩
    case finished => trivial
    all_goals exact hplace.elim
  · exact .inr (.inr { ht with agreed := ht.agreed.of_prefix hbytes })

theorem AnyServerInv.readAck {got : Bytes} {k : ℕ} {p : Pipe} {r : FrameRead}
    (hgot : Reading [] got s.toClient)
    (huntested : Untested (frameOctets (wireBytes J cfg.setup)) s)
    (hr : readFrame J s.toClient got k = some (p, r)) : AnyServerInv J cfg (s.onAck p r) := by
  refine .inr (.inl ?_)
  cases r with
  | more got' => exact ⟨hgot.more hr, { huntested with }⟩
  | message m =>
    rcases m with e | m
    · exact ⟨trivial, { huntested with }⟩
    · cases m with
      | setupAck port cookie =>
        obtain ⟨f, hf, hrest⟩ := hgot.message hr
        exact ⟨⟨f, port, cookie, hf, .begin hrest⟩, { huntested with }⟩
      | _ => exact ⟨trivial, { huntested with }⟩

theorem clientDispatch_fits (cfg : Config) :
    (clientDispatch cfg).started ∧ (clientDispatch cfg).fits cfg := by
  unfold clientDispatch
  cases hprotocol : cfg.protocol with
  | udp => exact ⟨trivial, hprotocol⟩
  | tcp =>
    cases hreverse : cfg.reverse with
    | true => exact ⟨trivial, hprotocol, hreverse⟩
    | false => exact ⟨trivial, hprotocol, hreverse⟩

theorem AnyServerInv.readStart {got : Bytes} {k : ℕ} {p : Pipe} {r : FrameRead}
    (hplace : Handshaking J s.toClient (.readStart got))
    (huntested : Untested (frameOctets (wireBytes J cfg.setup)) s)
    (hr : readFrame J s.toClient got k = some (p, r)) :
    AnyServerInv J cfg (s.onStart cfg p r) := by
  obtain ⟨f, port, cookie, hf, hgot⟩ := hplace
  cases r with
  | more got' => exact .inr (.inl ⟨⟨f, port, cookie, hf, hgot.more hr⟩, { huntested with }⟩)
  | message m =>
    rcases m with e | m
    · exact .inr (.inl ⟨trivial, { huntested with }⟩)
    · cases m with
      | start time =>
        obtain ⟨g, hg, hrest⟩ := hgot.message hr
        have hnone : dataWritten s.toServer = 0 := by
          rw [dataWritten, huntested.sent]
          exact huntested.noData
        have hflight := huntested.noDatagram
        have hreceived := huntested.unreceived
        refine .inr (.inr
          { agreed := ⟨f, g, port, cookie, time, hf, hg, ⟨_, hrest⟩⟩
            started := (clientDispatch_fits cfg).1
            place := (clientDispatch_fits cfg).2
            wrote := ?_
            data := fun hpos => absurd (show 0 < dataWritten s.toServer from hpos) (by omega)
            datagrams := fun hpos => absurd (show 0 < s.inFlight from hpos) (by omega)
            recorded := fun hne => absurd huntested.nothing hne
            received := fun hpos => absurd (show 0 < s.received from hpos) (by omega) })
        show s.toServer.sent = _ ++ dataOctets (dataWritten s.toServer)
        rw [hnone, huntested.sent]
        exact (List.append_nil _).symm
      | _ => exact .inr (.inl ⟨trivial, { huntested with }⟩)

theorem Testing.close (h : Testing J cfg s) : Testing J cfg s.clientClose :=
  { h with started := trivial, place := trivial, wrote := h.wrote, data := h.data }

theorem testing_client {a : Act} (h : Testing J cfg s) (hrule : ClientRule J cfg s a s') :
    Testing J cfg s' := by
  have hstarted := h.started
  have hplace := h.place
  cases hrule with
  | setup hpc | readAck hpc | readStart hpc =>
    rw [hpc] at hstarted
    exact hstarted.elim
  | bind hpc =>
    rw [hpc] at hplace
    have hnext : (udpDispatch cfg).started ∧ (udpDispatch cfg).fits cfg := by
      unfold udpDispatch
      cases hone : cfg.oneWay with
      | send => exact ⟨trivial, hplace, by unfold udpDispatch; rw [hone]⟩
      | receive => exact ⟨trivial, hplace, by unfold udpDispatch; rw [hone]⟩
      | none =>
        cases hreverse : cfg.reverse with
        | true => exact ⟨trivial, hplace, by unfold udpDispatch; rw [hone, hreverse]; rfl⟩
        | false => exact ⟨trivial, hplace, by unfold udpDispatch; rw [hone, hreverse]; rfl⟩
    exact { h with started := hnext.1, place := hnext.2 }
  | datagram hpc =>
    rw [hpc] at hplace
    exact { h with datagrams := fun _ => ⟨hplace.1, by rw [hplace.2]; exact ClientPc.noConfusion⟩ }
  | init hpc =>
    rw [hpc] at hplace
    exact { h with started := trivial, place := hplace,
                   datagrams := fun _ => ⟨hplace.1, by rw [hplace.2]; exact ClientPc.noConfusion⟩ }
  | udpReceived hpc =>
    rw [hpc] at hplace
    exact { h with received := fun _ => ⟨hplace.1, by rw [hplace.2]; exact ClientPc.noConfusion⟩ }
  | oneWayEnter hpc =>
    rw [hpc] at hplace
    exact { h with started := trivial, place := hplace }
  | oneWayReceived hpc =>
    rw [hpc] at hplace
    exact { h with started := trivial, place := hplace,
                   received := fun _ => ⟨hplace.1, by rw [hplace.2]; exact ClientPc.noConfusion⟩ }
  | leaveUdp hpc => exact h.close
  | @tcpSent k hpc =>
    rw [hpc] at hplace
    refine { h with wrote := ?_, data := fun _ => hplace }
    show s.toServer.sent ++ dataOctets k = _ ++ dataOctets (dataWritten (s.toServer.write _))
    rw [dataWritten_write_data, h.wrote, List.append_assoc, dataOctets, dataOctets, dataOctets,
      List.replicate_add]
  | tcpReceived hpc hk =>
    rw [hpc] at hplace
    exact { h with agreed := h.agreed, recorded := fun _ => hplace }
  | leaveTcp hpc =>
    have htcp : cfg.protocol = .tcp := by
      rcases hpc with hpc | hpc <;> rw [hpc] at hplace <;> exact hplace.1
    exact { h with started := trivial, place := htcp }
  | @readResult got k p r hpc hr =>
    rw [hpc] at hplace
    obtain ⟨rfl, -⟩ := readFrame_advance hr
    cases r <;> exact { h with agreed := h.agreed, started := trivial, place := hplace }
  | @readDone got k p r hpc hr =>
    rw [hpc] at hplace
    obtain ⟨rfl, -⟩ := readFrame_advance hr
    cases r with
    | more got => exact { h with agreed := h.agreed, started := trivial, place := hplace }
    | message m =>
      exact { h with agreed := h.agreed, started := trivial, place := trivial, wrote := h.wrote,
                     data := h.data }

theorem anyServerInv_client {a : Act} (h : AnyServerInv J cfg s)
    (hrule : ClientRule J cfg s a s') : AnyServerInv J cfg s' := by
  rcases h with ⟨hpc, hread, huntested⟩ | ⟨hplace, huntested⟩ | ht
  · cases hrule with
    | setup hpc' =>
      refine .inr (.inl ⟨hread, ?_, countP_frameOctets _, huntested.noDatagram,
        huntested.nothing, huntested.unreceived⟩)
      show s.toServer.sent ++ _ = _
      rw [huntested.sent]
      rfl
    | leaveUdp hpc' => rcases hpc' with hpc' | hpc' | hpc' <;> exact nomatch hpc.symm.trans hpc'
    | leaveTcp hpc' => rcases hpc' with hpc' | hpc' <;> exact nomatch hpc.symm.trans hpc'
    | _ hpc' => exact nomatch hpc.symm.trans hpc'
  · cases hrule with
    | readAck hpc hr =>
      rw [hpc] at hplace
      exact .readAck hplace huntested hr
    | readStart hpc hr =>
      rw [hpc] at hplace
      exact .readStart hplace huntested hr
    | leaveUdp hpc => rcases hpc with hpc | hpc | hpc <;> rw [hpc] at hplace <;> exact hplace.elim
    | leaveTcp hpc => rcases hpc with hpc | hpc <;> rw [hpc] at hplace <;> exact hplace.elim
    | _ hpc =>
      rw [hpc] at hplace
      exact hplace.elim
  · exact .inr (.inr (testing_client ht hrule))

theorem anyServerInv_step (hsetup : J.Carries cfg.setup) {a : ClientMove}
    (h : AnyServerInv J cfg s) (hs : anyServerStep J cfg s a = some s') :
    AnyServerInv J cfg s' := by
  cases a with
  | client a => exact anyServerInv_client h (clientStep_rule hsetup hs)
  | write os =>
    obtain ⟨-, hsome⟩ := Option.ite_none_left_eq_some.mp hs
    cases hsome
    refine h.grow (fun _ _ hgot => hgot.write os) ?_
    rw [bytes_write]
    exact List.prefix_append _ _
  | close =>
    cases hs
    exact h.grow (fun _ _ hgot => hgot.close) (List.prefix_refl _)
  | datagram =>
    cases hs
    rcases h with ⟨hpc, hread, huntested⟩ | ⟨hplace, huntested⟩ | ht
    · exact .inl ⟨hpc, hread, { huntested with }⟩
    · exact .inr (.inl ⟨hplace, { huntested with }⟩)
    · exact .inr (.inr { ht with })

structure ClientSafe (J : SerdeJson) (cfg : Config) (s : State) : Prop where
  order : s.toServer.sent = [] ∨ s.toServer.sent =
    frameOctets (wireBytes J cfg.setup) ++ dataOctets (dataWritten s.toServer)
  /-- It moves data only after a `SetupAck` and a `Start`, in this order and with nothing
  before or between them. -/
  agreed : 0 < dataWritten s.toServer ∨ 0 < s.inFlight ∨ s.recorded ≠ [] ∨ 0 < s.received →
    ∃ port cookie time rest rest',
      decodeFrame J s.toClient.bytes = (.ok (.setupAck port cookie), rest) ∧
      decodeFrame J rest = (.ok (.start time), rest')
  data : 0 < dataWritten s.toServer → cfg.protocol = .tcp ∧ cfg.reverse = false
  datagrams : 0 < s.inFlight → cfg.protocol = .udp ∧ udpDispatch cfg ≠ .oneWayCheck
  recorded : s.recorded ≠ [] → cfg.protocol = .tcp ∧ cfg.reverse = true
  received : 0 < s.received → cfg.protocol = .udp ∧ udpDispatch cfg ≠ .udpSend

theorem Untested.safe {octets : List Octet} (h : Untested octets s)
    (hoctets : octets = [] ∨ octets = frameOctets (wireBytes J cfg.setup)) :
    ClientSafe J cfg s := by
  have hnone : dataWritten s.toServer = 0 := by
    rw [dataWritten, h.sent]
    exact h.noData
  have hflight := h.noDatagram
  have hreceived := h.unreceived
  refine ⟨?_, fun hmoved => ?_, fun hpos => absurd hpos (by omega),
    fun hpos => absurd hpos (by omega), fun hne => absurd h.nothing hne,
    fun hpos => absurd hpos (by omega)⟩
  · rw [h.sent, hnone]
    rcases hoctets with rfl | rfl
    · exact .inl rfl
    · exact .inr (List.append_nil _).symm
  · rcases hmoved with hpos | hpos | hne | hpos
    · omega
    · omega
    · exact absurd h.nothing hne
    · omega

end Client

/-- Whatever a server writes and sends: the client writes its `Setup` and then test data only after
the two answers of the protocol, and only of the kind configured. -/
theorem client_anyServer (hsetup : J.Carries cfg.setup) (s : State)
    (h : Lts.Reachable (anyServerStep J cfg) State.init s) : ClientSafe J cfg s := by
  have hinv : AnyServerInv J cfg s :=
    h.invariant anyServerInv_init fun _ _ _ hi _ hs => anyServerInv_step hsetup hi hs
  rcases hinv with ⟨-, -, huntested⟩ | ⟨-, huntested⟩ | ht
  · exact huntested.safe (.inl rfl)
  · exact huntested.safe (.inr rfl)
  · obtain ⟨f, g, port, cookie, time, hf, hg, rest, hrest⟩ := ht.agreed
    refine ⟨.inr ht.wrote, fun _ => ⟨port, cookie, time, g ++ rest, rest, ?_,
      hg.decodeFrame rest⟩, ht.data, ht.datagrams, ht.recorded, ht.received⟩
    rw [← hrest, List.append_assoc]
    exact hf.decodeFrame (g ++ rest)

/-- A server that writes its two answers and data at once and closes the connection. -/
def hastyServer : List ClientMove :=
  [.write (frameOctets (wireBytes (.ofTable sessionTexts) localEnv.ack ++
      wireBytes (.ofTable sessionTexts) localEnv.startMsg) ++ dataOctets 9), .close,
    .client .go, .client (.read 62), .client (.read 34), .client (.transfer 9)]

theorem client_anyServer_hasty :
    ∃ s, (s.recorded.length = 9 ∧ s.toClient.closed = true) ∧
      ClientSafe (.ofTable sessionTexts) tcpReverseTest s := by
  have hrun : (Lts.run (anyServerStep (.ofTable sessionTexts) tcpReverseTest) (fun _ _ => True)
      State.init hastyServer).any
      (fun s => s.recorded.length = 9 ∧ s.toClient.closed = true) = true := by decide +kernel
  obtain ⟨s, hs, hend⟩ := (Option.any_eq_true _ _).mp hrun
  exact ⟨s, of_decide_eq_true hend,
    client_anyServer tcpReverseTest_honest.setup s (Lts.Reach.start.run hs)⟩

end Rperf3.Joint
