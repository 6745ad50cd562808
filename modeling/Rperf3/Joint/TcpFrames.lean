import Rperf3.Joint.Handshake

/-!
# Data and control frames on one TCP connection

In reverse mode the server's test data, its `Result` and its `Done` come down the
same connection without a boundary between them. The client's data loop stops by
its own clock (`client.rs:1657-1734`), so it can stop too late and count frames
as data, or too early and take data for frames.
-/

namespace Rperf3.Joint
open Rperf3

variable {J : SerdeJson} {cfg : Config} {env : Env} {s s' : State}

def Env.report (env : Env) : List Message := (env.stats.map ResultStats.message).toList ++ [.done]

def dataWritten (p : Pipe) : ℕ := p.sent.countP Octet.data

/-- The client has recorded test data only, it has decoded nothing but messages of the server,
and all of them when it finishes. -/
def ControlSeparated (s : State) : Prop :=
  (∀ o ∈ s.recorded, o.data = true) ∧ s.decoded <+: s.frames ∧
    (s.client = .finished → s.decoded = s.frames)

def ClientPc.leftLoop : ClientPc → Bool
  | .readResult _ | .readDone _ | .finished => true
  | _ => false

def ServerPc.sendsData : ServerPc → Bool
  | .tcpSend _ => true
  | _ => false

/-- Every read of the client's data loop stays within the test data, the loop is left when all
data written has been recorded, and no data is written after that. -/
def loopStopsAtData (s : State) : Action → Prop
  | .client (.transfer k) => s.client = .tcpReceive → s.recorded.length + k ≤ dataWritten s.toClient
  | .client .leave => s.client = .tcpReceive → s.recorded.length = dataWritten s.toClient
  | .server (.transfer k) => s.server.sendsData = true → s.client.leftLoop = true → k = 0
  | _ => True

instance (s : State) : (a : Action) → Decidable (loopStopsAtData s a)
  | .client (.transfer k) =>
    inferInstanceAs
      (Decidable (s.client = .tcpReceive → s.recorded.length + k ≤ dataWritten s.toClient))
  | .client .leave =>
    inferInstanceAs
      (Decidable (s.client = .tcpReceive → s.recorded.length = dataWritten s.toClient))
  | .server (.transfer k) =>
    inferInstanceAs
      (Decidable (s.server.sendsData = true → s.client.leftLoop = true → k = 0))
  | .client .go | .client (.read _) | .server .go | .server (.read _) | .server .leave
  | .deliver => inferInstanceAs (Decidable True)

/-! ### Octets of one kind -/

theorem countP_frameOctets (bs : Bytes) : (frameOctets bs).countP Octet.data = 0 := by
  rw [List.countP_eq_zero]
  intro o ho
  obtain ⟨b, -, rfl⟩ := List.mem_map.mp ho
  exact Bool.false_ne_true

theorem countP_dataOctets (n : ℕ) : (dataOctets n).countP Octet.data = n := by
  rw [dataOctets, List.countP_replicate]
  rfl

theorem data_of_stream {n : ℕ} {got rest frames : List Octet}
    (hstream : got ++ rest = dataOctets n ++ frames) (hlen : got.length ≤ n) :
    got = dataOctets got.length := by
  have hn : got.length ≤ (dataOctets n).length := by
    rw [dataOctets, List.length_replicate]
    exact hlen
  have htake := congrArg (List.take got.length) hstream
  rw [List.take_left, List.take_append_of_le_length hn, dataOctets, List.take_replicate,
    Nat.min_eq_left hlen] at htake
  exact htake

/-! ### The invariant -/

def framesOctets (J : SerdeJson) (ms : List Message) : List Octet :=
  frameOctets (ms.flatMap (wireBytes J))

def handshakeOctets (J : SerdeJson) (env : Env) : List Octet :=
  frameOctets (wireBytes J env.ack ++ wireBytes J env.startMsg)

/-- What the server has reported at a place of its program. -/
def ServerPc.reported (env : Env) : ServerPc → List Message
  | .writeDone => (env.stats.map ResultStats.message).toList
  | .finished => env.report
  | _ => []

/-- What the client has of the stream, place by place. -/
def ClientFramed (J : SerdeJson) (env : Env) (p : Pipe) (recorded : List Octet)
    (decoded frames : List Message) : ClientPc → Prop
  | .tcpSend | .tcpReceive =>
    decoded = [] ∧ recorded.length ≤ dataWritten p ∧
      handshakeOctets J env ++ recorded ++ p.unread = p.sent
  | .readResult got =>
    decoded = [] ∧ recorded.length = dataWritten p ∧
      Gathering (handshakeOctets J env ++ recorded ++ framesOctets J []) got p
  | .readDone got =>
    (∃ m, decoded = [m]) ∧ recorded.length = dataWritten p ∧ decoded <+: frames ∧
      Gathering (handshakeOctets J env ++ recorded ++ framesOctets J decoded) got p
  | .finished => decoded = env.report ∧ frames = env.report
  | _ => decoded = [] ∧ recorded = []

structure Framed (J : SerdeJson) (cfg : Config) (env : Env) (s : State) : Prop where
  frames : s.frames = s.server.reported env
  sent : s.server.started → s.toClient.sent =
    handshakeOctets J env ++ dataOctets (dataWritten s.toClient) ++ framesOctets J s.frames
  forward : cfg.reverse = false → dataWritten s.toClient = 0
  data : s.recorded = dataOctets s.recorded.length
  client : ClientFramed J env s.toClient s.recorded s.decoded s.frames s.client

theorem framed_init (J : SerdeJson) (cfg : Config) (env : Env) :
    Framed J cfg env State.init where
  frames := rfl
  sent h := h.elim
  forward _ := rfl
  data := rfl
  client := ⟨rfl, rfl⟩

theorem Framed.separated (h : Framed J cfg env s) : ControlSeparated s := by
  have hclient := h.client
  refine ⟨?_, ?_, ?_⟩
  · intro o ho
    rw [h.data] at ho
    rw [List.eq_of_mem_replicate ho]
  · cases hpc : s.client <;> rw [hpc] at hclient
    case readDone got => exact hclient.2.2.1
    case finished =>
      rw [hclient.1, hclient.2]
    all_goals
      rw [hclient.1]
      exact List.nil_prefix
  · intro hpc
    rw [hpc] at hclient
    rw [hclient.1, hclient.2]

/-! ### Reading the report -/

theorem framesOctets_append (ms ns : List Message) :
    framesOctets J (ms ++ ns) = framesOctets J ms ++ framesOctets J ns := by
  rw [framesOctets, List.flatMap_append, frameOctets_append]
  rfl

theorem framesOctets_singleton (m : Message) :
    framesOctets J [m] = frameOctets (wireBytes J m) := by
  rw [framesOctets, List.flatMap_cons, List.flatMap_nil, List.append_nil]

theorem reported_isPrefix (env : Env) (pc : ServerPc) : pc.reported env <+: env.report := by
  cases pc with
  | writeDone => exact List.prefix_append _ _
  | finished => exact List.prefix_refl _
  | _ => exact List.nil_prefix

theorem reported_eq_report {pc : ServerPc} (h : pc.reported env = env.report) :
    pc = .finished := by
  have hlength := congrArg List.length h
  simp only [Env.report, List.length_append, List.length_singleton] at hlength
  cases pc with
  | finished => rfl
  | writeDone =>
    simp only [ServerPc.reported] at hlength
    omega
  | _ =>
    simp only [ServerPc.reported, List.length_nil] at hlength
    omega

theorem Framed.frames_read (hreport : ∀ m ∈ env.report, J.Carries m) (h : Framed J cfg env s)
    (hstarted : s.server.started) (hrec : s.recorded.length = dataWritten s.toClient)
    {ds : List Message} (hds : ds <+: env.report)
    (hread : handshakeOctets J env ++ s.recorded ++ framesOctets J ds <+: s.toClient.sent) :
    ds <+: s.frames := by
  rw [h.sent hstarted, h.data, hrec, List.prefix_append_right_inj] at hread
  have hframes : s.frames <+: env.report := by
    rw [h.frames]
    exact reported_isPrefix env s.server
  rcases List.prefix_or_prefix_of_prefix hds hframes with hle | ⟨more, hmore⟩
  · exact hle
  · rw [← hmore, framesOctets_append] at hread
    have hlen := hread.length_le
    rw [List.length_append] at hlen
    cases more with
    | nil =>
      rw [List.append_nil] at hmore
      rw [hmore]
    | cons m ms =>
      have hm : m ∈ env.report := hds.subset (hmore ▸ by simp)
      have hpos : 0 < (wireBytes J m).length :=
        List.length_pos_iff.mpr (wireBytes_ne_nil (hreport m hm))
      rw [framesOctets, length_frameOctets, framesOctets, length_frameOctets, List.flatMap_cons,
        List.length_append] at hlen
      omega

/-- A read after the messages `ds` of the report: the next message, or the end of the stream. -/
theorem Framed.read (hreport : ∀ m ∈ env.report, J.Carries m) (hS : Session J cfg env s)
    (h : Framed J cfg env s) (hstarted : s.server.started)
    (hrec : s.recorded.length = dataWritten s.toClient)
    {ds : List Message} (hds : ds <+: env.report)
    {got : Bytes} {k : ℕ} {p : Pipe} {r : FrameRead}
    (hgot : Gathering (handshakeOctets J env ++ s.recorded ++ framesOctets J ds) got s.toClient)
    (hr : readFrame J s.toClient got k = some (p, r)) :
    (∃ got', r = .more got' ∧
      Gathering (handshakeOctets J env ++ s.recorded ++ framesOctets J ds) got' p) ∨
    (∃ m, ds ++ [m] <+: s.frames ∧ r = .message (.ok m) ∧
      handshakeOctets J env ++ s.recorded ++ framesOctets J (ds ++ [m]) ++ p.unread = p.sent) ∨
    (ds = env.report ∧ s.server = .finished ∧ r = .message (.error (.io .unexpectedEof))) := by
  have hsent := h.sent hstarted
  have hpre : handshakeOctets J env ++ s.recorded ++ framesOctets J ds <+: s.toClient.sent := by
    refine ⟨frameOctets got ++ s.toClient.unread, ?_⟩
    rw [← hgot.2, List.append_assoc _ (frameOctets got)]
  obtain ⟨more, hmore⟩ := h.frames_read hreport hstarted hrec hds hpre
  have hdata : s.recorded = dataOctets (dataWritten s.toClient) := by
    rw [← hrec]
    exact h.data
  rw [← hmore, framesOctets_append, ← hdata] at hsent
  cases more with
  | cons m ms =>
    have hframes : ds ++ [m] <+: s.frames := ⟨ms, by rw [← hmore]; simp⟩
    have hm : J.Carries m := by
      apply hreport
      apply (reported_isPrefix env s.server).subset
      rw [← h.frames, ← hmore]
      simp
    have hwritten : handshakeOctets J env ++ s.recorded ++ framesOctets J ds ++
        frameOctets (wireBytes J m) <+: s.toClient.sent := by
      refine ⟨framesOctets J ms, ?_⟩
      rw [hsent, show m :: ms = [m] ++ ms from rfl, framesOctets_append, framesOctets_singleton]
      simp only [List.append_assoc]
    rcases Gathering.read hm hgot (.inl hwritten) hr with hcase | ⟨rfl, hrest⟩
    · exact .inl hcase
    · refine .inr (.inl ⟨m, hframes, rfl, ?_⟩)
      rw [framesOctets_append, framesOctets_singleton, ← List.append_assoc]
      exact hrest
  | nil =>
    -- everything written has been read
    have hall : s.toClient.sent = handshakeOctets J env ++ s.recorded ++ framesOctets J ds := by
      rw [hsent, show framesOctets J [] = [] from rfl, List.append_nil]
    obtain ⟨hclosed, rfl⟩ := readFrame_eof (hgot.all hall) hr
    have hfinished := hS.toClientOpen.mp hclosed
    rw [List.append_nil, h.frames, hfinished] at hmore
    exact .inr (.inr ⟨hmore, hfinished, rfl⟩)

/-! ### One step -/

theorem dataWritten_write (p : Pipe) (os : List Octet) :
    dataWritten (p.write os) = dataWritten p + os.countP Octet.data :=
  List.countP_append

theorem ClientFramed.write {p : Pipe} {recorded : List Octet}
    {decoded frames frames' : List Message} {pc : ClientPc}
    (h : ClientFramed J env p recorded decoded frames pc) {os : List Octet}
    (hframes : frames <+: frames')
    (hrun : frames ≠ env.report) (hos : pc.leftLoop = true → os.countP Octet.data = 0) :
    ClientFramed J env (p.write os) recorded decoded frames' pc := by
  have hn := dataWritten_write p os
  have hstream : handshakeOctets J env ++ recorded ++ p.unread = p.sent →
      handshakeOctets J env ++ recorded ++ (p.write os).unread = (p.write os).sent := by
    intro hsame
    rw [unread_write, ← List.append_assoc, hsame]
    rfl
  cases pc with
  | tcpSend => exact ⟨h.1, by have := h.2.1; omega, hstream h.2.2⟩
  | tcpReceive => exact ⟨h.1, by have := h.2.1; omega, hstream h.2.2⟩
  | readResult got =>
    rw [hos rfl] at hn
    exact ⟨h.1, by rw [hn]; exact h.2.1, Gathering.write os h.2.2⟩
  | readDone got =>
    rw [hos rfl] at hn
    exact ⟨h.1, by rw [hn]; exact h.2.1, h.2.2.1.trans hframes, Gathering.write os h.2.2.2⟩
  | finished => exact absurd h.2 hrun
  | _ => exact h

/-- At the end of the handshake the client has read all that was written before the data. -/
theorem Framed.readStart (hJ : Honest J cfg env) (htcp : cfg.protocol = .tcp)
    (hS : Session J cfg env s) (h : Framed J cfg env s) {got : Bytes} {k : ℕ} {p : Pipe}
    {r : FrameRead} (hpc : s.client = .readStart got)
    (hr : readFrame J s.toClient got k = some (p, r)) :
    Framed J cfg env (s.onStart cfg p r) := by
  have hclient := h.client
  rw [hpc] at hclient
  have hcases := hS.readStart hJ hpc hr
  obtain ⟨rfl, hk⟩ := readFrame_advance hr
  rcases hcases with ⟨got', rfl, -⟩ | ⟨rfl, hrest⟩
  · exact { h with client := hclient }
  · obtain ⟨hdecoded, hrecorded⟩ := hclient
    refine { h with client := ?_ }
    have hbegin : s.decoded = [] ∧ s.recorded.length ≤ dataWritten s.toClient ∧
        handshakeOctets J env ++ s.recorded ++ (s.toClient.advance k).unread =
          s.toClient.sent := by
      rw [hrecorded, List.append_nil]
      exact ⟨hdecoded, Nat.zero_le _, hrest⟩
    show ClientFramed J env _ s.recorded s.decoded s.frames (clientDispatch cfg)
    unfold clientDispatch
    rw [htcp]
    cases cfg.reverse with
    | true => exact hbegin
    | false => exact hbegin

/-- A read of the data loop that ends within the data records data only. -/
theorem Framed.tcpReceived (hJ : Honest J cfg env) (hS : Session J cfg env s)
    (h : Framed J cfg env s) {k : ℕ} (hpc : s.client = .tcpReceive)
    (hk : k ≤ s.toClient.unread.length) (hstop : s.recorded.length + k ≤ dataWritten s.toClient) :
    Framed J cfg env
      { s with
        toClient := s.toClient.advance k
        recorded := s.recorded ++ s.toClient.unread.take k } := by
  have hclient := h.client
  rw [hpc] at hclient
  obtain ⟨hdecoded, -, hstream⟩ := hclient
  have hstarted := hS.server_started hJ (by rw [hpc]; trivial)
  have hlen : (s.recorded ++ s.toClient.unread.take k).length = s.recorded.length + k := by
    rw [List.length_append, List.length_take, Nat.min_eq_left hk]
  have hnext : handshakeOctets J env ++ (s.recorded ++ s.toClient.unread.take k) ++
      s.toClient.unread.drop k = s.toClient.sent := by
    rw [← hstream, List.append_assoc, List.append_assoc, List.append_assoc,
      List.take_append_drop]
  refine { h with data := ?_, client := ?_ }
  · have hsent := h.sent hstarted
    rw [← hnext, List.append_assoc, List.append_assoc (handshakeOctets J env)] at hsent
    exact data_of_stream (List.append_cancel_left hsent) (by rw [hlen]; exact hstop)
  · show ClientFramed J env (s.toClient.advance k) (s.recorded ++ s.toClient.unread.take k)
      s.decoded s.frames s.client
    rw [hpc]
    refine ⟨hdecoded, by rw [hlen]; exact hstop, ?_⟩
    rw [unread_advance]
    exact hnext

theorem Framed.leaveTcp (hS : Session J cfg env s) (h : Framed J cfg env s)
    (hpc : s.client = .tcpSend ∨ s.client = .tcpReceive)
    (hok : s.client = .tcpReceive → s.recorded.length = dataWritten s.toClient) :
    Framed J cfg env { s with client := .readResult [] } := by
  have hfits := hS.clientFits
  have hclient := h.client
  have hleave : s.decoded = [] ∧ s.recorded.length = dataWritten s.toClient ∧
      handshakeOctets J env ++ s.recorded ++ s.toClient.unread = s.toClient.sent := by
    rcases hpc with hpc | hpc
    · rw [hpc] at hclient hfits
      obtain ⟨hdecoded, hle, hstream⟩ := hclient
      have hzero := h.forward hfits.2
      exact ⟨hdecoded, by omega, hstream⟩
    · have hstop := hok hpc
      rw [hpc] at hclient
      exact ⟨hclient.1, hstop, hclient.2.2⟩
  obtain ⟨hdecoded, hrec, hstream⟩ := hleave
  refine { h with client := ⟨hdecoded, hrec, Gathering.begin ?_⟩ }
  rw [show framesOctets J [] = [] from rfl, List.append_nil]
  exact hstream

theorem Framed.readResult (hJ : Honest J cfg env) (hreport : ∀ m ∈ env.report, J.Carries m)
    (hS : Session J cfg env s) (h : Framed J cfg env s) {got : Bytes} {k : ℕ} {p : Pipe}
    {r : FrameRead} (hpc : s.client = .readResult got)
    (hr : readFrame J s.toClient got k = some (p, r)) : Framed J cfg env (s.onResult p r) := by
  have hclient := h.client
  rw [hpc] at hclient
  obtain ⟨hdecoded, hrec, hgot⟩ := hclient
  have hstarted := hS.server_started hJ (by rw [hpc]; trivial)
  have hcases := h.read hreport hS hstarted hrec List.nil_prefix hgot hr
  obtain ⟨rfl, hk⟩ := readFrame_advance hr
  rcases hcases with ⟨got', rfl, hmore⟩ | ⟨m, hframes, rfl, hrest⟩ | ⟨hnil, -, -⟩
  · exact { h with client := ⟨hdecoded, hrec, hmore⟩ }
  · have hone : s.decoded ++ [m] = [m] := by
      rw [hdecoded]
      rfl
    refine { h with client := ⟨⟨m, hone⟩, hrec, ?_, Gathering.begin ?_⟩ }
    · show s.decoded ++ [m] <+: s.frames
      rw [hone]
      exact hframes
    · show handshakeOctets J env ++ s.recorded ++ framesOctets J (s.decoded ++ [m]) ++ _ = _
      rw [hone]
      exact hrest
  · exact absurd hnil.symm (List.append_ne_nil_of_right_ne_nil _ (List.cons_ne_nil _ _))

theorem Framed.readDone (hJ : Honest J cfg env) (hreport : ∀ m ∈ env.report, J.Carries m)
    (hS : Session J cfg env s) (h : Framed J cfg env s) {got : Bytes} {k : ℕ} {p : Pipe}
    {r : FrameRead} (hpc : s.client = .readDone got)
    (hr : readFrame J s.toClient got k = some (p, r)) : Framed J cfg env (s.onDone p r) := by
  have hclient := h.client
  rw [hpc] at hclient
  obtain ⟨⟨m₀, hone⟩, hrec, hdecoded, hgot⟩ := hclient
  have hstarted := hS.server_started hJ (by rw [hpc]; trivial)
  have hreported : s.frames <+: env.report := by
    rw [h.frames]
    exact reported_isPrefix env s.server
  have hcases := h.read hreport hS hstarted hrec (hdecoded.trans hreported) hgot hr
  obtain ⟨rfl, hk⟩ := readFrame_advance hr
  rcases hcases with ⟨got', rfl, hmore⟩ | ⟨m, hframes, rfl, hrest⟩ | ⟨hall, hfinished, rfl⟩
  · exact { h with client := ⟨⟨m₀, hone⟩, hrec, hdecoded, hmore⟩ }
  · -- two messages are the whole report
    have hlen : env.report.length ≤ (s.decoded ++ [m]).length := by
      rw [hone, Env.report, List.length_append]
      cases env.stats <;> simp
    have hdone : s.decoded ++ [m] = env.report :=
      (hframes.trans hreported).eq_of_length_le hlen
    have hwritten : s.frames = env.report :=
      hreported.eq_of_length_le (hlen.trans hframes.length_le)
    exact { h with client := ⟨hdone, hwritten⟩ }
  · have hwritten : s.frames = env.report := by
      rw [h.frames, hfinished]
      rfl
    refine { h with client := ⟨?_, hwritten⟩ }
    show s.decoded ++ [] = env.report
    rw [List.append_nil, hall]

theorem framed_client (hJ : Honest J cfg env) (hreport : ∀ m ∈ env.report, J.Carries m)
    (htcp : cfg.protocol = .tcp) (hS : Session J cfg env s) (h : Framed J cfg env s) {a : Act}
    (hok : loopStopsAtData s (.client a)) (hrule : ClientRule J cfg s a s') :
    Framed J cfg env s' := by
  have hfits := hS.clientFits
  have hclient := h.client
  have hnudp : cfg.protocol ≠ .udp := by
    rw [htcp]
    exact TestProtocol.noConfusion
  cases hrule with
  | setup hpc =>
    rw [hpc] at hclient
    exact { h with client := hclient }
  | readAck hpc hr =>
    rw [hpc] at hclient
    have hcases := hS.readAck hJ hpc hr
    obtain ⟨rfl, hk⟩ := readFrame_advance hr
    rcases hcases with ⟨got', rfl, -⟩ | ⟨rfl, -⟩
    · exact { h with client := hclient }
    · exact { h with client := hclient }
  | readStart hpc hr => exact h.readStart hJ htcp hS hpc hr
  | bind hpc =>
    rw [hpc] at hfits
    exact absurd hfits hnudp
  | datagram hpc hs =>
    rw [hpc] at hfits
    exact absurd hfits.1 hnudp
  | init hpc =>
    rw [hpc] at hfits
    exact absurd hfits.1 hnudp
  | udpReceived hpc =>
    rw [hpc] at hfits
    exact absurd hfits.1 hnudp
  | oneWayEnter hpc =>
    rw [hpc] at hfits
    exact absurd hfits.1 hnudp
  | oneWayReceived hpc =>
    rw [hpc] at hfits
    exact absurd hfits.1 hnudp
  | leaveUdp hpc =>
    rcases hpc with hpc | hpc | hpc <;> rw [hpc] at hfits <;> exact absurd hfits.1 hnudp
  | tcpSent hpc => exact { h with }
  | tcpReceived hpc hk => exact h.tcpReceived hJ hS hpc hk (hok hpc)
  | leaveTcp hpc => exact h.leaveTcp hS hpc hok
  | readResult hpc hr => exact h.readResult hJ hreport hS hpc hr
  | readDone hpc hr => exact h.readDone hJ hreport hS hpc hr

theorem Framed.frames_ne_report (h : Framed J cfg env s) {pc : ServerPc} (hpc : s.server = pc)
    (hrun : pc ≠ .finished) : s.frames ≠ env.report := by
  intro hall
  rw [h.frames, hpc] at hall
  exact hrun (reported_eq_report hall)

theorem Framed.client_write (h : Framed J cfg env s) {pc : ServerPc} (hpc : s.server = pc)
    (hrun : pc ≠ .finished) {frames : List Message} (hle : s.frames <+: frames) (bytes : Bytes) :
    ClientFramed J env (s.toClient.write (frameOctets bytes)) s.recorded s.decoded frames
      s.client :=
  h.client.write hle (h.frames_ne_report hpc hrun) (fun _ => countP_frameOctets bytes)

theorem dataWritten_write_frame (p : Pipe) (bytes : Bytes) :
    dataWritten (p.write (frameOctets bytes)) = dataWritten p := by
  rw [dataWritten_write, countP_frameOctets, Nat.add_zero]

theorem Framed.sent_write (h : Framed J cfg env s) {pc : ServerPc} (hpc : s.server = pc)
    (hstarted : pc.started) (m : Message) :
    s.toClient.sent ++ frameOctets (wireBytes J m) =
      handshakeOctets J env ++
        dataOctets (dataWritten (s.toClient.write (frameOctets (wireBytes J m)))) ++
        framesOctets J (s.frames ++ [m]) := by
  subst hpc
  rw [dataWritten_write_frame, framesOctets_append, framesOctets_singleton, ← List.append_assoc,
    ← h.sent hstarted]

/-- After the handshake the server has written nothing but its two frames. -/
theorem Framed.start (hS : Session J cfg env s) (h : Framed J cfg env s) {t : ServerTest}
    (hpc : s.server = .writeStart t) :
    Framed J cfg env
      { s with
        toClient := s.toClient.write (frameOctets (wireBytes J env.startMsg))
        server := serverDispatch t } := by
  have hframes := h.frames
  have hack := hS.handshakeSent
  rw [hpc] at hframes hack
  have hnone : (serverDispatch t).reported env = [] := by
    unfold serverDispatch
    cases t.udp <;> cases t.reverse <;> rfl
  have hzero : dataWritten s.toClient = 0 := by
    rw [dataWritten, show s.toClient.sent = _ from hack, countP_frameOctets]
  refine
    { h with
      frames := ?_
      sent := fun _ => ?_
      forward := fun hr => (dataWritten_write_frame ..).trans (h.forward hr)
      client := h.client_write hpc ServerPc.noConfusion (List.prefix_refl _) _ }
  · show s.frames = (serverDispatch t).reported env
    rw [hframes, hnone]
    rfl
  · rw [dataWritten_write_frame, hzero]
    show s.toClient.sent ++ _ = handshakeOctets J env ++ [] ++ framesOctets J s.frames
    rw [show s.toClient.sent = _ from hack, hframes, handshakeOctets, frameOctets_append,
      List.append_nil]
    exact (List.append_nil _).symm

theorem Framed.tcpSent (hS : Session J cfg env s) (h : Framed J cfg env s) {t : ServerTest}
    {k : ℕ} (hpc : s.server = .tcpSend t) (hok : s.client.leftLoop = true → k = 0) :
    Framed J cfg env
      { s with toClient := s.toClient.write (dataOctets k), moved := s.moved + 1 } := by
  have hfits := hS.serverFits
  have hsent := h.sent
  have hframes := h.frames
  rw [hpc] at hframes hsent hfits
  have hnew : dataWritten (s.toClient.write (dataOctets k)) = dataWritten s.toClient + k := by
    rw [dataWritten_write, countP_dataOctets]
  refine { h with sent := fun _ => ?_, forward := fun hr => ?_, client := ?_ }
  · rw [hnew]
    show s.toClient.sent ++ dataOctets k = _
    rw [hsent trivial, hframes, dataOctets, dataOctets, dataOctets, List.replicate_add]
    simp only [List.append_assoc, show framesOctets J (ServerPc.reported env (.tcpSend t)) = []
      from rfl, List.append_nil]
  · exact Bool.noConfusion (hr.symm.trans hfits.2.2)
  · refine h.client.write (List.prefix_refl _) (h.frames_ne_report hpc ServerPc.noConfusion) ?_
    intro hleft
    rw [countP_dataOctets]
    exact hok hleft

theorem framed_server (hJ : Honest J cfg env) (hreport : ∀ m ∈ env.report, J.Carries m)
    (htcp : cfg.protocol = .tcp) (hS : Session J cfg env s) (h : Framed J cfg env s) {a : Act}
    (hok : loopStopsAtData s (.server a)) (hrule : ServerRule J env s a s') :
    Framed J cfg env s' := by
  have hfits := hS.serverFits
  have hsent := h.sent
  have hframes := h.frames
  have hnudp : cfg.protocol ≠ .udp := by
    rw [htcp]
    exact TestProtocol.noConfusion
  cases hrule with
  | readSetup hpc hr =>
    rw [hpc] at hframes
    rcases hS.readSetup hJ hpc hr with ⟨got', rfl, -⟩ | rfl
    · exact { h with frames := hframes, sent := fun hs => hs.elim }
    · rw [onSetup_setup]
      exact { h with frames := hframes, sent := fun hs => hs.elim }
  | ack hpc =>
    rw [hpc] at hframes
    exact
      { h with
        frames := hframes
        sent := fun hs => hs.elim
        forward := fun hr => (dataWritten_write_frame ..).trans (h.forward hr)
        client := h.client_write hpc ServerPc.noConfusion (List.prefix_refl _) _ }
  | start hpc => exact h.start hS hpc
  | bind hpc =>
    rw [hpc] at hfits
    exact absurd hfits.2 hnudp
  | first hpc hq =>
    rw [hpc] at hfits
    exact absurd hfits.2.1 hnudp
  | datagram hpc =>
    rw [hpc] at hfits
    exact absurd hfits.2.1 hnudp
  | received hpc =>
    rw [hpc] at hfits
    exact absurd hfits.2.1 hnudp
  | leaveUdp hpc =>
    rcases hpc with hpc | hpc <;> rw [hpc] at hfits <;> exact absurd hfits.2.1 hnudp
  | tcpSent hpc => exact h.tcpSent hS hpc (hok (by rw [hpc]; rfl))
  | tcpReceived hpc hk => exact { h with }
  | leaveTcp hpc =>
    rcases hpc with hpc | hpc
    · rw [hpc] at hframes hsent
      exact { h with frames := hframes, sent := fun _ => hsent trivial }
    · rw [hpc] at hframes hsent
      exact { h with frames := hframes, sent := fun _ => hsent trivial }
  | @result st hpc hst =>
    have hnext := h.sent_write hpc trivial st.message
    rw [hpc] at hframes
    refine
      { h with
        frames := ?_
        sent := fun _ => hnext
        forward := fun hr => (dataWritten_write_frame ..).trans (h.forward hr)
        client := h.client_write hpc ServerPc.noConfusion (List.prefix_append _ _) _ }
    show s.frames ++ [st.message] = (env.stats.map ResultStats.message).toList
    rw [hframes, hst]
    rfl
  | noResult hpc hst =>
    rw [hpc] at hframes hsent
    refine { h with frames := ?_, sent := fun _ => hsent trivial }
    show s.frames = (env.stats.map ResultStats.message).toList
    rw [hframes, hst]
    rfl
  | done hpc =>
    have hnext := h.sent_write hpc trivial .done
    rw [hpc] at hframes
    refine
      { h with
        frames := ?_
        sent := fun _ => hnext
        forward := fun hr => (dataWritten_write_frame ..).trans (h.forward hr)
        client := h.client_write hpc ServerPc.noConfusion (List.prefix_append _ _) _ }
    show s.frames ++ [.done] = env.report
    rw [hframes]
    rfl
  | resultFails hpc hst hfail =>
    refine absurd (hreport _ ?_) hfail
    rw [Env.report, hst]
    exact List.mem_cons_self
  | doneFails hpc hfail =>
    exact absurd (hreport _ (List.mem_append_right _ List.mem_cons_self)) hfail

/-! ### Whole runs -/

theorem framed_run (hJ : Honest J cfg env) (hreport : ∀ m ∈ env.report, J.Carries m)
    (htcp : cfg.protocol = .tcp)
    (h : Lts.Reach (step J cfg env) loopStopsAtData State.init s) : Framed J cfg env s := by
  have hboth : Session J cfg env s ∧ Framed J cfg env s := by
    apply h.invariant (I := fun s => Session J cfg env s ∧ Framed J cfg env s)
    · exact ⟨session_init J cfg env, framed_init J cfg env⟩
    intro s a s' hinv hok hs
    obtain ⟨hS, hF⟩ := hinv
    refine ⟨session_step hJ hS hs, ?_⟩
    cases a with
    | client a => exact framed_client hJ hreport htcp hS hF hok (clientStep_rule hJ.setup hs)
    | server a =>
      exact framed_server hJ hreport htcp hS hF hok (serverStep_rule hJ.ack hJ.start hs)
    | deliver =>
      rcases (deliverStep_cases hs).2 with rfl | ⟨-, rfl⟩
      · exact { hF with }
      · exact { hF with }
  exact hboth.2

/-- In forward mode nothing but frames comes to the client, and every run keeps them whole. -/
theorem forward_separated (hJ : Honest J cfg env) (hreport : ∀ m ∈ env.report, J.Carries m)
    (htcp : cfg.protocol = .tcp) (hforward : cfg.reverse = false) (h : Reachable J cfg env s) :
    ControlSeparated s := by
  have hrun : Lts.Reach (step J cfg env) loopStopsAtData State.init s := by
    apply Lts.Reach.strengthen h
    intro s a hreach _
    have hS := session_reachable hJ hreach
    have hclient : s.client ≠ .tcpReceive := by
      intro hpc
      have hfits := hS.clientFits
      rw [hpc] at hfits
      exact Bool.noConfusion (hforward.symm.trans hfits.2)
    have hserver : s.server.sendsData = false := by
      have hfits := hS.serverFits
      cases hpc : s.server <;> rw [hpc] at hfits
      case tcpSend t => exact Bool.noConfusion (hforward.symm.trans hfits.2.2)
      all_goals rfl
    cases a with
    | client a =>
      cases a with
      | transfer k => exact fun hpc => absurd hpc hclient
      | leave => exact fun hpc => absurd hpc hclient
      | _ => trivial
    | server a =>
      cases a with
      | transfer k => exact fun hsends => Bool.noConfusion (hserver.symm.trans hsends)
      | _ => trivial
    | deliver => trivial
  exact (framed_run hJ hreport htcp hrun).separated

/-- In every run whose data loop stops at the end of the data, for any chunking of the reads,
data and frames are kept apart. -/
theorem controlSeparated_run (hJ : Honest J cfg env) (hreport : ∀ m ∈ env.report, J.Carries m)
    (htcp : cfg.protocol = .tcp)
    (h : Lts.Reach (step J cfg env) loopStopsAtData State.init s) : ControlSeparated s :=
  (framed_run hJ hreport htcp h).separated

/-- The handshake of a reverse test in pieces, four octets of data, the end of the server's loop
and its `Result`. -/
def reverseRun : List Action :=
  [.client .go, .server (.read 100), .server (.read 61), .server .go, .server .go,
    .client (.read 3), .client (.read 59), .client (.read 34), .server (.transfer 4),
    .client (.transfer 3), .client (.transfer 1), .server .leave, .server .go]

theorem controlSeparated_run_reverse :
    ∃ s, s.client = .finished ∧ s.decoded.length = 2 ∧ ControlSeparated s := by
  have hrun : (Lts.run (step (.ofTable sessionTexts) tcpReverseTest localEnv) loopStopsAtData
      State.init (reverseRun ++ [.client .leave, .client (.read 226), .server .go,
        .client (.read 2), .client (.read 17)])).any
      (fun s => s.client = .finished ∧ s.decoded.length = 2) = true := by decide +kernel
  obtain ⟨s, hs, hend⟩ := (Option.any_eq_true _ _).mp hrun
  obtain ⟨hfinished, hdecoded⟩ := of_decide_eq_true hend
  refine ⟨s, hfinished, hdecoded, ?_⟩
  refine controlSeparated_run tcpReverseTest_honest ?_ rfl (Lts.Reach.start.run hs)
  intro m hm
  rcases List.mem_cons.mp hm with rfl | hm
  · exact sessionTexts_carries (.tail _ (.tail _ (.tail _ (.head _))))
  · rcases List.mem_singleton.mp hm with rfl
    exact sessionTexts_carries (.tail _ (.tail _ (.head _)))

/-- The client's loop goes on and takes the `Result` and `Done` frames for data. -/
theorem reverse_frames_recorded :
    ¬ ∀ s, Reachable (.ofTable sessionTexts) tcpReverseTest localEnv s → ControlSeparated s := by
  intro hall
  have hrun : (Lts.run (step (.ofTable sessionTexts) tcpReverseTest localEnv) (fun _ _ => True)
      State.init (reverseRun ++ [.server .go, .client (.transfer 245)])).any
      (fun s => s.recorded.any (!·.data)) = true := by decide +kernel
  obtain ⟨s, hs, hrecorded⟩ := (Option.any_eq_true _ _).mp hrun
  obtain ⟨o, ho, hframe⟩ := List.any_eq_true.mp hrecorded
  have hdata := (hall s (Lts.Reach.start.run hs)).1 o ho
  rw [hdata] at hframe
  exact Bool.noConfusion hframe

end Rperf3.Joint
