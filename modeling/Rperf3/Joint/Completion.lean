import Mathlib.Data.Prod.Lex
import Rperf3.Joint.Deadlock

/-!
# Sessions that can always be brought to their end

The duration of a test only ever lets a party leave its loop. Whether a session
comes to its end depends on the receives that have no timeout: where the client
speaks first, there is a way to the end of both programs from every state that
a session can be in, whatever each reader has of its frame and whatever is in
flight.
-/

namespace Rperf3.Joint
open Rperf3

variable {J : SerdeJson} {cfg : Config} {env : Env} {s s' : State}

def State.Finished (s : State) : Prop := s.client = .finished ∧ s.server = .finished

/-- The collector has no stream at the end of a test in which nothing was transferred. -/
def State.agrees (env : Env) (s : State) : Prop := env.stats = none → s.moved = 0

/-- From every state of a session both programs can still be brought to their end. -/
def Completable (J : SerdeJson) (cfg : Config) (env : Env) : Prop :=
  ∀ s, Reachable J cfg env s → s.agrees env →
    ∃ s', Lts.Reachable (step J cfg env) s s' ∧ s'.Finished

/-! ### What is left to do -/

def ClientPc.stage : ClientPc → ℕ
  | .sendSetup => 12
  | .readAck _ => 11
  | .readStart _ => 10
  | .bindUdp => 9
  | .sendInit | .oneWayWait => 8
  | .udpSend | .udpReceive | .oneWayCheck | .tcpSend | .tcpReceive => 7
  | .readResult _ => 6
  | .readDone _ => 5
  | .finished => 0

def ServerPc.stage : ServerPc → ℕ
  | .readSetup _ => 12
  | .writeAck _ => 11
  | .writeStart _ => 10
  | .bindUdp _ => 9
  | .udpWaitFirst _ => 8
  | .udpSend _ | .udpReceive _ | .tcpSend _ | .tcpReceive _ => 7
  | .writeResult => 6
  | .writeDone => 5
  | .finished => 0

def State.stage (s : State) : ℕ := s.client.stage + s.server.stage

def State.pending (s : State) : ℕ :=
  s.toServer.unread.length + s.toClient.unread.length + s.inFlight

def State.rank (s : State) : ℕ ×ₗ ℕ := toLex (s.stage, s.pending)

theorem rank_lt_of_stage (h : s'.stage < s.stage) : s'.rank < s.rank :=
  Prod.Lex.toLex_lt_toLex.mpr (.inl h)

theorem rank_lt_of_pending (hstage : s'.stage = s.stage) (h : s'.pending < s.pending) :
    s'.rank < s.rank :=
  Prod.Lex.toLex_lt_toLex.mpr (.inr ⟨hstage, h⟩)

theorem clientDispatch_stage (cfg : Config) : (clientDispatch cfg).stage ≤ 9 := by
  unfold clientDispatch
  cases cfg.protocol with
  | tcp => cases cfg.reverse <;> decide
  | udp => exact le_rfl

theorem udpDispatch_stage (cfg : Config) : (udpDispatch cfg).stage ≤ 8 := by
  rcases udpDispatch_cases cfg with h | h | h <;> rw [h] <;> decide

theorem serverDispatch_stage (t : ServerTest) : (serverDispatch t).stage ≤ 9 := by
  unfold serverDispatch
  split
  · exact le_rfl
  · split <;> exact Nat.le_of_ble_eq_true rfl

theorem serverUdpDispatch_stage (t : ServerTest) : (serverUdpDispatch t).stage ≤ 8 := by
  rcases serverUdpDispatch_cases t with h | h <;> rw [h]
  · exact le_rfl
  · exact Nat.le_of_ble_eq_true rfl

/-! ### Reads that make progress -/

theorem need_snoc {got : Bytes} (h : got.length < need got) (b : UInt8) :
    (got ++ [b]).length ≤ need (got ++ [b]) := by
  unfold need at h ⊢
  rw [List.length_append, List.length_singleton]
  by_cases h4 : got.length < 4
  · split
    · omega
    · omega
  · rw [if_neg h4] at h
    rw [if_neg (by omega), List.take_append_of_le_length (by omega)]
    omega

/-- A reader with something to read, or at the end of the stream, takes one octet or the end. -/
theorem readFrame_ready (J : SerdeJson) {p : Pipe} {got : Bytes} (h : got.length < need got)
    (hready : ¬ (p.unread = [] ∧ p.closed = false)) :
    ∃ k p' r, readFrame J p got k = some (p', r) ∧
      ((∃ got', r = .more got' ∧ p'.unread.length < p.unread.length) ∨ ∃ m, r = .message m) := by
  cases hu : p.unread with
  | nil =>
    have hclosed : p.closed = true := by
      cases hc : p.closed with
      | true => rfl
      | false => exact absurd ⟨hu, hc⟩ hready
    refine ⟨0, p, .message (.error (.io .unexpectedEof)), ?_, .inr ⟨_, rfl⟩⟩
    rw [readFrame, if_pos rfl, if_pos ⟨hu, hclosed⟩]
  | cons o os =>
    have hle : 1 ≤ p.unread.length := by
      rw [hu, List.length_cons]
      omega
    have hgot : got ++ (p.unread.take 1).map Octet.byte = got ++ [o.byte] := by
      rw [hu]
      rfl
    have hfit := need_snoc h o.byte
    have hshorter : (p.advance 1).unread.length < (o :: os).length := by
      rw [unread_advance, hu]
      exact Nat.lt_succ_self _
    by_cases hdone : (got ++ [o.byte]).length = need (got ++ [o.byte])
    · refine ⟨1, p.advance 1, .message (J.fromSlice ((got ++ [o.byte]).drop 4)), ?_,
        .inr ⟨_, rfl⟩⟩
      rw [readFrame, if_neg one_ne_zero, if_pos hle]
      simp only [hgot]
      rw [if_neg (by omega), if_pos hdone]
    · refine ⟨1, p.advance 1, .more (got ++ [o.byte]), ?_, .inl ⟨_, rfl, hshorter⟩⟩
      rw [readFrame, if_neg one_ne_zero, if_pos hle]
      simp only [hgot]
      rw [if_neg (by omega), if_neg hdone]

theorem readFrame_more {p p' : Pipe} {got got' : Bytes} {k : ℕ}
    (h : readFrame J p got k = some (p', .more got')) (hinc : got.length < need got) :
    got'.length < need got' :=
  ((readFrame_decodeFrame h hinc).1 got' rfl).1

def ClientPc.Incomplete : ClientPc → Prop
  | .readAck got | .readStart got | .readResult got | .readDone got => got.length < need got
  | _ => True

theorem clientDispatch_incomplete (cfg : Config) : (clientDispatch cfg).Incomplete := by
  unfold clientDispatch
  cases cfg.protocol with
  | tcp => cases cfg.reverse <;> trivial
  | udp => trivial

theorem udpDispatch_incomplete (cfg : Config) : (udpDispatch cfg).Incomplete := by
  rcases udpDispatch_cases cfg with h | h | h <;> rw [h] <;> trivial

theorem need_nil : ([] : Bytes).length < need [] := by decide

theorem incomplete_client (hinc : s.client.Incomplete) {a : Act}
    (hrule : ClientRule J cfg s a s') : s'.client.Incomplete := by
  cases hrule with
  | @readAck got k p r hpc hr =>
    rw [hpc] at hinc
    unfold State.onAck
    split
    · exact readFrame_more hr hinc
    · exact need_nil
    · trivial
  | @readStart got k p r hpc hr =>
    rw [hpc] at hinc
    unfold State.onStart
    split
    · exact readFrame_more hr hinc
    · exact clientDispatch_incomplete cfg
    · trivial
  | @readResult got k p r hpc hr =>
    rw [hpc] at hinc
    cases r with
    | more got' => exact readFrame_more hr hinc
    | message m => exact need_nil
  | @readDone got k p r hpc hr =>
    rw [hpc] at hinc
    cases r with
    | more got' => exact readFrame_more hr hinc
    | message m => trivial
  | setup hpc => exact need_nil
  | bind hpc => exact udpDispatch_incomplete cfg
  | leaveTcp hpc => exact need_nil
  | datagram hpc hs => exact hinc
  | udpReceived hpc => exact hinc
  | tcpSent hpc => exact hinc
  | tcpReceived hpc hk => exact hinc
  | init hpc => trivial
  | oneWayEnter hpc => trivial
  | oneWayReceived hpc => trivial
  | leaveUdp hpc => trivial

/-- What the reads of a session and the server's bind have in common: readers are inside their
frames, and the server waits for datagrams with its socket bound. -/
structure Attentive (s : State) : Prop where
  client : s.client.Incomplete
  bound : ∀ t, s.server = .udpWaitFirst t → s.serverBound = true

theorem attentive_init : Attentive State.init where
  client := trivial
  bound _ h := ServerPc.noConfusion h

theorem onAck_server (p : Pipe) (r : FrameRead) :
    (s.onAck p r).server = s.server ∧ (s.onAck p r).serverBound = s.serverBound := by
  unfold State.onAck
  split <;> exact ⟨rfl, rfl⟩

theorem onStart_server (p : Pipe) (r : FrameRead) :
    (s.onStart cfg p r).server = s.server ∧ (s.onStart cfg p r).serverBound = s.serverBound := by
  unfold State.onStart
  split <;> exact ⟨rfl, rfl⟩

theorem client_server {a : Act} (hrule : ClientRule J cfg s a s') :
    s'.server = s.server ∧ s'.serverBound = s.serverBound := by
  cases hrule with
  | @readAck got k p r hpc hr => exact onAck_server p r
  | @readStart got k p r hpc hr => exact onStart_server p r
  | @readResult got k p r hpc hr => cases r <;> exact ⟨rfl, rfl⟩
  | @readDone got k p r hpc hr => cases r <;> exact ⟨rfl, rfl⟩
  | _ => exact ⟨rfl, rfl⟩

theorem server_client {a : Act} (hrule : ServerRule J env s a s') : s'.client = s.client := by
  cases hrule with
  | @readSetup got k p r hpc hr => exact (onSetup_client p r).1
  | _ => rfl

theorem attentive_client (h : Attentive s) {a : Act} (hrule : ClientRule J cfg s a s') :
    Attentive s' := by
  obtain ⟨hserver, hbound⟩ := client_server hrule
  refine ⟨incomplete_client h.client hrule, ?_⟩
  intro t ht
  rw [hserver] at ht
  rw [hbound]
  exact h.bound t ht

theorem onSetup_waits (p : Pipe) (r : FrameRead) (t : ServerTest) :
    (s.onSetup p r).server ≠ .udpWaitFirst t := by
  unfold State.onSetup
  split
  · exact ServerPc.noConfusion
  · split <;> exact ServerPc.noConfusion

theorem serverDispatch_waits (t t' : ServerTest) : serverDispatch t ≠ .udpWaitFirst t' := by
  unfold serverDispatch
  split
  · exact ServerPc.noConfusion
  · split <;> exact ServerPc.noConfusion

theorem attentive_server (h : Attentive s) {a : Act} (hrule : ServerRule J env s a s') :
    Attentive s' := by
  have hwaits : ∀ t, s'.server = .udpWaitFirst t → s'.serverBound = true := by
    cases hrule with
    | @readSetup got k p r hpc hr => exact fun t ht => absurd ht (onSetup_waits p r t)
    | start hpc => exact fun t ht => absurd ht (serverDispatch_waits _ t)
    | bind hpc => exact fun t _ => rfl
    | datagram hpc => exact h.bound
    | received hpc => exact h.bound
    | tcpSent hpc => exact h.bound
    | tcpReceived hpc hk => exact h.bound
    | _ => exact fun t ht => ServerPc.noConfusion ht
  refine ⟨?_, hwaits⟩
  rw [server_client hrule]
  exact h.client

theorem attentive_reachable (hJ : Honest J cfg env) (h : Reachable J cfg env s) : Attentive s := by
  apply h.invariant attentive_init
  intro s a s' hinv _ hs
  cases a with
  | client a => exact attentive_client hinv (clientStep_rule hJ.setup hs)
  | server a => exact attentive_server hinv (serverStep_rule hJ.ack hJ.start hs)
  | deliver =>
    rcases (deliverStep_cases hs).2 with rfl | ⟨-, rfl⟩
    · exact ⟨hinv.client, hinv.bound⟩
    · exact ⟨hinv.client, hinv.bound⟩

/-! ### A party that does not wait can go on -/

/-- A read that leaves the frame incomplete has taken octets; one that completes it goes on. -/
theorem rank_lt_of_read {p p' : Pipe} {r : FrameRead}
    (hout : (∃ got', r = .more got' ∧ p'.unread.length < p.unread.length) ∨ ∃ m, r = .message m)
    (hmore : ∀ got', r = .more got' →
      s'.stage = s.stage ∧ s'.pending + p.unread.length = s.pending + p'.unread.length)
    (hmessage : ∀ m, r = .message m → s'.stage < s.stage) : s'.rank < s.rank := by
  rcases hout with ⟨got', hr, hless⟩ | ⟨m, hr⟩
  · obtain ⟨hstage, hpending⟩ := hmore got' hr
    exact rank_lt_of_pending hstage (by omega)
  · exact rank_lt_of_stage (hmessage m hr)

theorem pending_toClient (s : State) (pc : ClientPc) (p : Pipe) :
    State.pending { s with toClient := p, client := pc } + s.toClient.unread.length =
      s.pending + p.unread.length := by
  show s.toServer.unread.length + p.unread.length + s.inFlight + s.toClient.unread.length =
    s.toServer.unread.length + s.toClient.unread.length + s.inFlight + p.unread.length
  omega

theorem pending_toServer (s : State) (pc : ServerPc) (p : Pipe) :
    State.pending { s with toServer := p, server := pc } + s.toServer.unread.length =
      s.pending + p.unread.length := by
  show p.unread.length + s.toClient.unread.length + s.inFlight + s.toServer.unread.length =
    s.toServer.unread.length + s.toClient.unread.length + s.inFlight + p.unread.length
  omega

theorem stage_lt_of_client {old : ClientPc} (hpc : s.client = old) (hserver : s'.server = s.server)
    (h : s'.client.stage < old.stage) : s'.stage < s.stage := by
  subst hpc
  rw [State.stage, State.stage, hserver]
  omega

theorem stage_lt_of_server {old : ServerPc} (hpc : s.server = old) (hclient : s'.client = s.client)
    (h : s'.server.stage < old.stage) : s'.stage < s.stage := by
  subst hpc
  rw [State.stage, State.stage, hclient]
  omega

theorem onAck_stage (p : Pipe) (m : Except Error Message) :
    (s.onAck p (.message m)).client.stage ≤ 10 := by
  unfold State.onAck
  split
  next h => exact nomatch h
  next => exact le_rfl
  next => exact Nat.zero_le _

theorem onStart_stage (p : Pipe) (m : Except Error Message) :
    (s.onStart cfg p (.message m)).client.stage ≤ 9 := by
  unfold State.onStart
  split
  next h => exact nomatch h
  next => exact clientDispatch_stage cfg
  next => exact Nat.zero_le _

theorem onSetup_stage (p : Pipe) (m : Except Error Message) :
    (s.onSetup p (.message m)).server.stage ≤ 11 := by
  unfold State.onSetup
  simp only
  split
  · exact le_rfl
  · exact Nat.zero_le _

theorem onSetup_moved (p : Pipe) (r : FrameRead) : (s.onSetup p r).moved = s.moved := by
  unfold State.onSetup
  split
  · rfl
  · split <;> rfl

theorem client_reads (J : SerdeJson) (cfg : Config) {got : Bytes} (hinc : got.length < need got)
    (hready : ¬ (s.toClient.unread = [] ∧ s.toClient.closed = false))
    (hpc : s.client = .readAck got ∨ s.client = .readStart got ∨ s.client = .readResult got ∨
      s.client = .readDone got) :
    ∃ a s', clientStep J cfg s a = some s' ∧ s'.rank < s.rank := by
  obtain ⟨k, p, r, hr, hout⟩ := readFrame_ready J hinc hready
  rcases hpc with hpc | hpc | hpc | hpc
  · refine ⟨.read k, s.onAck p r, ?_, rank_lt_of_read hout ?_ ?_⟩
    · simp only [clientStep, hpc, hr, Option.map_some]
    · rintro got' rfl
      exact ⟨by simp only [State.stage, State.onAck, hpc, ClientPc.stage], pending_toClient s _ p⟩
    · rintro m rfl
      exact stage_lt_of_client hpc (onAck_server p _).1 (Nat.lt_succ_of_le (onAck_stage p m))
  · refine ⟨.read k, s.onStart cfg p r, ?_, rank_lt_of_read hout ?_ ?_⟩
    · simp only [clientStep, hpc, hr, Option.map_some]
    · rintro got' rfl
      exact ⟨by simp only [State.stage, State.onStart, hpc, ClientPc.stage],
        pending_toClient s _ p⟩
    · rintro m rfl
      exact stage_lt_of_client hpc (onStart_server p _).1 (Nat.lt_succ_of_le (onStart_stage p m))
  · refine ⟨.read k, s.onResult p r, ?_, rank_lt_of_read hout ?_ ?_⟩
    · simp only [clientStep, hpc, hr, Option.map_some]
    · rintro got' rfl
      exact ⟨by simp only [State.stage, State.onResult, hpc, ClientPc.stage],
        pending_toClient s _ p⟩
    · rintro m rfl
      exact stage_lt_of_client hpc rfl (show 5 < 6 by omega)
  · refine ⟨.read k, s.onDone p r, ?_, rank_lt_of_read hout ?_ ?_⟩
    · simp only [clientStep, hpc, hr, Option.map_some]
    · rintro got' rfl
      exact ⟨by simp only [State.stage, State.onDone, hpc, ClientPc.stage],
        pending_toClient s _ p⟩
    · rintro m rfl
      exact stage_lt_of_client hpc rfl (show 0 < 5 by omega)

theorem client_goes_on (J : SerdeJson) (cfg : Config) (h : Attentive s)
    (hrun : s.client ≠ .finished) (hready : ¬ clientWaits s) :
    ∃ a s', clientStep J cfg s a = some s' ∧ s'.rank < s.rank := by
  have hinc := h.client
  unfold clientWaits at hready
  cases hpc : s.client <;> rw [hpc] at hinc hready
  case finished => exact absurd hpc hrun
  case sendSetup =>
    cases hsetup : serializeMessage J cfg.setup with
    | ok bytes =>
      refine ⟨.go, _, by simp only [clientStep, hpc, hsetup]; rfl, ?_⟩
      exact rank_lt_of_stage (stage_lt_of_client hpc rfl (show 11 < 12 by omega))
    | error e =>
      refine ⟨.go, _, by simp only [clientStep, hpc, hsetup]; rfl, ?_⟩
      exact rank_lt_of_stage (stage_lt_of_client hpc rfl (show 0 < 12 by omega))
  case readAck got => exact client_reads J cfg hinc hready (.inl hpc)
  case readStart got => exact client_reads J cfg hinc hready (.inr (.inl hpc))
  case readResult got => exact client_reads J cfg hinc hready (.inr (.inr (.inl hpc)))
  case readDone got => exact client_reads J cfg hinc hready (.inr (.inr (.inr hpc)))
  case bindUdp =>
    refine ⟨.go, _, by simp only [clientStep, hpc]; rfl, ?_⟩
    refine rank_lt_of_stage (stage_lt_of_client hpc rfl ?_)
    exact Nat.lt_succ_of_le (udpDispatch_stage cfg)
  case sendInit =>
    refine ⟨.go, _, by simp only [clientStep, hpc]; rfl, ?_⟩
    exact rank_lt_of_stage (stage_lt_of_client hpc rfl (show 7 < 8 by omega))
  case oneWayWait =>
    have hqueue : 0 < s.clientQueue := Nat.pos_of_ne_zero hready
    refine ⟨.transfer 0, _, by simp only [clientStep, hpc, if_pos hqueue]; rfl, ?_⟩
    exact rank_lt_of_stage (stage_lt_of_client hpc rfl (show 7 < 8 by omega))
  case tcpSend =>
    refine ⟨.leave, _, by simp only [clientStep, hpc]; rfl, ?_⟩
    exact rank_lt_of_stage (stage_lt_of_client hpc rfl (show 6 < 7 by omega))
  case tcpReceive =>
    refine ⟨.leave, _, by simp only [clientStep, hpc]; rfl, ?_⟩
    exact rank_lt_of_stage (stage_lt_of_client hpc rfl (show 6 < 7 by omega))
  all_goals
    refine ⟨.leave, s.clientClose, by simp only [clientStep, hpc], ?_⟩
    exact rank_lt_of_stage (stage_lt_of_client hpc rfl (show 0 < 7 by omega))

theorem client_moved {a : Act} (hrule : ClientRule J cfg s a s') : s'.moved = s.moved := by
  cases hrule with
  | @readAck got k p r hpc hr =>
    unfold State.onAck
    split <;> rfl
  | @readStart got k p r hpc hr =>
    unfold State.onStart
    split <;> rfl
  | @readResult got k p r hpc hr => cases r <;> rfl
  | @readDone got k p r hpc hr => cases r <;> rfl
  | _ => rfl

/-- Writing a message moves the server on, whether it can be serialized or not. -/
theorem serverWrite_rank (J : SerdeJson) {m : Message} {next : State → State} {old : ServerPc}
    (hpc : s.server = old) (hpos : 0 < old.stage)
    (hnext : ∀ p, (next { s with toClient := p }).client = s.client ∧
      (next { s with toClient := p }).moved = s.moved ∧
      (next { s with toClient := p }).server.stage < old.stage) :
    (s.serverWrite J m next).moved = s.moved ∧ (s.serverWrite J m next).rank < s.rank := by
  unfold State.serverWrite
  cases serializeMessage J m with
  | ok bytes =>
    obtain ⟨hclient, hmoved, hstage⟩ := hnext (s.toClient.write (frameOctets bytes))
    exact ⟨hmoved, rank_lt_of_stage (stage_lt_of_server hpc hclient hstage)⟩
  | error e => exact ⟨rfl, rank_lt_of_stage (stage_lt_of_server hpc rfl hpos)⟩

/-- A server that does not wait goes on, or a datagram on its way can arrive. -/
theorem server_goes_on (J : SerdeJson) (hagrees : s.agrees env) (h : Attentive s)
    (hinc : ∀ got, s.server = .readSetup got → got.length < need got)
    (hrun : s.server ≠ .finished) (hready : ¬ serverWaits s) :
    (∃ a s', serverStep J env s a = some s' ∧ s'.moved = s.moved ∧ s'.rank < s.rank) ∨
      ∃ s', deliverStep env s = some s' ∧ s'.moved = s.moved ∧ s'.rank < s.rank := by
  unfold serverWaits at hready
  cases hpc : s.server <;> rw [hpc] at hready
  case finished => exact absurd hpc hrun
  case udpWaitFirst t =>
    by_cases hqueue : 0 < s.serverQueue
    · refine .inl ⟨.transfer 0,
        { s with serverQueue := s.serverQueue - 1, server := .udpSend t },
        by simp only [serverStep, hpc, if_pos hqueue], rfl, ?_⟩
      exact rank_lt_of_stage (stage_lt_of_server hpc rfl (show 7 < 8 by omega))
    · have hflight : s.inFlight ≠ 0 := fun hzero => hready ⟨by omega, hzero⟩
      have hbound := h.bound t hpc
      refine .inr ⟨{ s with inFlight := s.inFlight - 1, serverQueue := s.serverQueue + 1 }, ?_,
        rfl, ?_⟩
      · rw [deliverStep, if_neg hflight, if_pos hbound]
      · refine rank_lt_of_pending rfl ?_
        show s.toServer.unread.length + s.toClient.unread.length + (s.inFlight - 1) <
          s.toServer.unread.length + s.toClient.unread.length + s.inFlight
        omega
  all_goals left
  case readSetup got =>
    obtain ⟨k, p, r, hr, hout⟩ := readFrame_ready J (hinc got hpc) hready
    refine ⟨.read k, s.onSetup p r, ?_, onSetup_moved p r, rank_lt_of_read hout ?_ ?_⟩
    · simp only [serverStep, hpc, hr, Option.map_some]
    · rintro got' rfl
      exact ⟨by simp only [State.stage, State.onSetup, hpc, ServerPc.stage],
        pending_toServer s _ p⟩
    · rintro m rfl
      exact stage_lt_of_server hpc (onSetup_client p _).1 (Nat.lt_succ_of_le (onSetup_stage p m))
  case writeAck t =>
    refine ⟨.go, _, by simp only [serverStep, hpc]; rfl, ?_⟩
    exact serverWrite_rank J hpc (show 0 < 11 by omega) fun p =>
      ⟨rfl, rfl, show 10 < 11 by omega⟩
  case writeStart t =>
    refine ⟨.go, _, by simp only [serverStep, hpc]; rfl, ?_⟩
    exact serverWrite_rank J hpc (show 0 < 10 by omega) fun p =>
      ⟨rfl, rfl, Nat.lt_succ_of_le (serverDispatch_stage t)⟩
  case bindUdp t =>
    refine ⟨.go, { s with server := serverUdpDispatch t, serverBound := true },
      by simp only [serverStep, hpc], rfl, ?_⟩
    refine rank_lt_of_stage (stage_lt_of_server hpc rfl ?_)
    exact Nat.lt_succ_of_le (serverUdpDispatch_stage t)
  case writeResult =>
    cases hst : env.stats with
    | some st =>
      refine ⟨.go, _, by simp only [serverStep, hpc, hst]; rfl, ?_⟩
      exact serverWrite_rank J hpc (show 0 < 6 by omega) fun p =>
        ⟨rfl, rfl, show 5 < 6 by omega⟩
    | none =>
      have hmoved : s.moved = 0 := hagrees hst
      refine ⟨.go, { s with server := .writeDone }, ?_, rfl, ?_⟩
      · simp only [serverStep, hpc, hst, if_pos hmoved]
      · exact rank_lt_of_stage (stage_lt_of_server hpc rfl (show 5 < 6 by omega))
  case writeDone =>
    refine ⟨.go, _, by simp only [serverStep, hpc]; rfl, ?_⟩
    exact serverWrite_rank J hpc (show 0 < 5 by omega) fun p => ⟨rfl, rfl, show 0 < 5 by omega⟩
  case tcpSend t =>
    refine ⟨.leave, { s with server := .writeResult }, by simp only [serverStep, hpc], rfl, ?_⟩
    exact rank_lt_of_stage (stage_lt_of_server hpc rfl (show 6 < 7 by omega))
  case tcpReceive t =>
    refine ⟨.leave, { s with server := .writeResult }, by simp only [serverStep, hpc], rfl, ?_⟩
    exact rank_lt_of_stage (stage_lt_of_server hpc rfl (show 6 < 7 by omega))
  all_goals
    refine ⟨.leave, s.serverClose, by simp only [serverStep, hpc], rfl, ?_⟩
    exact rank_lt_of_stage (stage_lt_of_server hpc rfl (show 0 < 7 by omega))

/-! ### The way to the end -/

theorem session_goes_on (hJ : Honest J cfg env) (hspeaks : speaksFirst cfg env)
    (hreach : Reachable J cfg env s) (hagrees : s.agrees env) (hrun : ¬ s.Finished) :
    ∃ a s', step J cfg env s a = some s' ∧ s'.agrees env ∧ s'.rank < s.rank := by
  have h := session_reachable hJ hreach
  have hattentive := attentive_reachable hJ hreach
  have hfree := speaksFirst_deadlockFree hJ hspeaks s hreach
  have hkeep : ∀ s' : State, s'.moved = s.moved → s'.agrees env :=
    fun s' hmoved hnone => hmoved.trans (hagrees hnone)
  by_cases hclient : s.client ≠ .finished ∧ ¬ clientWaits s
  · obtain ⟨a, s', hs, hlt⟩ := client_goes_on J cfg hattentive hclient.1 hclient.2
    exact ⟨.client a, s', hs, hkeep s' (client_moved (clientStep_rule hJ.setup hs)), hlt⟩
  · -- the client has finished or waits, so the server is the one to go on
    have hserver : s.server ≠ .finished ∧ ¬ serverWaits s := by
      by_cases hfin : s.client = .finished
      · exact ⟨fun hs => hrun ⟨hfin, hs⟩, fun hw => hfree (.inr ⟨hw, .inl hfin⟩)⟩
      · have hwaits : clientWaits s := by
          by_contra hno
          exact hclient ⟨hfin, hno⟩
        have hactive := h.server_active hJ hspeaks hwaits
        exact ⟨fun hs => hactive (.inl hs), fun hw => hactive (.inr hw)⟩
    have hinc : ∀ got, s.server = .readSetup got → got.length < need got := by
      intro got hpc
      have htaken := h.setupTaken
      rw [hpc] at htaken
      exact htaken.1
    rcases server_goes_on J hagrees hattentive hinc hserver.1 hserver.2 with
      ⟨a, s', hs, hmoved, hlt⟩ | ⟨s', hs, hmoved, hlt⟩
    · exact ⟨.server a, s', hs, hkeep s' hmoved, hlt⟩
    · exact ⟨.deliver, s', hs, hkeep s' hmoved, hlt⟩

theorem speaksFirst_completable (hJ : Honest J cfg env) (hspeaks : speaksFirst cfg env) :
    Completable J cfg env := by
  intro s hreach hagrees
  refine Lts.Reach.attains State.rank ?_ hreach hagrees
  intro s hreach hagrees hrun
  obtain ⟨a, s', hs, hagrees', hlt⟩ := session_goes_on hJ hspeaks hreach hagrees hrun
  exact ⟨a, s', trivial, hs, hagrees', hlt⟩

/-! ### Sessions without an end -/

/-- The server waits for a first datagram, there is none, and the client will not send one. -/
structure Abandoned (s : State) : Prop where
  server : ∃ t, s.server = .udpWaitFirst t
  queue : s.serverQueue = 0
  flight : s.inFlight = 0
  client : s.client = .oneWayCheck ∨ s.client = .oneWayWait ∨ s.client = .udpReceive ∨
    s.client = .finished

theorem abandoned_server (h : Abandoned s) (a : Act) : serverStep J env s a = none := by
  obtain ⟨t, hpc⟩ := h.server
  cases a with
  | transfer k =>
    have hqueue : ¬ 0 < s.serverQueue := by
      rw [h.queue]
      omega
    simp only [serverStep, hpc, if_neg hqueue]
  | _ => simp only [serverStep, hpc]

theorem abandoned_client (h : Abandoned s) {a : Act} (hs : clientStep J cfg s a = some s') :
    s'.server = s.server ∧ s'.serverQueue = s.serverQueue ∧ s'.inFlight = s.inFlight ∧
      (s'.client = .oneWayCheck ∨ s'.client = .oneWayWait ∨ s'.client = .udpReceive ∨
        s'.client = .finished) := by
  rcases h.client with hpc | hpc | hpc | hpc
  · cases a <;> simp only [clientStep, hpc, reduceCtorEq] at hs
    case go =>
      obtain ⟨-, hs⟩ := Option.ite_none_right_eq_some.mp hs
      cases hs
      exact ⟨rfl, rfl, rfl, .inr (.inl rfl)⟩
    case leave =>
      cases hs
      exact ⟨rfl, rfl, rfl, .inr (.inr (.inr rfl))⟩
  · cases a <;> simp only [clientStep, hpc, reduceCtorEq] at hs
    case transfer k =>
      obtain ⟨-, hs⟩ := Option.ite_none_right_eq_some.mp hs
      cases hs
      exact ⟨rfl, rfl, rfl, .inl rfl⟩
  · cases a <;> simp only [clientStep, hpc, reduceCtorEq] at hs
    case transfer k =>
      obtain ⟨-, hs⟩ := Option.ite_none_right_eq_some.mp hs
      cases hs
      exact ⟨rfl, rfl, rfl, .inr (.inr (.inl rfl))⟩
    case leave =>
      cases hs
      exact ⟨rfl, rfl, rfl, .inr (.inr (.inr rfl))⟩
  · cases a <;> simp only [clientStep, hpc, reduceCtorEq] at hs

theorem abandoned_step (h : Abandoned s) {a : Action} (hs : step J cfg env s a = some s') :
    Abandoned s' := by
  cases a with
  | client a =>
    obtain ⟨hserver, hqueue, hflight, hclient⟩ := abandoned_client h hs
    exact
      { server := by rw [hserver]; exact h.server
        queue := by rw [hqueue]; exact h.queue
        flight := by rw [hflight]; exact h.flight
        client := hclient }
  | server a =>
    have hnone : serverStep J env s a = none := abandoned_server h a
    cases hnone.symm.trans hs
  | deliver => exact absurd h.flight (deliverStep_cases hs).1

theorem abandoned_unfinished (h : Abandoned s) (hreach : Lts.Reachable (step J cfg env) s s') :
    ¬ s'.Finished := by
  have hend := hreach.invariant h fun _ _ _ hab _ hs => abandoned_step hab hs
  intro hfin
  obtain ⟨t, hpc⟩ := hend.server
  exact ServerPc.noConfusion (hpc.symm.trans hfin.2)

/-- One-way receive mode: nobody sends the first datagram. -/
theorem receive_abandoned (hJ : Honest J cfg env) (hudp : cfg.protocol = .udp)
    (hreceive : cfg.oneWay = .receive) :
    ∃ s, Reachable J cfg env s ∧ s.agrees env ∧ Abandoned s := by
  have hbind := bindUdp_reachable hJ hudp
  rw [(udpDispatch_receive cfg).mpr hreceive] at hbind
  refine ⟨_, hbind.snoc (a := .server .go) rfl, fun _ => rfl, ?_⟩
  exact
    { server := ⟨cfg.serverTest, (serverUdpDispatch_waits cfg).mpr (.inl hreceive)⟩
      queue := rfl
      flight := rfl
      client := .inl rfl }

/-- Reverse mode: the init packet is dropped when it arrives before the server's `bind`. -/
theorem reverse_abandoned (hJ : Honest J cfg env) (hudp : cfg.protocol = .udp)
    (hnone : cfg.oneWay = .none) (hreverse : cfg.reverse = true)
    (hdrops : env.unboundDrops = true) :
    ∃ s, Reachable J cfg env s ∧ s.agrees env ∧ Abandoned s := by
  have hbind := bindUdp_reachable hJ hudp
  rw [(udpDispatch_init cfg).mpr ⟨hnone, hreverse⟩] at hbind
  have hsent := hbind.snoc (a := .client .go) rfl
  have hlost : Reachable J cfg env
      { State.handshaken J cfg env with
        client := .udpReceive
        server := .bindUdp cfg.serverTest
        firstDatagram := some false } := by
    refine hsent.snoc (a := .deliver) ?_
    show (if env.unboundDrops = true then _ else none) = _
    rw [if_pos hdrops]
    rfl
  refine ⟨_, hlost.snoc (a := .server .go) rfl, fun _ => rfl, ?_⟩
  exact
    { server := ⟨cfg.serverTest, (serverUdpDispatch_waits cfg).mpr (.inr ⟨hnone, hreverse⟩)⟩
      queue := rfl
      flight := rfl
      client := .inr (.inr (.inl rfl)) }

/-- Every session can come to its end exactly when the client speaks first. -/
theorem completable_iff (hJ : Honest J cfg env) :
    Completable J cfg env ↔ speaksFirst cfg env := by
  refine ⟨?_, speaksFirst_completable hJ⟩
  intro hall hudp
  refine ⟨?_, ?_⟩
  · intro hreceive
    obtain ⟨s, hreach, hagrees, habandoned⟩ := receive_abandoned hJ hudp hreceive
    obtain ⟨s', hend, hfin⟩ := hall s hreach hagrees
    exact abandoned_unfinished habandoned hend hfin
  · intro hnone hreverse
    by_contra hkept
    have hdrops : env.unboundDrops = true := Bool.eq_true_of_not_eq_false hkept
    obtain ⟨s, hreach, hagrees, habandoned⟩ := reverse_abandoned hJ hudp hnone hreverse hdrops
    obtain ⟨s', hend, hfin⟩ := hall s hreach hagrees
    exact abandoned_unfinished habandoned hend hfin

theorem completable_iff_tcpReverse :
    Completable (.ofTable sessionTexts) tcpReverseTest localEnv :=
  (completable_iff tcpReverseTest_honest).mpr
    fun hudp => TestProtocol.noConfusion hudp

end Rperf3.Joint
