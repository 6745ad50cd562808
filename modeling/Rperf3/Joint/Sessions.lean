import Rperf3.Joint.Completion
import Rperf3.Joint.Ready
import Rperf3.ServerSessions

/-!
# One server and its clients (`server.rs:302-345`, `729-1382`)

Every connection has a handler of its own. The handlers share the collector: what
they do with it stands in a log, in the order in which they do it, each call as
one step (`CollectorSnapshot` has `get` read by read), and the `Result` of a TCP
test is read from what the log has made of the collector. They also share the UDP
port: a handler binds it for its test, after it has written `Start`, and fails
when another one has it. What arrives at the port goes to the one that has it,
whoever has sent it, and a handler that sends data sends it to where its first
datagram came from.
-/

namespace Rperf3.Joint
open Rperf3 SharedRun

/-! ### What a handler does with the collector -/

/-- The first stream of the collector, as `handle_tcp_client` puts it into a `Result`. -/
def resultStats (m : Measurements) : Option ResultStats :=
  m.streams.head?.map fun stats =>
    { bytesSent := stats.bytesSent.toNat
      bytesReceived := stats.bytesReceived.toNat
      duration := Duration.asSecsF64 m.totalDuration
      bitsPerSecond := m.totalBitsPerSecond }

theorem resultStats_message (m : Measurements) :
    (resultStats m).map ResultStats.message = resultMessage m := by
  unfold resultStats resultMessage
  rw [Option.map_map]
  rfl

/-- What a handler finds in a step: the datagram it takes, the wall clock in microseconds and how
long its test has run. -/
structure HandlerInput where
  datagram : Bytes
  wallUs : UInt64
  elapsed : Duration

def recordsOf {α : Type} (body : LoopBody α) (a : α) : List HandlerStep :=
  match body.onIo a with
  | some out => out.1.map .call
  | none => []

/-- The records of the data loops, `set_duration` after them and `get` for the `Result`. Start times
and intervals, which no `Result` shows, are left out, and `recv_one_way_server` does not use the
collector. -/
def handlerSteps (x : HandlerInput) : ServerPc → Act → List HandlerStep
  | .tcpSend _, .transfer k => [.call (.recordBytesSent 0 (.ofNat k))]
  | .tcpReceive _, .transfer k => [.call (.recordBytesReceived 0 (.ofNat k))]
  | .udpSend _, .transfer k =>
    [.call (.recordBytesSent 0 (.ofNat k)), .call (.recordUdpPacket 0)]
  | .udpReceive t, .transfer _ =>
    if t.oneWay = .send then [] else recordsOf receiveUdpData (x.datagram, x.wallUs)
  | .tcpSend _, .leave | .tcpReceive _, .leave | .udpSend _, .leave =>
    [.call (.setDuration x.elapsed)]
  | .udpReceive t, .leave => if t.oneWay = .send then [] else [.call (.setDuration x.elapsed)]
  | .writeResult, .go => [.sendResult]
  | _, _ => []

/-- What a `Result` says when the handlers have done this with the collector. -/
def figuresOf {ι : Type} (log : List (ι × HandlerStep)) : Option ResultStats :=
  resultStats (server.after MeasurementsCollector.new (log.map Prod.snd)).get

def Env.withStats (env : Env) (stats : Option ResultStats) : Env := { env with stats := stats }

/-! ### The server -/

structure Sessions (ι : Type) where
  session : ι → State
  /-- what the handlers have done with the collector -/
  log : List (ι × HandlerStep)
  /-- the handler that has the UDP port -/
  holder : Option ι
  /-- whose datagrams wait in its socket -/
  queue : List ι
  /-- whose datagrams a handler has taken -/
  taken : ι → List ι

inductive SessionsAction (ι : Type) where
  | client (i : ι) (a : Act)
  | server (i : ι) (a : Act) (x : HandlerInput)
  /-- a datagram of client `j` arrives at the port -/
  | deliver (j : ι)

namespace Sessions

variable {ι : Type} [DecidableEq ι]

omit [DecidableEq ι] in
def init : Sessions ι := ⟨fun _ => State.init, [], none, [], fun _ => []⟩

omit [DecidableEq ι] in
/-- The environments of the sessions, with the collector as it is now. -/
def envs (S : Sessions ι) (env : ι → Env) (i : ι) : Env := (env i).withStats (figuresOf S.log)

omit [DecidableEq ι] in
def record (S : Sessions ι) (i : ι) (steps : List HandlerStep) : Sessions ι :=
  { S with log := S.log ++ steps.map (Prod.mk i) }

def set (S : Sessions ι) (i : ι) (s : State) : Sessions ι :=
  { S with session := Function.update S.session i s }

def clientStep (J : SerdeJson) (cfg : ι → Config) (S : Sessions ι) (i : ι) (a : Act) :
    Option (Sessions ι) :=
  (Joint.clientStep J (cfg i) (S.session i) a).map (S.set i)

def serverStep (J : SerdeJson) (env : ι → Env) (S : Sessions ι) (i : ι) (a : Act) :
    Option (Sessions ι) :=
  match (S.session i).server, a with
  | .bindUdp _, .go =>
    match S.holder with
    | none =>
      (Joint.serverStep J (env i) (S.session i) .go).map
        fun s => { S.set i s with holder := some i }
    | some _ => some (S.set i (S.session i).serverClose)
  | .udpWaitFirst _, .transfer k | .udpReceive _, .transfer k =>
    match S.queue with
    | [] => none
    | o :: rest =>
      (Joint.serverStep J (env i) (S.session i) (.transfer k)).map
        fun s =>
          { S.set i s with
            queue := rest
            taken := Function.update S.taken i (S.taken i ++ [o]) }
  | .udpSend t, .transfer _ =>
    match (S.taken i).head? with
    | none => none
    | some peer =>
      if 0 < t.duration then
        some (S.set peer
          { S.session peer with clientQueue := (S.session peer).clientQueue + 1 })
      else none
  | .udpSend _, .leave | .udpReceive _, .leave =>
    (Joint.serverStep J (env i) (S.session i) .leave).map
      fun s => { S.set i s with holder := none, queue := [] }
  | _, _ => (Joint.serverStep J (env i) (S.session i) a).map (S.set i)

def deliverStep (env : ι → Env) (S : Sessions ι) (j : ι) : Option (Sessions ι) :=
  if (S.session j).inFlight = 0 then none
  else
    let S' := S.set j { S.session j with inFlight := (S.session j).inFlight - 1 }
    match S.holder with
    | some i =>
      some { S'.set i { S'.session i with serverQueue := (S'.session i).serverQueue + 1 } with
        queue := S.queue ++ [j] }
    | none => if (env j).unboundDrops then some S' else none

def step (J : SerdeJson) (cfg : ι → Config) (env : ι → Env) (S : Sessions ι) :
    SessionsAction ι → Option (Sessions ι)
  | .client i a => S.clientStep J cfg i a
  | .server i a x =>
    (S.serverStep J (S.envs env) i a).map
      fun S' => S'.record i (handlerSteps x (S.session i).server a)
  | .deliver j => S.deliverStep env j

end Sessions

/-! ### The steps of a handler -/

def ServerPc.listening : ServerPc → Prop
  | .udpWaitFirst _ | .udpSend _ | .udpReceive _ => True
  | _ => False

def ServerPc.usesPort : ServerPc → Prop
  | .bindUdp _ => True
  | pc => pc.listening

section Steps

variable {ι : Type} [DecidableEq ι] {J : SerdeJson} {cfg : ι → Config} {env : ι → Env}
  {S S' : Sessions ι} {i : ι}

inductive HandlerRule (J : SerdeJson) (env : ι → Env) (S : Sessions ι) (i : ι) :
    Act → Sessions ι → Prop
  | own {a s} (hport : ¬ (S.session i).server.usesPort)
    (hs : serverStep J (env i) (S.session i) a = some s) :
    HandlerRule J env S i a (S.set i s)
  | bind {t s} (hpc : (S.session i).server = .bindUdp t) (hfree : S.holder = none)
    (hs : serverStep J (env i) (S.session i) .go = some s) :
    HandlerRule J env S i .go { S.set i s with holder := some i }
  | refused {t k} (hpc : (S.session i).server = .bindUdp t) (hholder : S.holder = some k) :
    HandlerRule J env S i .go (S.set i (S.session i).serverClose)
  | take {t k o rest s}
    (hpc : (S.session i).server = .udpWaitFirst t ∨ (S.session i).server = .udpReceive t)
    (hqueue : S.queue = o :: rest)
    (hs : serverStep J (env i) (S.session i) (.transfer k) = some s) :
    HandlerRule J env S i (.transfer k)
      { S.set i s with
        queue := rest
        taken := Function.update S.taken i (S.taken i ++ [o]) }
  | send {t k peer} (hpc : (S.session i).server = .udpSend t) (hpeer : peer ∈ S.taken i)
    (hduration : 0 < t.duration) :
    HandlerRule J env S i (.transfer k)
      (S.set peer { S.session peer with clientQueue := (S.session peer).clientQueue + 1 })
  | leave {t s} (hpc : (S.session i).server = .udpSend t ∨ (S.session i).server = .udpReceive t)
    (hs : serverStep J (env i) (S.session i) .leave = some s) :
    HandlerRule J env S i .leave { S.set i s with holder := none, queue := [] }

theorem handlerRule_own {a : Act} (hport : ¬ (S.session i).server.usesPort)
    (h : (serverStep J (env i) (S.session i) a).map (S.set i) = some S') :
    HandlerRule J env S i a S' := by
  obtain ⟨s, hs, rfl⟩ := Option.map_eq_some_iff.mp h
  exact .own hport hs

theorem serverStep_handler {a : Act} (h : S.serverStep J env i a = some S') :
    HandlerRule J env S i a S' := by
  unfold Sessions.serverStep at h
  cases hpc : (S.session i).server with
  | bindUdp t =>
    cases a with
    | go =>
      simp only [hpc] at h
      cases hholder : S.holder with
      | none =>
        simp only [hholder] at h
        obtain ⟨s, hs, rfl⟩ := Option.map_eq_some_iff.mp h
        exact .bind hpc hholder hs
      | some k =>
        simp only [hholder] at h
        cases h
        exact .refused hpc hholder
    | _ => simp only [hpc, serverStep, Option.map_none, reduceCtorEq] at h
  | udpWaitFirst t =>
    cases a with
    | transfer k =>
      simp only [hpc] at h
      cases hqueue : S.queue with
      | nil => simp only [hqueue, reduceCtorEq] at h
      | cons o rest =>
        simp only [hqueue] at h
        obtain ⟨s, hs, rfl⟩ := Option.map_eq_some_iff.mp h
        exact .take (.inl hpc) hqueue hs
    | _ => simp only [hpc, serverStep, Option.map_none, reduceCtorEq] at h
  | udpReceive t =>
    cases a with
    | transfer k =>
      simp only [hpc] at h
      cases hqueue : S.queue with
      | nil => simp only [hqueue, reduceCtorEq] at h
      | cons o rest =>
        simp only [hqueue] at h
        obtain ⟨s, hs, rfl⟩ := Option.map_eq_some_iff.mp h
        exact .take (.inr hpc) hqueue hs
    | leave =>
      simp only [hpc] at h
      obtain ⟨s, hs, rfl⟩ := Option.map_eq_some_iff.mp h
      exact .leave (.inr hpc) hs
    | _ => simp only [hpc, serverStep, Option.map_none, reduceCtorEq] at h
  | udpSend t =>
    cases a with
    | transfer k =>
      simp only [hpc] at h
      cases hpeer : (S.taken i).head? with
      | none => simp only [hpeer, reduceCtorEq] at h
      | some peer =>
        simp only [hpeer] at h
        obtain ⟨hduration, h⟩ := Option.ite_none_right_eq_some.mp h
        cases h
        exact .send hpc (List.mem_of_head? hpeer) hduration
    | leave =>
      simp only [hpc] at h
      obtain ⟨s, hs, rfl⟩ := Option.map_eq_some_iff.mp h
      exact .leave (.inl hpc) hs
    | _ => simp only [hpc, serverStep, Option.map_none, reduceCtorEq] at h
  | _ =>
    have hport : ¬ (S.session i).server.usesPort := by
      rw [hpc]
      exact id
    simp only [hpc] at h
    exact handlerRule_own hport h

end Steps

/-! ### What every interleaving keeps -/

def Sends (cfg : Config) : Prop := cfg.protocol = .udp ∧ sendsDatagrams cfg

/-- The handler of a UDP test receives: its first datagram, or those of its loop. -/
def Takes (cfg : Config) (env : Env) : Prop :=
  cfg.protocol = .udp ∧
    (serverUdpDispatch cfg.serverTest = .udpWaitFirst cfg.serverTest ∨
      receiveLoopEntered env cfg.serverTest)

theorem take_server {J : SerdeJson} {cfg : Config} {env : Env} {s s' : State} {t : ServerTest}
    {k : ℕ} (h : Session J cfg env s)
    (hpc : s.server = .udpWaitFirst t ∨ s.server = .udpReceive t)
    (hs : serverStep J env s (.transfer k) = some s') : Takes cfg env := by
  have hfits := h.serverFits
  rcases hpc with hpc | hpc
  · rw [hpc] at hfits
    obtain ⟨rfl, hudp, hfirst⟩ := hfits
    exact ⟨hudp, .inl hfirst⟩
  · rw [hpc] at hfits
    obtain ⟨rfl, hudp, -⟩ := hfits
    simp only [serverStep, hpc] at hs
    obtain ⟨⟨hloop, -⟩, -⟩ := Option.ite_none_right_eq_some.mp hs
    exact ⟨hudp, .inr hloop⟩

theorem flight_client {J : SerdeJson} {cfg : Config} {env : Env} {s s' : State} {a : Act}
    (h : Session J cfg env s) (hrule : ClientRule J cfg s a s') :
    s'.inFlight = s.inFlight ∨ Sends cfg := by
  have hfits := h.clientFits
  cases hrule with
  | datagram hpc hs =>
    rw [hpc] at hfits
    exact .inr ⟨hfits.1, .inr ⟨hfits.2, hs⟩⟩
  | init hpc =>
    rw [hpc] at hfits
    exact .inr ⟨hfits.1, .inl hfits.2⟩
  | @readAck got k p r hpc hr =>
    unfold State.onAck
    split <;> exact .inl rfl
  | @readStart got k p r hpc hr =>
    unfold State.onStart
    split <;> exact .inl rfl
  | @readResult got k p r hpc hr =>
    cases r <;> exact .inl rfl
  | @readDone got k p r hpc hr =>
    cases r <;> exact .inl rfl
  | _ => exact .inl rfl

theorem flight_server {J : SerdeJson} {env : Env} {s s' : State} {a : Act}
    (hrule : ServerRule J env s a s') : s'.inFlight = s.inFlight := by
  cases hrule with
  | @readSetup got k p r hpc hr => exact (onSetup_client p r).2.1
  | _ => rfl

section Shared

variable {ι : Type} [DecidableEq ι] {J : SerdeJson} {cfg : ι → Config} {env : ι → Env}
  {S S' : Sessions ι} {i j : ι} {s : State}

namespace Sessions

@[simp] theorem set_self : (S.set i s).session i = s := Function.update_self ..

theorem set_ne (h : j ≠ i) : (S.set i s).session j = S.session j := Function.update_of_ne h ..

@[simp] theorem set_set (s' : State) : (S.set i s).set i s' = S.set i s' := by
  unfold set
  rw [Function.update_idem]

@[simp] theorem set_same : S.set i (S.session i) = S := by
  unfold set
  rw [Function.update_eq_self]

omit [DecidableEq ι] in
@[simp] theorem record_session (steps : List HandlerStep) :
    (S.record i steps).session = S.session := rfl

omit [DecidableEq ι] in
@[simp] theorem record_nil : S.record i [] = S := by
  unfold record
  rw [List.map_nil, List.append_nil]

omit [DecidableEq ι] in
@[simp] theorem record_record (steps more : List HandlerStep) :
    (S.record i steps).record i more = S.record i (steps ++ more) := by
  unfold record
  rw [List.map_append, List.append_assoc]

@[simp] theorem set_record (steps : List HandlerStep) :
    (S.record i steps).set j s = (S.set j s).record i steps := rfl

theorem forall_set {P : ι → State → Prop} (h : ∀ j, P j (S.session j)) (hs : P i s) :
    ∀ j, P j ((S.set i s).session j) := by
  intro j
  by_cases hj : j = i
  · subst hj
    rw [set_self]
    exact hs
  · rw [set_ne hj]
    exact h j

end Sessions

theorem Honest.withStats {cfg : Config} {env : Env} (h : Honest J cfg env)
    (stats : Option ResultStats) : Honest J cfg (env.withStats stats) :=
  { h with }

theorem session_withStats {cfg : Config} {env : Env} {stats : Option ResultStats} :
    Session J cfg (env.withStats stats) s ↔ Session J cfg env s :=
  ⟨fun h => { h with }, fun h => { h with }⟩

omit [DecidableEq ι] in
theorem honest_envs (hJ : ∀ i, Honest J (cfg i) (env i)) (S : Sessions ι) (i : ι) :
    Honest J (cfg i) (S.envs env i) :=
  (hJ i).withStats _

/-- The handshakes, and that only senders' datagrams come to handlers that receive. -/
structure Shared (J : SerdeJson) (cfg : ι → Config) (env : ι → Env) (S : Sessions ι) : Prop where
  session : ∀ i, Session J (cfg i) (env i) (S.session i)
  flight : ∀ j, (S.session j).inFlight ≠ 0 → Sends (cfg j)
  queue : ∀ o ∈ S.queue, Sends (cfg o)
  taken : ∀ i, ∀ o ∈ S.taken i, Sends (cfg o) ∧ Takes (cfg i) (env i)
  holder : ∀ i, S.holder = some i → (cfg i).protocol = .udp

omit [DecidableEq ι] in
theorem shared_init (J : SerdeJson) (cfg : ι → Config) (env : ι → Env) :
    Shared J cfg env Sessions.init where
  session i := session_init J (cfg i) (env i)
  flight _ h := absurd rfl h
  queue _ h := absurd h List.not_mem_nil
  taken _ _ h := absurd h List.not_mem_nil
  holder i h := absurd h (Option.some_ne_none i).symm

theorem Shared.set (h : Shared J cfg env S) (hsession : Session J (cfg i) (env i) s)
    (hflight : s.inFlight ≠ 0 → Sends (cfg i)) : Shared J cfg env (S.set i s) :=
  { h with
    session := Sessions.forall_set (P := fun j s => Session J (cfg j) (env j) s) h.session hsession
    flight := Sessions.forall_set (P := fun j s => s.inFlight ≠ 0 → Sends (cfg j)) h.flight
      hflight }

theorem Shared.setServer (hJ : Honest J (cfg i) (env i)) (h : Shared J cfg env S) {a : Act}
    (hs : serverStep J (env i) (S.session i) a = some s) : Shared J cfg env (S.set i s) := by
  have hrule := serverStep_rule hJ.ack hJ.start hs
  refine h.set (session_server hJ (h.session i) hrule) ?_
  rw [flight_server hrule]
  exact h.flight i

omit [DecidableEq ι] in
theorem shared_envs {T : Sessions ι} : Shared J cfg (T.envs env) S ↔ Shared J cfg env S :=
  ⟨fun h => { h with session := fun i => session_withStats.mp (h.session i) },
    fun h => { h with session := fun i => session_withStats.mpr (h.session i) }⟩

omit [DecidableEq ι] in
theorem Shared.record (h : Shared J cfg env S) (i : ι) (steps : List HandlerStep) :
    Shared J cfg env (S.record i steps) :=
  { h with }

theorem Shared.handler (hJ : ∀ i, Honest J (cfg i) (env i)) (h : Shared J cfg env S) {a : Act}
    (hrule : HandlerRule J env S i a S') : Shared J cfg env S' := by
  have hfits := (h.session i).serverFits
  cases hrule with
  | own hport hs => exact h.setServer (hJ i) hs
  | @bind t s hpc hfree hs =>
    rw [hpc] at hfits
    have hset := h.setServer (hJ i) hs
    refine { hset with holder := fun k hk => ?_ }
    cases hk
    exact hfits.2
  | refused hpc hholder =>
    exact h.set ((h.session i).serverEnds hpc trivial) (h.flight i)
  | @take t k o rest s hpc hqueue hs =>
    have hset := h.setServer (hJ i) hs
    have htakes := take_server (h.session i) hpc hs
    refine { hset with
      queue := fun o' ho' => h.queue o' (by rw [hqueue]; exact List.mem_cons_of_mem o ho')
      taken := fun j o' ho' => ?_ }
    by_cases hj : j = i
    · subst hj
      simp only [Function.update_self, List.mem_append, List.mem_singleton] at ho'
      rcases ho' with ho' | rfl
      · exact h.taken j o' ho'
      · exact ⟨h.queue o' (by rw [hqueue]; exact List.mem_cons_self ..), htakes⟩
    · simp only [Function.update_of_ne hj] at ho'
      exact h.taken j o' ho'
  | @send t k peer hpc hpeer hduration =>
    exact h.set { h.session peer with } (h.flight peer)
  | leave hpc hs =>
    have hset := h.setServer (hJ i) hs
    exact { hset with
      queue := fun o ho => absurd ho List.not_mem_nil
      holder := fun k hk => absurd hk (Option.some_ne_none k).symm }

theorem deliverStep_sessions (h : S.deliverStep env j = some S') :
    (S.session j).inFlight ≠ 0 ∧
      ((∃ i, S.holder = some i ∧
        ∃ S₁ : Sessions ι,
          S₁ = S.set j { S.session j with inFlight := (S.session j).inFlight - 1 } ∧
          S' =
            { S₁.set i { S₁.session i with serverQueue := (S₁.session i).serverQueue + 1 } with
              queue := S.queue ++ [j] }) ∨
      S.holder = none ∧ (env j).unboundDrops = true ∧
        S' = S.set j { S.session j with inFlight := (S.session j).inFlight - 1 }) := by
  unfold Sessions.deliverStep at h
  obtain ⟨hflight, h⟩ := Option.ite_none_left_eq_some.mp h
  refine ⟨hflight, ?_⟩
  cases hholder : S.holder with
  | some i =>
    simp only [hholder] at h
    cases h
    exact .inl ⟨i, rfl, _, rfl, rfl⟩
  | none =>
    simp only [hholder] at h
    obtain ⟨hdrops, h⟩ := Option.ite_none_right_eq_some.mp h
    cases h
    exact .inr ⟨rfl, hdrops, rfl⟩

theorem Shared.deliver (h : Shared J cfg env S) (hs : S.deliverStep env j = some S') :
    Shared J cfg env S' := by
  obtain ⟨hflight, hcases⟩ := deliverStep_sessions hs
  have hsends := h.flight j hflight
  have hfirst : Shared J cfg env
      (S.set j { S.session j with inFlight := (S.session j).inFlight - 1 }) :=
    h.set { h.session j with } (fun _ => hsends)
  rcases hcases with ⟨i, hholder, S₁, hS₁, rfl⟩ | ⟨-, -, rfl⟩
  · rw [← hS₁] at hfirst
    have hbound : Session J (cfg i) (env i)
        { S₁.session i with serverQueue := (S₁.session i).serverQueue + 1 } :=
      { hfirst.session i with }
    have hset := hfirst.set hbound (hfirst.flight i)
    refine { hset with queue := fun o ho => ?_ }
    rcases List.mem_append.mp ho with ho | ho
    · exact h.queue o ho
    · rw [List.mem_singleton.mp ho]
      exact hsends
  · exact hfirst

theorem Shared.step (hJ : ∀ i, Honest J (cfg i) (env i)) (h : Shared J cfg env S)
    {a : SessionsAction ι} (hs : S.step J cfg env a = some S') : Shared J cfg env S' := by
  cases a with
  | client i a =>
    obtain ⟨s, hclient, rfl⟩ := Option.map_eq_some_iff.mp hs
    have hrule := clientStep_rule (hJ i).setup hclient
    refine h.set (session_client (hJ i) (h.session i) hrule) ?_
    rcases flight_client (h.session i) hrule with hsame | hsends
    · rw [hsame]
      exact h.flight i
    · exact fun _ => hsends
  | server i a x =>
    obtain ⟨S₁, hhandler, rfl⟩ := Option.map_eq_some_iff.mp hs
    have hset := (shared_envs.mpr h).handler (honest_envs hJ S) (serverStep_handler hhandler)
    exact (shared_envs.mp hset).record i _
  | deliver j => exact h.deliver hs

theorem shared_reachable (hJ : ∀ i, Honest J (cfg i) (env i))
    (h : Lts.Reachable (Sessions.step J cfg env) Sessions.init S) : Shared J cfg env S :=
  h.invariant (shared_init J cfg env) (fun _ _ _ hinv _ hs => hinv.step hJ hs)

end Shared

end Rperf3.Joint
