import Mathlib.Data.Fintype.Basic
import Rperf3.Joint.TcpSessions

/-!
# UDP tests of several clients

The port belongs to one handler at a time, but datagrams carry no sign of the
test that they belong to. Tests that come one after the other, each when nothing
of the last one is left, are as separate as with servers of their own; as soon as
a client sends while another client's test is open, its datagrams can be counted
there.
-/

namespace Rperf3.Joint
open Rperf3

/-! ### One session: its bind and its datagrams -/

section One

variable {J : SerdeJson} {cfg : Config} {env : Env} {s s' : State}

/-- The socket is there when the handler listens, and a datagram in flight comes from a client that
has read `Start`. -/
structure Grounded (s : State) : Prop where
  bound : s.serverBound = true ↔ s.server.listening
  flight : s.client.started ∨ s.inFlight = 0

theorem grounded_init : Grounded State.init where
  bound := ⟨fun h => Bool.noConfusion h, fun h => h.elim⟩
  flight := .inr rfl

theorem grounded_client (h : Grounded s) {a : Act} (hrule : ClientRule J cfg s a s') :
    Grounded s' := by
  obtain ⟨hserver, hbound⟩ := client_server hrule
  refine ⟨by rw [hserver, hbound]; exact h.bound, ?_⟩
  have hearly : ¬ s.client.started → s.inFlight = 0 := h.flight.resolve_left
  cases hrule with
  | setup hpc => exact .inr (hearly (by rw [hpc]; exact id))
  | @readAck got k p r hpc hr =>
    have hzero := hearly (by rw [hpc]; exact id)
    unfold State.onAck
    split <;> exact .inr hzero
  | @readStart got k p r hpc hr =>
    have hzero := hearly (by rw [hpc]; exact id)
    unfold State.onStart
    split <;> exact .inr hzero
  | bind hpc =>
    refine .inl ?_
    rcases udpDispatch_cases cfg with hd | hd | hd <;> rw [hd] <;> trivial
  | datagram hpc hs => exact .inl (by show s.client.started; rw [hpc]; trivial)
  | udpReceived hpc => exact .inl (by show s.client.started; rw [hpc]; trivial)
  | tcpSent hpc => exact .inl (by show s.client.started; rw [hpc]; trivial)
  | tcpReceived hpc hk => exact .inl (by show s.client.started; rw [hpc]; trivial)
  | @readResult got k p r hpc hr => cases r <;> exact .inl trivial
  | @readDone got k p r hpc hr => cases r <;> exact .inl trivial
  | _ => exact .inl trivial

theorem Grounded.unbound (h : Grounded s) (hpc : ¬ s.server.listening) : s.serverBound = false :=
  Bool.eq_false_iff.mpr (fun hbound => hpc (h.bound.mp hbound))

theorem bound_iff_of_false {s : State} (hbound : s.serverBound = false)
    (hpc : ¬ s.server.listening) : s.serverBound = true ↔ s.server.listening := by
  rw [hbound]
  exact ⟨fun h => Bool.noConfusion h, fun h => absurd h hpc⟩

theorem serverDispatch_quiet (t : ServerTest) : ¬ (serverDispatch t).listening := by
  unfold serverDispatch
  split
  · exact id
  · split <;> exact id

theorem serverUdpDispatch_listening (t : ServerTest) : (serverUdpDispatch t).listening := by
  rcases serverUdpDispatch_cases t with hd | hd <;> rw [hd] <;> trivial

theorem bound_server (h : s.serverBound = true ↔ s.server.listening) {a : Act}
    (hrule : ServerRule J env s a s') : s'.serverBound = true ↔ s'.server.listening := by
  have hfalse : ¬ s.server.listening → s.serverBound = false :=
    fun hpc => Bool.eq_false_iff.mpr (fun hbound => hpc (h.mp hbound))
  cases hrule with
  | @readSetup got k p r hpc hr =>
    have hbound := hfalse (by rw [hpc]; exact id)
    unfold State.onSetup
    split
    · exact bound_iff_of_false hbound id
    · split
      · exact bound_iff_of_false hbound id
      · exact bound_iff_of_false rfl id
  | ack hpc => exact bound_iff_of_false (hfalse (by rw [hpc]; exact id)) id
  | @start t hpc =>
    exact bound_iff_of_false (hfalse (by rw [hpc]; exact id)) (serverDispatch_quiet t)
  | @bind t hpc => exact ⟨fun _ => serverUdpDispatch_listening t, fun _ => rfl⟩
  | first hpc hq => exact ⟨fun _ => trivial, fun _ => h.mpr (by rw [hpc]; trivial)⟩
  | datagram hpc => exact h
  | received hpc => exact h
  | tcpSent hpc => exact h
  | tcpReceived hpc hk => exact h
  | leaveTcp hpc =>
    have hquiet : ¬ s.server.listening := by
      rcases hpc with hpc | hpc <;> rw [hpc] <;> exact id
    exact bound_iff_of_false (hfalse hquiet) id
  | result hpc hst => exact bound_iff_of_false (hfalse (by rw [hpc]; exact id)) id
  | noResult hpc hst => exact bound_iff_of_false (hfalse (by rw [hpc]; exact id)) id
  | _ => exact bound_iff_of_false rfl id

theorem grounded_step (hJ : Honest J cfg env) (h : Grounded s) {a : Action}
    (hs : step J cfg env s a = some s') : Grounded s' := by
  cases a with
  | client a => exact grounded_client h (clientStep_rule hJ.setup hs)
  | server a =>
    have hrule := serverStep_rule hJ.ack hJ.start hs
    refine ⟨bound_server h.bound hrule, ?_⟩
    rw [server_client hrule, flight_server hrule]
    exact h.flight
  | deliver =>
    have hstarted : s.client.started := h.flight.resolve_right (deliverStep_cases hs).1
    rcases (deliverStep_cases hs).2 with rfl | ⟨-, rfl⟩
    · exact ⟨h.bound, .inl hstarted⟩
    · exact ⟨h.bound, .inl hstarted⟩

theorem grounded_reachable (hJ : Honest J cfg env) (h : Reachable J cfg env s) : Grounded s :=
  h.invariant grounded_init fun _ _ _ hinv _ hs => grounded_step hJ hinv hs

/-! ### From `Start` to the last datagram -/

instance : DecidablePred ServerPc.started := fun pc => by
  unfold ServerPc.started
  split <;> infer_instance

/-- A UDP test from `Start` to the end of its client and of its handler, and to the arrival of its
last datagram. -/
def State.live (cfg : Config) (s : State) : Prop :=
  cfg.protocol = .udp ∧ s.server.started ∧ ¬ (s.Finished ∧ s.inFlight = 0)

instance (cfg : Config) : DecidablePred (State.live cfg) := fun s =>
  inferInstanceAs (Decidable (_ ∧ s.server.started ∧
    ¬ ((s.client = .finished ∧ s.server = .finished) ∧ s.inFlight = 0)))

def ServerPc.starting : ServerPc → Prop
  | .writeStart _ => True
  | _ => False

instance : DecidablePred ServerPc.starting := fun pc => by
  unfold ServerPc.starting
  split <;> infer_instance

theorem started_server (hJ : Honest J cfg env) (h : Session J cfg env s) {a : Act}
    (hrule : ServerRule J env s a s') (hstarted : s'.server.started) :
    s.server.started ∨ s.server.starting ∧ a = .go := by
  cases hrule with
  | @readSetup got k p r hpc hr =>
    rcases h.readSetup hJ hpc hr with ⟨got', rfl, -⟩ | rfl
    · exact hstarted.elim
    · rw [onSetup_setup] at hstarted
      exact hstarted.elim
  | ack hpc => exact hstarted.elim
  | start hpc => exact .inr ⟨by rw [hpc]; trivial, rfl⟩
  | leaveUdp hpc => rcases hpc with hpc | hpc <;> exact .inl (by rw [hpc]; trivial)
  | leaveTcp hpc => rcases hpc with hpc | hpc <;> exact .inl (by rw [hpc]; trivial)
  | bind hpc => exact .inl (by rw [hpc]; trivial)
  | first hpc hq => exact .inl (by rw [hpc]; trivial)
  | datagram hpc => exact .inl hstarted
  | received hpc => exact .inl hstarted
  | tcpSent hpc => exact .inl hstarted
  | tcpReceived hpc hk => exact .inl hstarted
  | result hpc hst => exact .inl (by rw [hpc]; trivial)
  | noResult hpc hst => exact .inl (by rw [hpc]; trivial)
  | done hpc => exact .inl (by rw [hpc]; trivial)
  | resultFails hpc hst hfail => exact .inl (by rw [hpc]; trivial)
  | doneFails hpc hfail => exact .inl (by rw [hpc]; trivial)

theorem finished_stuck (h : s.Finished ∧ s.inFlight = 0) (a : Action) :
    step J cfg env s a = none := by
  obtain ⟨⟨hclient, hserver⟩, hflight⟩ := h
  cases a with
  | client a => cases a <;> simp only [step, clientStep, hclient]
  | server a => cases a <;> simp only [step, serverStep, hserver]
  | deliver => simp only [step, deliverStep, hflight, if_true]

/-- Only `Start` opens a test. -/
theorem live_step (hJ : Honest J cfg env) (h : Session J cfg env s) {a : Action}
    (hs : step J cfg env s a = some s') (hlive : s'.live cfg) :
    s.live cfg ∨ s.server.starting ∧ a = .server .go := by
  obtain ⟨hudp, hstarted, -⟩ := hlive
  have hleft : ¬ (s.Finished ∧ s.inFlight = 0) := by
    intro hover
    rw [finished_stuck hover a] at hs
    cases hs
  cases a with
  | client a =>
    rw [(client_server (clientStep_rule hJ.setup hs)).1] at hstarted
    exact .inl ⟨hudp, hstarted, hleft⟩
  | server a =>
    rcases started_server hJ h (serverStep_rule hJ.ack hJ.start hs) hstarted with
      hbefore | ⟨hstart, rfl⟩
    · exact .inl ⟨hudp, hbefore, hleft⟩
    · exact .inr ⟨hstart, rfl⟩
  | deliver =>
    rcases (deliverStep_cases hs).2 with rfl | ⟨-, rfl⟩
    · exact .inl ⟨hudp, hstarted, hleft⟩
    · exact .inl ⟨hudp, hstarted, hleft⟩

theorem usesPort_of_listening {pc : ServerPc} (h : pc.listening) : pc.usesPort := by
  cases pc <;> first | exact h | trivial

theorem listening_server {a : Act} (hrule : ServerRule J env s a s')
    (h : s'.server.listening) : s.server.usesPort := by
  cases hrule with
  | @readSetup got k p r hpc hr =>
    unfold State.onSetup at h
    split at h
    · exact h.elim
    · split at h <;> exact h.elim
  | @start t hpc => exact absurd h (serverDispatch_quiet t)
  | bind hpc => rw [hpc]; trivial
  | first hpc hq => rw [hpc]; trivial
  | datagram hpc => exact usesPort_of_listening h
  | received hpc => exact usesPort_of_listening h
  | tcpSent hpc => exact usesPort_of_listening h
  | tcpReceived hpc hk => exact usesPort_of_listening h
  | _ => exact h.elim

theorem started_of_port {pc : ServerPc} (h : pc.usesPort) :
    pc.started ∧ ¬ pc.starting ∧ pc ≠ .finished := by
  cases pc <;> first | exact h.elim | exact ⟨trivial, id, ServerPc.noConfusion⟩

theorem live_of_port (h : Session J cfg env s) (hport : s.server.usesPort) : s.live cfg := by
  obtain ⟨hstarted, -, hrunning⟩ := started_of_port hport
  exact ⟨h.port_udp hport, hstarted, fun hover => hrunning hover.1.2⟩

theorem AsAlone.session {stats : Option ResultStats} (hJ : Honest J cfg env)
    (h : AsAlone J cfg env stats s) : Session J cfg env s :=
  session_withStats.mp (session_reachable (hJ.withStats stats) h.reach)

theorem AsAlone.grounded {stats : Option ResultStats} (hJ : Honest J cfg env)
    (h : AsAlone J cfg env stats s) : Grounded s :=
  grounded_reachable (hJ.withStats stats) h.reach

theorem live_of_flight (hJ : Honest J cfg env) (h : Session J cfg env s) (hground : Grounded s)
    (hudp : cfg.protocol = .udp) (hflight : s.inFlight ≠ 0) : s.live cfg :=
  ⟨hudp, h.server_started hJ (hground.flight.resolve_right hflight), fun hover => hflight hover.2⟩

end One

/-! ### One test after the other -/

section Separate

variable {ι : Type} [DecidableEq ι] {J : SerdeJson} {cfg : ι → Config} {env : ι → Env}
  {S S' : Sessions ι} {i : ι} {s : State}

/-- A handler writes the `Start` of a UDP test only when no other one is live. -/
def OneByOne (cfg : ι → Config) (S : Sessions ι) : SessionsAction ι → Prop
  | .server i .go _ =>
    (cfg i).protocol = .udp → (S.session i).server.starting →
      ∀ j, j ≠ i → ¬ (S.session j).live (cfg j)
  | _ => True

instance [Fintype ι] (cfg : ι → Config) (S : Sessions ι) : DecidablePred (OneByOne cfg S) :=
  fun a => by
    unfold OneByOne
    split <;> infer_instance

structure Separate (J : SerdeJson) (cfg : ι → Config) (env : ι → Env) (S : Sessions ι) :
    Prop where
  own : ∀ i, ∃ stats, AsAlone J (cfg i) (env i) stats (S.session i)
  alone : ∀ i j, (S.session i).live (cfg i) → (S.session j).live (cfg j) → i = j
  holder : ∀ i, S.holder = some i ↔ (S.session i).serverBound = true
  queue : ∀ o ∈ S.queue, S.holder = some o
  taken : ∀ i, ∀ o ∈ S.taken i, o = i

omit [DecidableEq ι] in
theorem separate_init (J : SerdeJson) (cfg : ι → Config) (env : ι → Env) :
    Separate J cfg env Sessions.init where
  own _ := ⟨some ⟨0, 0, 0, 0⟩, asAlone_init ..⟩
  alone _ _ h := h.2.1.elim
  holder i := ⟨fun h => absurd h (Option.some_ne_none i).symm, fun h => Bool.noConfusion h⟩
  queue _ h := absurd h List.not_mem_nil
  taken _ _ h := absurd h List.not_mem_nil

omit [DecidableEq ι] in
theorem Separate.session (hJ : ∀ i, Honest J (cfg i) (env i)) (h : Separate J cfg env S)
    (i : ι) : Session J (cfg i) (env i) (S.session i) :=
  (h.own i).elim fun _ halone => halone.session (hJ i)

omit [DecidableEq ι] in
theorem Separate.grounded (hJ : ∀ i, Honest J (cfg i) (env i)) (h : Separate J cfg env S)
    (i : ι) : Grounded (S.session i) :=
  (h.own i).elim fun _ halone => halone.grounded (hJ i)

/-- One session moves on by itself: it and the others stay as separate as they were. -/
theorem Separate.moves (hJ : ∀ i, Honest J (cfg i) (env i)) (h : Separate J cfg env S)
    {b : Action} (hs : Joint.step J (cfg i) (S.envs env i) (S.session i) b = some s)
    (hstart : s.live (cfg i) → (S.session i).server.starting → b = .server .go →
      ∀ j, j ≠ i → ¬ (S.session j).live (cfg j)) :
    (∀ j, ∃ stats, AsAlone J (cfg j) (env j) stats ((S.set i s).session j)) ∧
      ∀ j k, ((S.set i s).session j).live (cfg j) → ((S.set i s).session k).live (cfg k) →
        j = k := by
  obtain ⟨stats, halone⟩ := h.own i
  refine ⟨Sessions.forall_set (P := fun j s => ∃ stats, AsAlone J (cfg j) (env j) stats s) h.own
    (halone.goOn (hJ i) hs), ?_⟩
  have hnone : ∀ k, k ≠ i → s.live (cfg i) → ¬ (S.session k).live (cfg k) := by
    intro k hk hlive hother
    have hsession : Session J (cfg i) (S.envs env i) (S.session i) :=
      session_withStats.mpr (halone.session (hJ i))
    rcases live_step (honest_envs hJ S i) hsession hs hlive with hbefore | ⟨hpc, hgo⟩
    · exact hk (h.alone k i hother hbefore)
    · exact hstart hlive hpc hgo k hk hother
  intro j k hj hk
  by_cases hji : j = i
  · subst hji
    by_cases hki : k = j
    · exact hki.symm
    · rw [Sessions.set_self] at hj
      rw [Sessions.set_ne hki] at hk
      exact absurd hk (hnone k hki hj)
  · rw [Sessions.set_ne hji] at hj
    by_cases hki : k = i
    · subst hki
      rw [Sessions.set_self] at hk
      exact absurd hj (hnone j hji hk)
    · rw [Sessions.set_ne hki] at hk
      exact h.alone j k hj hk

omit [DecidableEq ι] in
theorem Separate.listening (hJ : ∀ i, Honest J (cfg i) (env i)) (h : Separate J cfg env S)
    (i : ι) : S.holder = some i ↔ (S.session i).server.listening :=
  (h.holder i).trans (h.grounded hJ i).bound

omit [DecidableEq ι] in
theorem Separate.free (hJ : ∀ i, Honest J (cfg i) (env i)) (h : Separate J cfg env S)
    {t : ServerTest} (hpc : (S.session i).server = .bindUdp t) : S.holder = none := by
  cases hholder : S.holder with
  | none => rfl
  | some k =>
    have hk := (h.listening hJ k).mp hholder
    have hlivek := live_of_port (h.session hJ k) (usesPort_of_listening hk)
    have hlive := live_of_port (h.session hJ i) (by rw [hpc]; trivial)
    obtain rfl := h.alone k i hlivek hlive
    rw [hpc] at hk
    exact hk.elim

theorem Separate.moved (hJ : ∀ i, Honest J (cfg i) (env i)) (h : Separate J cfg env S)
    {b : Action} (hs : Joint.step J (cfg i) (S.envs env i) (S.session i) b = some s)
    (hstart : s.live (cfg i) → (S.session i).server.starting → b = .server .go →
      ∀ j, j ≠ i → ¬ (S.session j).live (cfg j))
    {log : List (ι × HandlerStep)} {holder : Option ι} {queue : List ι} {taken : ι → List ι}
    (hholder : holder = some i ↔ s.server.listening)
    (hothers : ∀ j, j ≠ i → (holder = some j ↔ S.holder = some j))
    (hqueue : ∀ o ∈ queue, holder = some o) (htaken : ∀ j, ∀ o ∈ taken j, o = j) :
    Separate J cfg env ⟨(S.set i s).session, log, holder, queue, taken⟩ := by
  obtain ⟨hown, halone⟩ := h.moves hJ hs hstart
  refine ⟨hown, halone, fun j => ?_, hqueue, htaken⟩
  obtain ⟨stats, hj⟩ := hown j
  have hbound := (hj.grounded (hJ j)).bound
  by_cases hj : j = i
  · subst hj
    rw [Sessions.set_self] at hbound ⊢
    exact hholder.trans hbound.symm
  · exact (hothers j hj).trans (by rw [Sessions.set_ne hj]; exact h.holder j)

theorem Separate.handler (hJ : ∀ i, Honest J (cfg i) (env i)) (h : Separate J cfg env S)
    {a : Act} {x : HandlerInput} (hok : OneByOne cfg S (.server i a x))
    (hrule : HandlerRule J (S.envs env) S i a S') : Separate J cfg env S' := by
  have hlistening := h.listening hJ i
  cases hrule with
  | @own a s hport hs =>
    have hquiet : ¬ s.server.listening := fun hlisten =>
      hport (listening_server
        (serverStep_rule (honest_envs hJ S i).ack (honest_envs hJ S i).start hs) hlisten)
    have hbefore : ¬ (S.session i).server.listening := fun hlisten =>
      hport (usesPort_of_listening hlisten)
    refine h.moved hJ (b := .server a) hs (fun hlive hpc hgo => ?_) ?_ (fun j _ => Iff.rfl)
      h.queue h.taken
    · cases hgo
      exact hok hlive.1 hpc
    · exact ⟨fun hi => absurd (hlistening.mp hi) hbefore, fun hlisten => absurd hlisten hquiet⟩
  | @bind t s hpc hfree hs =>
    have hnot := (started_of_port (show (S.session i).server.usesPort by rw [hpc]; trivial)).2.1
    refine h.moved hJ (b := .server .go) hs (fun _ hpc => absurd hpc hnot) ?_ (fun j hj => ?_)
      (fun o ho => ?_) h.taken
    · simp only [serverStep, hpc] at hs
      cases hs
      exact ⟨fun _ => serverUdpDispatch_listening t, fun _ => rfl⟩
    · rw [hfree]
      exact ⟨fun hi => absurd (Option.some.inj hi).symm hj,
        fun hi => absurd hi (Option.some_ne_none j).symm⟩
    · have hqueue := h.queue o ho
      rw [hfree] at hqueue
      exact absurd hqueue (Option.some_ne_none o).symm
  | @refused t k hpc hholder =>
    rw [h.free hJ hpc] at hholder
    cases hholder
  | @take t k o rest s hpc hqueue hs =>
    have hlisten : (S.session i).server.listening := by
      rcases hpc with hpc | hpc <;> rw [hpc] <;> trivial
    have hnot := (started_of_port (usesPort_of_listening hlisten)).2.1
    have hholder := hlistening.mpr hlisten
    have hown : o = i := by
      have ho := h.queue o (by rw [hqueue]; exact List.mem_cons_self ..)
      exact Option.some.inj (ho.symm.trans hholder)
    refine h.moved hJ (b := .server (.transfer k)) hs (fun _ hpc => absurd hpc hnot) ?_
      (fun j _ => Iff.rfl) (fun o' ho' => ?_) (fun j o' ho' => ?_)
    · refine ⟨fun _ => ?_, fun _ => hholder⟩
      rcases hpc with hpc | hpc
      · simp only [serverStep, hpc] at hs
        obtain ⟨-, hs⟩ := Option.ite_none_right_eq_some.mp hs
        cases hs
        trivial
      · simp only [serverStep, hpc] at hs
        obtain ⟨-, hs⟩ := Option.ite_none_right_eq_some.mp hs
        cases hs
        trivial
    · exact h.queue o' (by rw [hqueue]; exact List.mem_cons_of_mem o ho')
    · by_cases hj : j = i
      · subst hj
        rw [Function.update_self] at ho'
        rcases List.mem_append.mp ho' with ho' | ho'
        · exact h.taken j o' ho'
        · rw [List.mem_singleton.mp ho']
          exact hown
      · rw [Function.update_of_ne hj] at ho'
        exact h.taken j o' ho'
  | @send t k peer hpc hpeer hduration =>
    obtain rfl := h.taken i peer hpeer
    have hnot := (started_of_port (show (S.session peer).server.usesPort by rw [hpc]; trivial)).2.1
    have hs : Joint.step J (cfg peer) (S.envs env peer) (S.session peer) (.server (.transfer k)) =
        some { S.session peer with clientQueue := (S.session peer).clientQueue + 1 } := by
      simp only [Joint.step, serverStep, hpc, if_pos hduration]
    exact h.moved hJ hs (fun _ hpc => absurd hpc hnot) hlistening (fun j _ => Iff.rfl) h.queue
      h.taken
  | @leave t s hpc hs =>
    have hlisten : (S.session i).server.listening := by
      rcases hpc with hpc | hpc <;> rw [hpc] <;> trivial
    have hnot := (started_of_port (usesPort_of_listening hlisten)).2.1
    have hholder := hlistening.mpr hlisten
    refine h.moved hJ (b := .server .leave) hs (fun _ hpc => absurd hpc hnot) ?_ (fun j hj => ?_)
      (fun o ho => absurd ho List.not_mem_nil) h.taken
    · refine ⟨fun hi => absurd hi (Option.some_ne_none i).symm, fun hlisten => ?_⟩
      rcases hpc with hpc | hpc
      · simp only [serverStep, hpc] at hs
        cases hs
        exact hlisten.elim
      · simp only [serverStep, hpc] at hs
        cases hs
        exact hlisten.elim
    · rw [hholder]
      exact ⟨fun hi => absurd hi (Option.some_ne_none j).symm,
        fun hi => absurd (Option.some.inj hi).symm hj⟩

theorem Separate.deliver (hJ : ∀ i, Honest J (cfg i) (env i)) (h : Separate J cfg env S)
    (hshared : Shared J cfg env S) {j : ι} (hs : S.deliverStep env j = some S') :
    Separate J cfg env S' := by
  obtain ⟨hflight, hcases⟩ := deliverStep_sessions hs
  have hlive := live_of_flight (hJ j) (h.session hJ j) (h.grounded hJ j)
    (hshared.flight j hflight).1 hflight
  have hnot : (S.session j).server.starting → Action.deliver = .server .go →
      ∀ k, k ≠ j → ¬ (S.session k).live (cfg k) := fun _ hgo => Action.noConfusion hgo
  rcases hcases with ⟨i, hholder, S₁, rfl, rfl⟩ | ⟨hfree, hdrops, rfl⟩
  · have hi := (h.listening hJ i).mp hholder
    have hlivei := live_of_port (h.session hJ i) (usesPort_of_listening hi)
    obtain rfl := h.alone i j hlivei hlive
    have hbound := (h.holder i).mp hholder
    have hjoint : Joint.step J (cfg i) (S.envs env i) (S.session i) .deliver =
        some { S.session i with
          inFlight := (S.session i).inFlight - 1
          serverQueue := (S.session i).serverQueue + 1 } := by
      simp only [Joint.step, Joint.deliverStep, if_neg hflight, if_pos hbound]
    have hqueue : ∀ o ∈ S.queue ++ [i], S.holder = some o := by
      intro o ho
      rcases List.mem_append.mp ho with ho | ho
      · exact h.queue o ho
      · rw [List.mem_singleton.mp ho]
        exact hholder
    rw [Sessions.set_self, Sessions.set_set]
    exact h.moved hJ hjoint (fun _ => hnot) (h.listening hJ i) (fun k _ => Iff.rfl) hqueue h.taken
  · have hbound : ¬ (S.session j).serverBound = true := by
      rw [← h.holder j, hfree]
      exact (Option.some_ne_none j).symm
    have hjoint : Joint.step J (cfg j) (S.envs env j) (S.session j) .deliver =
        some { S.session j with inFlight := (S.session j).inFlight - 1 } := by
      simp only [Joint.step, Joint.deliverStep, if_neg hflight, if_neg hbound]
      exact if_pos hdrops
    exact h.moved hJ hjoint (fun _ => hnot) (h.listening hJ j) (fun k _ => Iff.rfl) h.queue h.taken

theorem Separate.step (hJ : ∀ i, Honest J (cfg i) (env i)) (h : Separate J cfg env S)
    (hshared : Shared J cfg env S) {a : SessionsAction ι} (hok : OneByOne cfg S a)
    (hs : S.step J cfg env a = some S') : Separate J cfg env S' := by
  cases a with
  | client i a =>
    obtain ⟨s, hclient, rfl⟩ := Option.map_eq_some_iff.mp hs
    have hsame := client_server (clientStep_rule (hJ i).setup hclient)
    refine h.moved hJ (b := .client a) hclient (fun _ _ hgo => Action.noConfusion hgo) ?_
      (fun j _ => Iff.rfl) h.queue h.taken
    rw [hsame.1]
    exact h.listening hJ i
  | server i a x =>
    obtain ⟨S₁, hhandler, rfl⟩ := Option.map_eq_some_iff.mp hs
    exact { h.handler hJ hok (serverStep_handler hhandler) with }
  | deliver j => exact h.deliver hJ hshared hs

end Separate

/-! ### A stranger's datagram -/

section Stranger

/-- Before the port is bound and the first datagram sent. -/
structure Calm (s : State) : Prop where
  quiet : ¬ s.server.listening
  running : s.server ≠ .finished
  silent : s.firstDatagram = none

section One

variable {J : SerdeJson} {cfg : Config} {env : Env} {s s' : State}

theorem client_datagrams {a : Act} (hrule : ClientRule J cfg s a s') :
    s'.firstDatagram = s.firstDatagram ∧ s'.inFlight = s.inFlight ∨ s'.firstDatagram ≠ none := by
  cases hrule with
  | datagram hpc hs => exact .inr (by cases hfirst : s.firstDatagram <;> simp [State.sendDatagram])
  | init hpc => exact .inr (by cases hfirst : s.firstDatagram <;> simp [State.sendDatagram])
  | @readAck got k p r hpc hr =>
    unfold State.onAck
    split <;> exact .inl ⟨rfl, rfl⟩
  | @readStart got k p r hpc hr =>
    unfold State.onStart
    split <;> exact .inl ⟨rfl, rfl⟩
  | @readResult got k p r hpc hr => cases r <;> exact .inl ⟨rfl, rfl⟩
  | @readDone got k p r hpc hr => cases r <;> exact .inl ⟨rfl, rfl⟩
  | _ => exact .inl ⟨rfl, rfl⟩

theorem server_datagrams {a : Act} (hrule : ServerRule J env s a s') :
    s'.firstDatagram = s.firstDatagram := by
  cases hrule with
  | @readSetup got k p r hpc hr =>
    unfold State.onSetup
    split
    · rfl
    · split <;> rfl
  | _ => rfl

theorem silent_flight (hJ : Honest J cfg env) (h : Reachable J cfg env s) :
    s.firstDatagram = none → s.inFlight = 0 := by
  apply h.invariant (I := fun s => s.firstDatagram = none → s.inFlight = 0)
  · exact fun _ => rfl
  intro s a s' hinv _ hs hnone
  cases a with
  | client a =>
    rcases client_datagrams (clientStep_rule hJ.setup hs) with ⟨hfirst, hflight⟩ | hsome
    · rw [hflight]
      exact hinv (hfirst.symm.trans hnone)
    · exact absurd hnone hsome
  | server a =>
    have hrule := serverStep_rule hJ.ack hJ.start hs
    rw [flight_server hrule]
    exact hinv ((server_datagrams hrule).symm.trans hnone)
  | deliver =>
    obtain ⟨hflight, hcases⟩ := deliverStep_cases hs
    rcases hcases with rfl | ⟨-, rfl⟩
    · exact absurd (hinv hnone) hflight
    · exact absurd (hinv hnone) hflight

theorem calm_server (hJ : Honest J cfg env) {a : Act} (hs : serverStep J env s a = some s')
    (h : Calm s') : Calm s ∧ ¬ s.server.usesPort := by
  have hrule := serverStep_rule hJ.ack hJ.start hs
  have hsilent := (server_datagrams hrule).symm.trans h.silent
  have hport : ¬ s.server.usesPort := by
    cases hrule with
    | @bind t hpc => exact absurd (serverUdpDispatch_listening t) h.quiet
    | first hpc hq => exact absurd trivial h.quiet
    | datagram hpc =>
      exact absurd (show s.server.listening by rw [hpc]; trivial) h.quiet
    | leaveUdp hpc => exact absurd rfl h.running
    | received hpc =>
      exact absurd (show s.server.listening by rw [hpc]; trivial) h.quiet
    | leaveTcp hpc => rcases hpc with hpc | hpc <;> rw [hpc] <;> exact id
    | readSetup hpc hr => rw [hpc]; exact id
    | ack hpc => rw [hpc]; exact id
    | start hpc => rw [hpc]; exact id
    | tcpSent hpc => rw [hpc]; exact id
    | tcpReceived hpc hk => rw [hpc]; exact id
    | result hpc hst => rw [hpc]; exact id
    | noResult hpc hst => rw [hpc]; exact id
    | done hpc => exact absurd rfl h.running
    | resultFails hpc hst hfail => exact absurd rfl h.running
    | doneFails hpc hfail => exact absurd rfl h.running
  refine ⟨⟨fun hlisten => hport (usesPort_of_listening hlisten), ?_, hsilent⟩, hport⟩
  intro hfinished
  cases a <;> simp only [serverStep, hfinished, reduceCtorEq] at hs

theorem calm_step (hJ : Honest J cfg env) (hreach : Reachable J cfg env s) {a : Action}
    (hs : step J cfg env s a = some s') (h : Calm s') :
    Calm s ∧ ∀ b, a = .server b → ¬ s.server.usesPort := by
  cases a with
  | client a =>
    have hrule := clientStep_rule hJ.setup hs
    obtain ⟨hserver, -⟩ := client_server hrule
    refine ⟨⟨?_, ?_, ?_⟩, fun b hb => Action.noConfusion hb⟩
    · rw [← hserver]
      exact h.quiet
    · rw [← hserver]
      exact h.running
    · rcases client_datagrams hrule with ⟨hfirst, -⟩ | hsome
      · exact hfirst.symm.trans h.silent
      · exact absurd h.silent hsome
  | server a =>
    obtain ⟨hcalm, hport⟩ := calm_server hJ hs h
    exact ⟨hcalm, fun _ _ => hport⟩
  | deliver =>
    obtain ⟨hflight, hcases⟩ := deliverStep_cases hs
    have hsilent : s.firstDatagram = none := by
      rcases hcases with rfl | ⟨-, rfl⟩
      · exact h.silent
      · exact h.silent
    exact absurd (silent_flight hJ hreach hsilent) hflight

/-- A UDP test has no `Result`. -/
theorem Session.udp_quiet (h : Session J cfg env s) (hudp : cfg.protocol = .udp) (b : Action) :
    ¬ Reports s b := by
  intro hreport
  have hfits := h.serverFits
  rw [hreport.1] at hfits
  exact TestProtocol.noConfusion (hudp.symm.trans hfits)

theorem udp_withStats {stats : Option ResultStats} (hJ : Honest J cfg env)
    (hudp : cfg.protocol = .udp) (h : Reachable J cfg (env.withStats stats) s) :
    Reachable J cfg env s := by
  induction h with
  | start => exact .start
  | @next s b s' hbefore _ hs ih =>
    rw [step_stats ((session_reachable hJ ih).udp_quiet hudp b)] at hs
    exact ih.snoc hs

end One

variable {ι : Type} [DecidableEq ι] {J : SerdeJson} {cfg : ι → Config} {env : ι → Env}
  {S : Sessions ι} {i j : ι} {s : State}

/-- Up to its bind a session gets among the others where it gets by itself. -/
theorem lift_calm (hJ : Honest J (cfg i) (env i)) (hudp : (cfg i).protocol = .udp)
    (h : Reachable J (cfg i) (env i) s) (hcalm : Calm s) (hinit : S.session i = State.init) :
    ∃ steps, Lts.Reachable (Sessions.step J cfg env) S ((S.set i s).record i steps) := by
  induction h with
  | start =>
    refine ⟨[], ?_⟩
    rw [← hinit, Sessions.set_same, Sessions.record_nil]
    exact .start
  | @next s₁ b s₂ hreach _ hs ih =>
    obtain ⟨hbefore, hport⟩ := calm_step hJ hreach hs hcalm
    obtain ⟨steps, hrun⟩ := ih hbefore
    have hquiet := (session_reachable hJ hreach).udp_quiet hudp b
    have hsession : ((S.set i s₁).record i steps).session i = s₁ := Sessions.set_self
    rw [← step_stats hquiet (figuresOf ((S.set i s₁).record i steps).log), ← hsession] at hs
    obtain ⟨a, more, ha⟩ := lift_step (by rw [hsession]; exact hport)
      (by rw [hsession]; exact silent_flight hJ hreach hbefore.silent) hs
    rw [Sessions.set_record, Sessions.set_set, Sessions.record_record] at ha
    exact ⟨_, hrun.snoc ha⟩

def State.atBind (J : SerdeJson) (cfg : Config) (env : Env) : State :=
  { State.handshaken J cfg env with
    client := udpDispatch cfg
    server := .bindUdp cfg.serverTest }

variable (cfg env) in
theorem lift_bind (hJ : Honest J (cfg i) (env i)) (hudp : (cfg i).protocol = .udp)
    (hinit : S.session i = State.init) :
    ∃ steps, Lts.Reachable (Sessions.step J cfg env) S
      ((S.set i (State.atBind J (cfg i) (env i))).record i steps) := by
  have hcalm : Calm (State.atBind J (cfg i) (env i)) := ⟨id, ServerPc.noConfusion, rfl⟩
  exact lift_calm hJ hudp (bindUdp_reachable hJ hudp) hcalm hinit

variable (J cfg env) in
theorem step_binds {t : ServerTest} (hpc : (S.session i).server = .bindUdp t)
    (hfree : S.holder = none) (x : HandlerInput) :
    S.step J cfg env (.server i .go x) =
      some { S.set i { S.session i with server := serverUdpDispatch t, serverBound := true } with
        holder := some i } := by
  simp only [Sessions.step, Sessions.serverStep, hpc, hfree, serverStep, handlerSteps,
    Option.map_some, Sessions.record_nil]

variable (J cfg env) in
theorem step_sends (hsends : Sends (cfg j)) (hpc : (S.session j).client = udpDispatch (cfg j)) :
    ∃ a s, S.step J cfg env (.client j a) = some (S.set j s) ∧ s.inFlight ≠ 0 := by
  rcases hsends.2 with hd | ⟨hd, hsendable⟩
  · rw [hd] at hpc
    refine ⟨.go, { (S.session j).sendDatagram with client := .udpReceive }, ?_, ?_⟩
    · simp only [Sessions.step, Sessions.clientStep, clientStep, hpc]
      rfl
    · exact Nat.succ_ne_zero _
  · rw [hd] at hpc
    refine ⟨.transfer 0, (S.session j).sendDatagram, ?_, ?_⟩
    · simp only [Sessions.step, Sessions.clientStep, clientStep, hpc, if_pos hsendable]
      rfl
    · exact Nat.succ_ne_zero _

variable (J cfg env) in
theorem step_takes {o : ι} {rest : List ι} (htakes : Takes (cfg i) (env i))
    (hpc : (S.session i).server = serverUdpDispatch (cfg i).serverTest)
    (hqueue : S.queue = o :: rest) (hwaits : 0 < (S.session i).serverQueue) (x : HandlerInput) :
    ∃ S', S.step J cfg env (.server i (.transfer 0) x) = some S' ∧ o ∈ S'.taken i := by
  have hmem : o ∈ Function.update S.taken i (S.taken i ++ [o]) i := by
    rw [Function.update_self]
    exact List.mem_append_right _ (List.mem_singleton_self o)
  have hstep : ∃ S₁, S.serverStep J (S.envs env) i (.transfer 0) = some S₁ ∧ o ∈ S₁.taken i := by
    rcases serverUdpDispatch_cases (cfg i).serverTest with hd | hd
    · rw [hd] at hpc
      refine ⟨{ S.set i { S.session i with
          serverQueue := (S.session i).serverQueue - 1
          server := .udpSend (cfg i).serverTest } with
        queue := rest, taken := Function.update S.taken i (S.taken i ++ [o]) }, ?_, hmem⟩
      simp only [Sessions.serverStep, hpc, hqueue, serverStep, if_pos hwaits]
      rfl
    · have hloop : receiveLoopEntered (S.envs env i) (cfg i).serverTest :=
        htakes.2.resolve_left fun hfirst => ServerPc.noConfusion (hfirst.symm.trans hd)
      rw [hd] at hpc
      refine ⟨{ S.set i { S.session i with
          serverQueue := (S.session i).serverQueue - 1
          serverReads := (S.session i).serverReads + 1 } with
        queue := rest, taken := Function.update S.taken i (S.taken i ++ [o]) }, ?_, hmem⟩
      simp only [Sessions.serverStep, hpc, hqueue, serverStep, if_pos (And.intro hloop hwaits)]
      rfl
  obtain ⟨S₁, hS₁, hmem₁⟩ := hstep
  exact ⟨_, (congrArg (Option.map _) hS₁).trans rfl, hmem₁⟩

variable (J cfg env) in
theorem step_delivers (hij : i ≠ j) (hflight : (S.session j).inFlight ≠ 0)
    (hholder : S.holder = some i) :
    ∃ S', S.step J cfg env (.deliver j) = some S' ∧
      (S'.session i).server = (S.session i).server ∧ 0 < (S'.session i).serverQueue ∧
      S'.queue = S.queue ++ [j] := by
  simp only [Sessions.step, Sessions.deliverStep, if_neg hflight, hholder]
  refine ⟨_, rfl, ?_, ?_, rfl⟩
  · simp only [Sessions.set_self, Sessions.set_ne hij]
  · simp only [Sessions.set_self]
    exact Nat.succ_pos _

/-- The handler of `i` has the port, and client `j` is about to send. -/
theorem beside_reachable (hJ : ∀ i, Honest J (cfg i) (env i)) (hij : i ≠ j)
    (hi : (cfg i).protocol = .udp) (hj : (cfg j).protocol = .udp) :
    ∃ S, Lts.Reachable (Sessions.step J cfg env) Sessions.init S ∧ S.holder = some i ∧
      S.queue = [] ∧ (S.session i).server = serverUdpDispatch (cfg i).serverTest ∧
      (S.session j).client = udpDispatch (cfg j) := by
  obtain ⟨steps, hfirst⟩ := lift_bind cfg env (hJ i) hi
    (rfl : (Sessions.init : Sessions ι).session i = State.init)
  obtain ⟨more, hsecond⟩ := lift_bind cfg env
    (S := (Sessions.init.set i (.atBind J (cfg i) (env i))).record i steps) (hJ j) hj
    (Sessions.set_ne hij.symm)
  have hpc : (((((Sessions.init.set i (.atBind J (cfg i) (env i))).record i steps).set j
      (.atBind J (cfg j) (env j))).record j more).session i).server =
      .bindUdp (cfg i).serverTest := by
    rw [Sessions.record_session, Sessions.set_ne hij, Sessions.record_session, Sessions.set_self]
    rfl
  have hbinds := step_binds J cfg env hpc rfl ⟨[], 0, 0⟩
  refine ⟨_, (hfirst.trans hsecond).snoc hbinds, rfl, rfl, ?_, ?_⟩
  · simp only [Sessions.set_self]
  · exact congrArg State.client ((Sessions.set_ne hij.symm).trans Sessions.set_self)

theorem stranger_taken (hJ : ∀ i, Honest J (cfg i) (env i)) (hij : i ≠ j)
    (htakes : Takes (cfg i) (env i)) (hsends : Sends (cfg j)) :
    ∃ S, Lts.Reachable (Sessions.step J cfg env) Sessions.init S ∧ j ∈ S.taken i := by
  obtain ⟨S, hreach, hholder, hqueue, hserver, hclient⟩ := beside_reachable hJ hij htakes.1 hsends.1
  obtain ⟨a, s, hsend, hflight⟩ := step_sends J cfg env hsends hclient
  rw [← Sessions.set_self (S := S) (i := j) (s := s)] at hflight
  obtain ⟨S₁, hdeliver, hserver₁, hwaits, hqueue₁⟩ := step_delivers J cfg env hij hflight hholder
  have hpc : (S₁.session i).server = serverUdpDispatch (cfg i).serverTest := by
    rw [hserver₁, Sessions.set_ne hij, hserver]
  have hfirst : S₁.queue = j :: [] := hqueue₁.trans (congrArg (· ++ [j]) hqueue)
  obtain ⟨S₂, htake, hmem⟩ := step_takes J cfg env htakes hpc hfirst hwaits ⟨[], 0, 0⟩
  exact ⟨S₂, ((hreach.snoc hsend).snoc hdeliver).snoc htake, hmem⟩

end Stranger

/-! ### With and without others -/

/-- When a UDP test starts only after the end of the one before and the arrival of its last
datagram, every session is one that it could have had with a server of its own, but for what the
`Result` of a TCP test says, and no handler takes a datagram of another client. -/
theorem udpSessions_alone {ι : Type} [DecidableEq ι] {J : SerdeJson} {cfg : ι → Config}
    {env : ι → Env} (hJ : ∀ i, Honest J (cfg i) (env i)) (S : Sessions ι)
    (h : Lts.Reach (Sessions.step J cfg env) (OneByOne cfg) Sessions.init S) (i : ι) :
    (∃ stats, Reachable J (cfg i) ((env i).withStats stats) (S.session i)) ∧
      ((cfg i).protocol = .udp → Reachable J (cfg i) (env i) (S.session i)) ∧
      ∀ o ∈ S.taken i, o = i := by
  have hboth : Shared J cfg env S ∧ Separate J cfg env S := by
    apply h.invariant (I := fun S => Shared J cfg env S ∧ Separate J cfg env S)
    · exact ⟨shared_init J cfg env, separate_init J cfg env⟩
    · intro S a S' hinv hok hs
      exact ⟨hinv.1.step hJ hs, hinv.2.step hJ hinv.1 hok hs⟩
  obtain ⟨stats, halone⟩ := hboth.2.own i
  exact ⟨⟨stats, halone.reach⟩, fun hudp => udp_withStats (hJ i) hudp halone.reach,
    hboth.2.taken i⟩

def oneByOneTests : List (SessionsAction Bool) :=
  handshakeOf (.ofTable sessionTexts) (fun _ => udpTest) false ++
    [.client false .go, .server false .go takenDatagram, .client false (.transfer 0),
      .deliver false, .server false (.transfer 0) takenDatagram, .client false .leave,
      .server false .leave takenDatagram] ++
    handshakeOf (.ofTable sessionTexts) (fun _ => udpTest) true ++
    [.client true .go, .server true .go takenDatagram, .client true (.transfer 0),
      .deliver true, .server true (.transfer 0) takenDatagram]

theorem udpSessions_alone_second :
    ∃ S : Sessions Bool, (S.session false).Finished ∧ S.taken false = [false] ∧
      S.taken true = [true] ∧
      Reachable (.ofTable sessionTexts) udpTest localEnv (S.session true) ∧
      ∀ o ∈ S.taken true, o = true := by
  have hrun : (Lts.run (Sessions.step (.ofTable sessionTexts) (fun _ => udpTest) fun _ => localEnv)
      (OneByOne fun _ => udpTest) Sessions.init oneByOneTests).any
      (fun S => ((S.session false).client = .finished ∧ (S.session false).server = .finished) ∧
        S.taken false = [false] ∧ S.taken true = [true]) = true := by
    decide +kernel
  obtain ⟨S, hs, hend⟩ := (Option.any_eq_true _ _).mp hrun
  obtain ⟨hfinished, hfirst, hsecond⟩ := of_decide_eq_true hend
  obtain ⟨-, hudp, htaken⟩ :=
    udpSessions_alone (fun _ => udpTest_honest) S (Lts.Reach.start.run hs) true
  exact ⟨S, hfinished, hfirst, hsecond, hudp rfl, htaken⟩

/-- In every interleaving the handlers take only their own clients' datagrams exactly when there is
no client that sends datagrams beside a UDP test of another one whose handler receives. -/
theorem datagrams_isolated_iff {ι : Type} [DecidableEq ι] {J : SerdeJson} {cfg : ι → Config}
    {env : ι → Env} (hJ : ∀ i, Honest J (cfg i) (env i)) :
    (∀ S, Lts.Reachable (Sessions.step J cfg env) Sessions.init S →
      ∀ i, ∀ o ∈ S.taken i, o = i) ↔
      ∀ i j, Takes (cfg i) (env i) → Sends (cfg j) → j = i := by
  constructor
  · intro hisolated i j htakes hsends
    by_contra hij
    obtain ⟨S, hreach, hmem⟩ := stranger_taken hJ (Ne.symm hij) htakes hsends
    exact hij (hisolated S hreach i j hmem)
  · intro hapart S hreach i o ho
    obtain ⟨hsends, htakes⟩ := (shared_reachable hJ hreach).taken i o ho
    exact hapart i o htakes hsends

theorem datagrams_isolated_iff_two :
    ¬ ∀ S, Lts.Reachable
      (Sessions.step (.ofTable sessionTexts) (fun _ : Bool => udpTest) fun _ => localEnv)
      Sessions.init S → ∀ i, ∀ o ∈ S.taken i, o = i := by
  intro hisolated
  have hsame : true = false :=
    (datagrams_isolated_iff fun _ => udpTest_honest).mp hisolated false true
      ⟨rfl, by decide⟩ ⟨rfl, by decide⟩
  exact Bool.noConfusion hsame

end Rperf3.Joint
