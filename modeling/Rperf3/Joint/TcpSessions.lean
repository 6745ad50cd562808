import Rperf3.Joint.Sessions

/-!
# TCP tests of several clients

The handlers of TCP tests meet in the collector only, and a handler reads it once,
for its `Result` (`server.rs:757-771`). So the session of a TCP test is one that it
could have had with a server of its own, but for the numbers of the `Result`, and
these are those of all that the handlers have recorded by then.
-/

namespace Rperf3.Joint
open Rperf3 SharedRun

/-! ### One session and the collector's figures -/

/-- The step in which a handler reads the collector for its `Result`. -/
def Reports (s : State) (b : Action) : Prop := s.server = .writeResult ∧ b = .server .go

def ServerPc.unreported : ServerPc → Prop
  | .writeDone | .finished => False
  | _ => True

section One

variable {J : SerdeJson} {cfg : Config} {env : Env} {s s' : State}

/-- Only the `Result` depends on the figures. -/
theorem step_stats {b : Action} (h : ¬ Reports s b) (stats : Option ResultStats) :
    step J cfg (env.withStats stats) s b = step J cfg env s b := by
  cases b with
  | client a => rfl
  | deliver => rfl
  | server a =>
    show serverStep J (env.withStats stats) s a = serverStep J env s a
    unfold serverStep
    cases hpc : s.server with
    | writeResult =>
      cases a with
      | go => exact absurd ⟨hpc, rfl⟩ h
      | _ => rfl
    | _ => cases a <;> rfl

/-- After its `Result` a handler writes `Done` and ends. -/
theorem reported_step (hJ : Honest J cfg env) (h : ¬ s.server.unreported) {b : Action}
    (hs : step J cfg env s b = some s') : ¬ s'.server.unreported ∧ s'.moved = s.moved := by
  cases b with
  | client a =>
    have hrule := clientStep_rule hJ.setup hs
    rw [(client_server hrule).1]
    exact ⟨h, client_moved hrule⟩
  | server a =>
    have hrule := serverStep_rule hJ.ack hJ.start hs
    cases hrule with
    | done hpc => exact ⟨id, rfl⟩
    | doneFails hpc hfail => exact ⟨id, rfl⟩
    | leaveUdp hpc => exact ⟨id, rfl⟩
    | readSetup hpc hr => exact absurd (by rw [hpc]; trivial) h
    | ack hpc => exact absurd (by rw [hpc]; trivial) h
    | start hpc => exact absurd (by rw [hpc]; trivial) h
    | bind hpc => exact absurd (by rw [hpc]; trivial) h
    | first hpc hq => exact absurd (by rw [hpc]; trivial) h
    | datagram hpc => exact absurd (by rw [hpc]; trivial) h
    | received hpc => exact absurd (by rw [hpc]; trivial) h
    | tcpSent hpc => exact absurd (by rw [hpc]; trivial) h
    | tcpReceived hpc hk => exact absurd (by rw [hpc]; trivial) h
    | leaveTcp hpc => rcases hpc with hpc | hpc <;> exact absurd (by rw [hpc]; trivial) h
    | result hpc hst => exact absurd (by rw [hpc]; trivial) h
    | noResult hpc hst => exact absurd (by rw [hpc]; trivial) h
    | resultFails hpc hst hfail => exact absurd (by rw [hpc]; trivial) h
  | deliver =>
    rcases (deliverStep_cases hs).2 with rfl | ⟨-, rfl⟩
    · exact ⟨h, rfl⟩
    · exact ⟨h, rfl⟩

/-- The session is one with a server of its own whose collector has the figures `stats` when the
`Result` is due; before that they are open. -/
structure AsAlone (J : SerdeJson) (cfg : Config) (env : Env) (stats : Option ResultStats)
    (s : State) : Prop where
  reach : Reachable J cfg (env.withStats stats) s
  unreported : s.server.unreported → ∀ st, Reachable J cfg (env.withStats st) s
  unmoved : stats = none → ¬ s.server.unreported ∧ s.moved = 0

theorem asAlone_init (J : SerdeJson) (cfg : Config) (env : Env) (stats : ResultStats) :
    AsAlone J cfg env (some stats) State.init where
  reach := .start
  unreported _ _ := .start
  unmoved h := nomatch h

theorem AsAlone.quiet {stats : Option ResultStats} (hJ : Honest J cfg env)
    (h : AsAlone J cfg env stats s) {b : Action} (hquiet : ¬ Reports s b)
    (hs : step J cfg env s b = some s') : AsAlone J cfg env stats s' := by
  have hany : ∀ st, step J cfg (env.withStats st) s b = some s' := fun st =>
    (step_stats hquiet st).trans hs
  refine ⟨h.reach.snoc (hany stats), fun hpc st => ?_, fun hnone => ?_⟩
  · have hbefore : s.server.unreported := by
      by_contra hreported
      exact (reported_step hJ hreported hs).1 hpc
    exact (h.unreported hbefore st).snoc (hany st)
  · obtain ⟨hreported, hmoved⟩ := h.unmoved hnone
    obtain ⟨hreported', hsame⟩ := reported_step hJ hreported hs
    exact ⟨hreported', hsame.trans hmoved⟩

theorem result_step {shown : Option ResultStats} {b : Action} (hreport : Reports s b)
    (hs : step J cfg (env.withStats shown) s b = some s') :
    ¬ s'.server.unreported ∧ (shown = none → s'.moved = 0) := by
  obtain ⟨hpc, rfl⟩ := hreport
  have hs' : serverStep J (env.withStats shown) s .go = some s' := hs
  simp only [serverStep, hpc] at hs'
  cases shown with
  | some st =>
    simp only [Env.withStats] at hs'
    cases hs'
    refine ⟨?_, fun hnone => absurd hnone (Option.some_ne_none st)⟩
    rcases serverWrite_cases J s st.message fun s =>
      { s with server := .writeDone, frames := s.frames ++ [st.message] } with hw | ⟨hw, -⟩
    · rw [hw]
      exact id
    · rw [hw]
      exact id
  | none =>
    simp only [Env.withStats] at hs'
    obtain ⟨hmoved, hs'⟩ := Option.ite_none_right_eq_some.mp hs'
    cases hs'
    exact ⟨id, fun _ => hmoved⟩

theorem AsAlone.result {stats shown : Option ResultStats} (h : AsAlone J cfg env stats s)
    {b : Action} (hreport : Reports s b)
    (hs : step J cfg (env.withStats shown) s b = some s') : AsAlone J cfg env shown s' := by
  have hopen : s.server.unreported := by
    rw [hreport.1]
    trivial
  obtain ⟨hreported, hunmoved⟩ := result_step hreport hs
  exact ⟨(h.unreported hopen shown).snoc hs, fun hpc => absurd hpc hreported,
    fun hnone => ⟨hreported, hunmoved hnone⟩⟩

/-- Whatever the figures shown in a step, the session stays one with a server of its own. -/
theorem AsAlone.goOn {stats shown : Option ResultStats} (hJ : Honest J cfg env)
    (h : AsAlone J cfg env stats s) {b : Action}
    (hs : step J cfg (env.withStats shown) s b = some s') :
    ∃ stats', AsAlone J cfg env stats' s' := by
  by_cases hreport : Reports s b
  · exact ⟨shown, h.result hreport hs⟩
  · rw [step_stats hreport] at hs
    exact ⟨stats, h.quiet hJ hreport hs⟩

/-- The session under any figures that it can still be shown. -/
theorem AsAlone.shown {stats : Option ResultStats} (h : AsAlone J cfg env stats s)
    (shown : Option ResultStats) (hagrees : s.agrees (env.withStats shown)) :
    ∃ st, Reachable J cfg (env.withStats st) s ∧ s.agrees (env.withStats st) ∧
      ∀ b, step J cfg (env.withStats shown) s b = step J cfg (env.withStats st) s b := by
  by_cases hopen : s.server.unreported
  · exact ⟨shown, h.unreported hopen shown, hagrees, fun _ => rfl⟩
  · refine ⟨stats, h.reach, fun hnone => (h.unmoved hnone).2, fun b => ?_⟩
    have hquiet : ¬ Reports s b := fun hreport => hopen (by rw [hreport.1]; trivial)
    exact (step_stats hquiet shown).trans (step_stats hquiet stats).symm

end One

/-! ### The log -/

section Log

variable {ι : Type} {J : SerdeJson} {cfg : ι → Config} {env : ι → Env} {S S' : Sessions ι} {i : ι}
  {s s' : State}

theorem recordsOf_onStreamZero {α : Type} {body : LoopBody α} (h : body.OnStreamZero) (a : α) :
    ∀ step ∈ recordsOf body a, step.OnStreamZero := by
  intro step hstep
  unfold recordsOf at hstep
  cases hout : body.onIo a with
  | none => simp only [hout, List.not_mem_nil] at hstep
  | some out =>
    simp only [hout, List.mem_map] at hstep
    obtain ⟨x, hx, rfl⟩ := hstep
    exact h.1 a out hout x hx

theorem sendResult_not_recorded {α : Type} (body : LoopBody α) (a : α) :
    .sendResult ∉ recordsOf body a := by
  unfold recordsOf
  cases body.onIo a with
  | none => exact List.not_mem_nil
  | some out => simp only [List.mem_map, reduceCtorEq, and_false, exists_false, not_false_eq_true]

theorem handlerSteps_onStreamZero (x : HandlerInput) (pc : ServerPc) (a : Act) :
    ∀ step ∈ handlerSteps x pc a, step.OnStreamZero := by
  have hone : ∀ y : HandlerStep, y.OnStreamZero → ∀ step ∈ [y], step.OnStreamZero := by
    intro y hy step hstep
    exact List.mem_singleton.mp hstep ▸ hy
  have hnone : ∀ step ∈ ([] : List HandlerStep), step.OnStreamZero :=
    fun _ hstep => absurd hstep List.not_mem_nil
  fun_cases handlerSteps x pc a
  case case1 => exact hone _ rfl
  case case2 => exact hone _ rfl
  case case3 t k =>
    intro step hstep
    rcases List.mem_pair.mp hstep with rfl | rfl <;> rfl
  case case4 => exact hnone
  case case5 => exact recordsOf_onStreamZero receiveUdpData_onStreamZero _
  case case9 => exact hnone
  case case12 => exact hnone
  all_goals
    refine hone _ ?_
    trivial

theorem sendResult_mem {x : HandlerInput} {pc : ServerPc} {a : Act} :
    .sendResult ∈ handlerSteps x pc a ↔ pc = .writeResult ∧ a = .go := by
  constructor
  · have hcall : ∀ {y : CollectorCall} {P : Prop}, .sendResult ∈ [HandlerStep.call y] → P :=
      fun h => nomatch List.mem_singleton.mp h
    fun_cases handlerSteps x pc a
    case case3 t k => exact fun h => (List.mem_pair.mp h).elim (nomatch ·) (nomatch ·)
    case case4 => exact fun h => absurd h List.not_mem_nil
    case case5 => exact fun h => absurd h (sendResult_not_recorded _ _)
    case case9 => exact fun h => absurd h List.not_mem_nil
    case case11 => exact fun _ => ⟨rfl, rfl⟩
    case case12 => exact fun h => absurd h List.not_mem_nil
    all_goals exact hcall
  · rintro ⟨rfl, rfl⟩
    exact List.mem_singleton_self _

/-- What moves on a TCP connection is recorded. -/
theorem moved_server {J : SerdeJson} {env : Env} {a : Act} (hrule : ServerRule J env s a s')
    (x : HandlerInput) :
    s'.moved = s.moved ∨ ∃ step ∈ handlerSteps x s.server a, step.seenBy .result := by
  cases hrule with
  | @readSetup got k p r hpc hr => exact .inl (onSetup_moved p r)
  | tcpSent hpc =>
    rw [hpc]
    exact .inr ⟨_, List.mem_singleton_self _, rfl⟩
  | tcpReceived hpc hk =>
    rw [hpc]
    exact .inr ⟨_, List.mem_singleton_self _, rfl⟩
  | _ => exact .inl rfl

variable [DecidableEq ι]

theorem moved_handler (hJ : ∀ i, Honest J (cfg i) (env i)) {a : Act}
    (hrule : HandlerRule J env S i a S') (x : HandlerInput) (j : ι) :
    (S'.session j).moved = (S.session j).moved ∨
      ∃ step ∈ handlerSteps x (S.session i).server a, step.seenBy .result := by
  have hset : ∀ (k : ι) (s : State), s.moved = (S.session k).moved →
      ((S.set k s).session j).moved = (S.session j).moved := by
    intro k s hmoved
    by_cases hj : j = k
    · subst hj
      rw [Sessions.set_self, hmoved]
    · rw [Sessions.set_ne hj]
  have hown : ∀ (a : Act) (s : State), serverStep J (env i) (S.session i) a = some s →
      ((S.set i s).session j).moved = (S.session j).moved ∨
        ∃ step ∈ handlerSteps x (S.session i).server a, step.seenBy .result := by
    intro a s hs
    rcases moved_server (serverStep_rule (hJ i).ack (hJ i).start hs) x with hmoved | hseen
    · exact .inl (hset i s hmoved)
    · exact .inr hseen
  cases hrule with
  | own hport hs => exact hown _ _ hs
  | bind hpc hfree hs => exact hown _ _ hs
  | refused hpc hholder => exact .inl (hset i _ rfl)
  | take hpc hqueue hs => exact hown _ _ hs
  | @send t k peer hpc hpeer hduration => exact .inl (hset peer _ rfl)
  | leave hpc hs => exact hown _ _ hs

theorem HandlerRule.log {a : Act} (hrule : HandlerRule J env S i a S') : S'.log = S.log := by
  cases hrule <;> rfl

theorem deliver_log {j : ι} (hs : S.deliverStep env j = some S') :
    S'.log = S.log ∧ ∀ k, (S'.session k).moved = (S.session k).moved := by
  have hset : ∀ (S : Sessions ι) (i : ι) (s : State), s.moved = (S.session i).moved →
      ∀ k, ((S.set i s).session k).moved = (S.session k).moved := fun S i s hmoved =>
    Sessions.forall_set (P := fun k s => s.moved = (S.session k).moved) (fun _ => rfl) hmoved
  obtain ⟨-, ⟨i, -, S₁, hS₁, rfl⟩ | ⟨-, -, rfl⟩⟩ := deliverStep_sessions hs
  · have hfirst : S₁.log = S.log ∧ ∀ k, (S₁.session k).moved = (S.session k).moved := by
      rw [hS₁]
      exact ⟨rfl, hset S j _ rfl⟩
    exact ⟨hfirst.1, fun k => (hset S₁ i
      { S₁.session i with serverQueue := (S₁.session i).serverQueue + 1 } rfl k).trans
        (hfirst.2 k)⟩
  · exact ⟨rfl, hset S j _ rfl⟩

/-- What the log is about: stream 0, and every transfer over TCP. -/
structure Ledger (S : Sessions ι) : Prop where
  zero : ∀ x ∈ S.log, x.2.OnStreamZero
  moved : ∀ i, (S.session i).moved ≠ 0 → ∃ x ∈ S.log, x.2.seenBy .result

omit [DecidableEq ι] in
theorem ledger_init : Ledger (Sessions.init : Sessions ι) where
  zero _ h := absurd h List.not_mem_nil
  moved _ h := absurd rfl h

theorem Ledger.step (hJ : ∀ i, Honest J (cfg i) (env i)) (h : Ledger S) {a : SessionsAction ι}
    (hs : S.step J cfg env a = some S') : Ledger S' := by
  cases a with
  | client i a =>
    obtain ⟨s, hclient, rfl⟩ := Option.map_eq_some_iff.mp hs
    refine ⟨h.zero, Sessions.forall_set (P := fun _ s => s.moved ≠ 0 → _) h.moved fun hmoved => ?_⟩
    rw [client_moved (clientStep_rule (hJ i).setup hclient)] at hmoved
    exact h.moved i hmoved
  | server i a x =>
    obtain ⟨S₁, hhandler, rfl⟩ := Option.map_eq_some_iff.mp hs
    have hrule := serverStep_handler hhandler
    have hlog : (S₁.record i (handlerSteps x (S.session i).server a)).log =
        S.log ++ (handlerSteps x (S.session i).server a).map (Prod.mk i) :=
      congrArg (· ++ _) hrule.log
    refine ⟨fun y hy => ?_, fun j hmoved => ?_⟩
    · rw [hlog] at hy
      rcases List.mem_append.mp hy with hy | hy
      · exact h.zero y hy
      · obtain ⟨step, hstep, rfl⟩ := List.mem_map.mp hy
        exact handlerSteps_onStreamZero x _ a step hstep
    · rw [hlog]
      rcases moved_handler (honest_envs hJ S) hrule x j with hsame | ⟨step, hstep, hseen⟩
      · obtain ⟨y, hy, hseen⟩ := h.moved j (fun hzero => hmoved (hsame.trans hzero))
        exact ⟨y, List.mem_append_left _ hy, hseen⟩
      · exact ⟨(i, step), List.mem_append_right _ (List.mem_map_of_mem hstep), hseen⟩
  | deliver j =>
    obtain ⟨hlog, hmoved⟩ := deliver_log hs
    refine ⟨hlog ▸ h.zero, fun k hk => ?_⟩
    rw [hlog]
    exact h.moved k (hmoved k ▸ hk)

theorem ledger_reachable (hJ : ∀ i, Honest J (cfg i) (env i))
    (h : Lts.Reachable (Sessions.step J cfg env) Sessions.init S) : Ledger S :=
  h.invariant ledger_init fun _ _ _ hinv _ hs => hinv.step hJ hs

/-! ### What a `Result` says -/

def ResultStats.bytes (st : ResultStats) : ℕ × ℕ := (st.bytesSent, st.bytesReceived)

/-- The bytes of a `Result` are those that handler `i` has recorded and those of the others. -/
theorem figuresOf_bytes (i : ι) (log : List (ι × HandlerStep))
    (hzero : ∀ x ∈ log, x.2.OnStreamZero) :
    (figuresOf log).map ResultStats.bytes =
      if ∃ x ∈ log, x.2.seenBy .result then
        some ((bytesSentIn (own i log) + bytesSentIn (others i log)).toNat,
          (bytesReceivedIn (own i log) + bytesReceivedIn (others i log)).toNat) else none := by
  have hsteps : ∀ step ∈ log.map Prod.snd, step.OnStreamZero := by
    intro step hstep
    obtain ⟨x, hx, rfl⟩ := List.mem_map.mp hstep
    exact hzero x hx
  have hreport := Report.result.inj (reportResult_after _ hsteps)
  obtain ⟨hsent, hreceived⟩ := bytesIn_split i log
  rw [← resultStats_message, Option.bind_map] at hreport
  rw [figuresOf, Option.map_eq_bind, ← hsent, ← hreceived]
  simp only [exists_seen_iff] at hreport
  exact hreport

theorem Ledger.agrees (h : Ledger S) (i : ι) : (S.session i).agrees (S.envs env i) := by
  intro hnone
  by_contra hmoved
  have hbytes := figuresOf_bytes i S.log h.zero
  have hfigures : figuresOf S.log = none := hnone
  rw [if_pos (h.moved i hmoved), hfigures] at hbytes
  exact nomatch hbytes

end Log

/-! ### A TCP test has its connection for itself -/

theorem split_of_append {α : Type} {x : α} {xs ys pre post : List α} (hx : x ∉ ys)
    (h : xs ++ ys = pre ++ x :: post) : ∃ post', xs = pre ++ x :: post' := by
  rcases List.append_eq_append_iff.mp h with ⟨mid, -, hys⟩ | ⟨mid, hxs, hpost⟩
  · refine absurd ?_ hx
    rw [hys]
    exact List.mem_append_right mid List.mem_cons_self
  · cases mid with
    | nil =>
      refine absurd ?_ hx
      rw [← List.nil_append ys, ← hpost]
      exact List.mem_cons_self
    | cons y mid =>
      obtain ⟨rfl, -⟩ := List.cons.inj hpost
      exact ⟨mid, hxs⟩

section Tcp

variable {ι : Type} [DecidableEq ι] {J : SerdeJson} {cfg : ι → Config} {env : ι → Env}
  {S S' : Sessions ι} {i : ι} {s : State}

theorem Session.port_udp {cfg : Config} {env : Env} (h : Session J cfg env s)
    (hport : s.server.usesPort) : cfg.protocol = .udp := by
  have hfits := h.serverFits
  cases hpc : s.server <;> rw [hpc] at hfits hport
  case bindUdp t => exact hfits.2
  case udpWaitFirst t => exact hfits.2.1
  case udpSend t => exact hfits.2.1
  case udpReceive t => exact hfits.2.1
  all_goals exact hport.elim

theorem Session.tcp_port {cfg : Config} {env : Env} (h : Session J cfg env s)
    (htcp : cfg.protocol = .tcp) : ¬ s.server.usesPort :=
  fun hport => TestProtocol.noConfusion (htcp.symm.trans (h.port_udp hport))

omit [DecidableEq ι] in
theorem Shared.tcp_flight (h : Shared J cfg env S) (htcp : (cfg i).protocol = .tcp) :
    (S.session i).inFlight = 0 := by
  by_contra hflight
  exact TestProtocol.noConfusion (htcp.symm.trans (h.flight i hflight).1)

/-- A step as session `i` sees it: nothing of its own, one of its steps that says nothing of the
collector, or its `Result`. -/
inductive SeenFrom (J : SerdeJson) (cfg : ι → Config) (env : ι → Env) (S : Sessions ι) (i : ι)
    (S' : Sessions ι) : Prop
  | beside {more} (hsame : S'.session i = S.session i) (hlog : S'.log = S.log ++ more)
    (hmore : (i, .sendResult) ∉ more)
  | quiet {b more} (hquiet : ¬ Reports (S.session i) b)
    (hs : Joint.step J (cfg i) (S.envs env i) (S.session i) b = some (S'.session i))
    (hlog : S'.log = S.log ++ more) (hmore : (i, .sendResult) ∉ more)
  | result {b} (hreport : Reports (S.session i) b)
    (hs : Joint.step J (cfg i) (S.envs env i) (S.session i) b = some (S'.session i))
    (hlog : S'.log = S.log ++ [(i, .sendResult)])

theorem Shared.tcp_handler (h : Shared J cfg env S) (htcp : (cfg i).protocol = .tcp) {k : ι}
    {a : Act} (hrule : HandlerRule J (S.envs env) S k a S') (x : HandlerInput) :
    SeenFrom J cfg env S i (S'.record k (handlerSteps x (S.session k).server a)) := by
  have hlog : (S'.record k (handlerSteps x (S.session k).server a)).log =
      S.log ++ (handlerSteps x (S.session k).server a).map (Prod.mk k) :=
    congrArg (· ++ _) hrule.log
  by_cases hk : k = i
  · subst hk
    have hport := (h.session k).tcp_port htcp
    cases hrule with
    | @own a s hcalm hown =>
      have hs : Joint.step J (cfg k) (S.envs env k) (S.session k) (.server a) =
          some (((S.set k s).record k (handlerSteps x (S.session k).server a)).session k) := by
        rw [Sessions.record_session, Sessions.set_self]
        exact hown
      by_cases hreport : Reports (S.session k) (.server a)
      · obtain ⟨hpc, hgo⟩ := hreport
        obtain rfl := Action.server.inj hgo
        rw [hpc] at hlog hs ⊢
        exact .result ⟨hpc, rfl⟩ hs hlog
      · refine .quiet hreport hs hlog fun hmem => ?_
        obtain ⟨step, hstep, heq⟩ := List.mem_map.mp hmem
        obtain rfl := (Prod.mk.inj heq).2
        obtain ⟨hpc, rfl⟩ := sendResult_mem.mp hstep
        exact hreport ⟨hpc, rfl⟩
    | bind hpc => exact absurd (by rw [hpc]; trivial) hport
    | refused hpc => exact absurd (by rw [hpc]; trivial) hport
    | take hpc => rcases hpc with hpc | hpc <;> exact absurd (by rw [hpc]; trivial) hport
    | send hpc => exact absurd (by rw [hpc]; trivial) hport
    | leave hpc => rcases hpc with hpc | hpc <;> exact absurd (by rw [hpc]; trivial) hport
  · refine .beside ?_ hlog fun hmem => ?_
    · rw [Sessions.record_session]
      cases hrule with
      | @send t n peer hpc hpeer hduration =>
        refine Sessions.set_ne fun hi => ?_
        subst hi
        exact TestProtocol.noConfusion (htcp.symm.trans (h.taken k i hpeer).1.1)
      | _ => exact Sessions.set_ne (Ne.symm hk)
    · obtain ⟨step, -, heq⟩ := List.mem_map.mp hmem
      exact hk (Prod.mk.inj heq).1

theorem Shared.tcp_moves (h : Shared J cfg env S) (htcp : (cfg i).protocol = .tcp)
    {a : SessionsAction ι} (hs : S.step J cfg env a = some S') : SeenFrom J cfg env S i S' := by
  have hne : ∀ k, (cfg k).protocol = .udp → i ≠ k := by
    rintro k hk rfl
    exact TestProtocol.noConfusion (htcp.symm.trans hk)
  have hnothing : ∀ S' : Sessions ι, S'.log = S.log → S'.log = S.log ++ [] := fun S' hlog =>
    hlog.trans (List.append_nil _).symm
  cases a with
  | client k a =>
    obtain ⟨s, hclient, rfl⟩ := Option.map_eq_some_iff.mp hs
    by_cases hk : k = i
    · subst hk
      refine .quiet (b := .client a) (fun hreport => Action.noConfusion hreport.2) ?_
        (hnothing _ rfl) List.not_mem_nil
      rw [Sessions.set_self]
      exact hclient
    · exact .beside (Sessions.set_ne (Ne.symm hk)) (hnothing _ rfl) List.not_mem_nil
  | server k a x =>
    obtain ⟨S₁, hhandler, rfl⟩ := Option.map_eq_some_iff.mp hs
    exact h.tcp_handler htcp (serverStep_handler hhandler) x
  | deliver j =>
    obtain ⟨hflight, hcases⟩ := deliverStep_sessions hs
    have hj := hne j (h.flight j hflight).1
    refine .beside ?_ (hnothing _ (deliver_log hs).1) List.not_mem_nil
    rcases hcases with ⟨k, hholder, S₁, rfl, rfl⟩ | ⟨-, -, rfl⟩
    · exact (Sessions.set_ne (hne k (h.holder k hholder))).trans (Sessions.set_ne hj)
    · exact Sessions.set_ne hj

/-- Session `i` beside the others: alone but for `stats`, which the log explains. -/
structure Apart (J : SerdeJson) (cfg : ι → Config) (env : ι → Env) (S : Sessions ι) (i : ι)
    (stats : Option ResultStats) : Prop where
  alone : AsAlone J (cfg i) (env i) stats (S.session i)
  unlogged : (S.session i).server.unreported → (i, .sendResult) ∉ S.log
  shown : ∀ pre post, S.log = pre ++ (i, .sendResult) :: post → stats = figuresOf pre

omit [DecidableEq ι] in
theorem Apart.step {stats : Option ResultStats} (hJ : ∀ i, Honest J (cfg i) (env i))
    (h : Apart J cfg env S i stats) (hseen : SeenFrom J cfg env S i S') :
    ∃ stats', Apart J cfg env S' i stats' := by
  have hshown : ∀ more, (i, .sendResult) ∉ more → ∀ pre post,
      S.log ++ more = pre ++ (i, .sendResult) :: post → stats = figuresOf pre := by
    intro more hmore pre post hsplit
    obtain ⟨post', hbefore⟩ := split_of_append hmore hsplit
    exact h.shown pre post' hbefore
  cases hseen with
  | @beside more hsame hlog hmore =>
    refine ⟨stats, by rw [hsame]; exact h.alone, ?_, by rw [hlog]; exact hshown more hmore⟩
    rw [hsame, hlog]
    intro hpc hmem
    exact (List.mem_append.mp hmem).elim (h.unlogged hpc) hmore
  | @quiet b more hquiet hs hlog hmore =>
    rw [Sessions.envs, step_stats hquiet] at hs
    refine ⟨stats, h.alone.quiet (hJ i) hquiet hs, ?_, by rw [hlog]; exact hshown more hmore⟩
    rw [hlog]
    intro hpc hmem
    have hbefore : (S.session i).server.unreported := by
      by_contra hreported
      exact (reported_step (hJ i) hreported hs).1 hpc
    exact (List.mem_append.mp hmem).elim (h.unlogged hbefore) hmore
  | @result b hreport hs hlog =>
    have hopen : (S.session i).server.unreported := by
      rw [hreport.1]
      trivial
    refine ⟨figuresOf S.log, h.alone.result hreport hs,
      fun hpc => absurd hpc (result_step hreport hs).1, fun pre post hsplit => ?_⟩
    rw [hlog] at hsplit
    rw [((List.append_cons_inj_of_notMem (h.unlogged hopen) List.not_mem_nil).mp hsplit).1]

theorem apart_reachable (hJ : ∀ i, Honest J (cfg i) (env i))
    (h : Lts.Reachable (Sessions.step J cfg env) Sessions.init S)
    (htcp : (cfg i).protocol = .tcp) : ∃ stats, Apart J cfg env S i stats := by
  induction h with
  | start =>
    exact ⟨some ⟨0, 0, 0, 0⟩, asAlone_init .., fun _ => List.not_mem_nil,
      fun pre post hsplit => absurd hsplit.symm (by simp [Sessions.init])⟩
  | next hreach _ hs ih =>
    obtain ⟨stats, hapart⟩ := ih
    exact hapart.step hJ ((shared_reachable hJ hreach).tcp_moves htcp hs)

theorem serverStep_calm (hport : ¬ (S.session i).server.usesPort) (a : Act) :
    S.serverStep J env i a = (serverStep J (env i) (S.session i) a).map (S.set i) := by
  unfold Sessions.serverStep
  cases hpc : (S.session i).server with
  | bindUdp t => exact absurd (by rw [hpc]; trivial) hport
  | udpWaitFirst t => exact absurd (by rw [hpc]; trivial) hport
  | udpSend t => exact absurd (by rw [hpc]; trivial) hport
  | udpReceive t => exact absurd (by rw [hpc]; trivial) hport
  | _ => rfl

/-- What a session can do by itself away from the port, it can do among the others. -/
theorem lift_step {b : Action} (hport : ∀ a, b = .server a → ¬ (S.session i).server.usesPort)
    (hflight : (S.session i).inFlight = 0)
    (hs : step J (cfg i) (S.envs env i) (S.session i) b = some s) :
    ∃ a steps, S.step J cfg env a = some ((S.set i s).record i steps) := by
  cases b with
  | client a =>
    refine ⟨.client i a, [], ?_⟩
    rw [Sessions.record_nil]
    exact (congrArg (Option.map (S.set i)) hs).trans rfl
  | server a =>
    refine ⟨.server i a ⟨[], 0, 0⟩, handlerSteps ⟨[], 0, 0⟩ (S.session i).server a, ?_⟩
    have hset : S.serverStep J (S.envs env) i a = some (S.set i s) :=
      (serverStep_calm (hport a rfl) a).trans (congrArg (Option.map (S.set i)) hs)
    exact (congrArg (Option.map _) hset).trans rfl
  | deliver => exact absurd hflight (deliverStep_cases hs).1

theorem tcp_goes_on (hJ : ∀ i, Honest J (cfg i) (env i))
    (h : Lts.Reachable (Sessions.step J cfg env) Sessions.init S)
    (htcp : (cfg i).protocol = .tcp) (hrun : ¬ (S.session i).Finished) :
    ∃ a s steps, S.step J cfg env a = some ((S.set i s).record i steps) ∧
      s.rank < (S.session i).rank := by
  have hshared := shared_reachable hJ h
  obtain ⟨stats, hapart⟩ := apart_reachable hJ h htcp
  obtain ⟨st, hreach, hagrees, hsame⟩ :=
    hapart.alone.shown (figuresOf S.log) ((ledger_reachable hJ h).agrees i)
  have hspeaks : speaksFirst (cfg i) ((env i).withStats st) :=
    fun hudp => TestProtocol.noConfusion (htcp.symm.trans hudp)
  obtain ⟨b, s, hs, -, hlt⟩ :=
    session_goes_on ((hJ i).withStats st) hspeaks hreach hagrees hrun
  rw [← hsame] at hs
  obtain ⟨a, steps, ha⟩ := lift_step (fun _ _ => (hshared.session i).tcp_port htcp)
    (hshared.tcp_flight htcp) hs
  exact ⟨a, s, steps, ha, hlt⟩

theorem tcp_finishes (hJ : ∀ i, Honest J (cfg i) (env i))
    (h : Lts.Reachable (Sessions.step J cfg env) Sessions.init S)
    (htcp : (cfg i).protocol = .tcp) :
    ∃ s steps, s.Finished ∧
      Lts.Reachable (Sessions.step J cfg env) S ((S.set i s).record i steps) := by
  have hend : ∃ S', Lts.Reachable (Sessions.step J cfg env) S S' ∧
      (S'.session i).Finished ∧ ∃ s steps, S' = (S.set i s).record i steps := by
    refine Lts.Reach.attains (fun S' => (S'.session i).rank)
      (I := fun S' => ∃ s steps, S' = (S.set i s).record i steps) (fun S' hreach hI hrun => ?_) h
      ⟨S.session i, [], by rw [Sessions.record_nil, Sessions.set_same]⟩
    obtain ⟨a, s, steps, ha, hlt⟩ := tcp_goes_on hJ hreach htcp fun hfin => hrun ⟨hfin, hI⟩
    obtain ⟨s₀, steps₀, rfl⟩ := hI
    refine ⟨a, _, trivial, ha, ⟨s, steps₀ ++ steps, ?_⟩, ?_⟩
    · rw [Sessions.set_record, Sessions.set_set, Sessions.record_record]
    · rw [Sessions.record_session, Sessions.set_self]
      exact hlt
  obtain ⟨S', hreach, hfin, s, steps, rfl⟩ := hend
  rw [Sessions.record_session, Sessions.set_self] at hfin
  exact ⟨s, steps, hfin, hreach⟩

/-- Whatever the other clients do, the session of a TCP test is one that it could have had with the
server to itself, but for what its `Result` says: all that the handlers have recorded by then,
with the bytes of its own test and of all others. It can come to its end without a step of any
other. -/
theorem tcpSession_alone (hJ : ∀ i, Honest J (cfg i) (env i)) (S : Sessions ι)
    (h : Lts.Reachable (Sessions.step J cfg env) Sessions.init S) (i : ι)
    (htcp : (cfg i).protocol = .tcp) :
    (∃ stats, Reachable J (cfg i) ((env i).withStats stats) (S.session i) ∧
      ∀ pre post, S.log = pre ++ (i, .sendResult) :: post →
        stats = figuresOf pre ∧
        stats.map ResultStats.bytes =
          if ∃ x ∈ pre, x.2.seenBy .result then
            some ((bytesSentIn (own i pre) + bytesSentIn (others i pre)).toNat,
              (bytesReceivedIn (own i pre) + bytesReceivedIn (others i pre)).toNat)
          else none) ∧
    ∃ s steps, s.Finished ∧
      Lts.Reachable (Sessions.step J cfg env) S ((S.set i s).record i steps) := by
  refine ⟨?_, tcp_finishes hJ h htcp⟩
  obtain ⟨stats, hapart⟩ := apart_reachable hJ h htcp
  refine ⟨stats, hapart.alone.reach, fun pre post hsplit => ?_⟩
  have hzero : ∀ x ∈ pre, x.2.OnStreamZero := fun x hx =>
    (ledger_reachable hJ h).zero x (hsplit ▸ List.mem_append_left _ hx)
  have hshown := hapart.shown pre post hsplit
  exact ⟨hshown, hshown ▸ figuresOf_bytes i pre hzero⟩

end Tcp

/-! ### A TCP test beside a UDP test -/

def mixedTests (tcp : Bool) : Config := if tcp then tcpReverseTest else udpTest

/-- With the `Result` that counts a datagram of 36 octets beside 4 octets sent in one second. -/
def mixedTexts : List (Message × Bytes) :=
  (.resultOf 0 4 36 1 320 none, jsonObject
    ["\"type\":\"Result\"", "\"stream_id\":0", "\"bytes_sent\":4", "\"bytes_received\":36",
      "\"duration\":1.0", "\"bits_per_second\":320.0", "\"retransmits\":null",
      "\"packets_sent\":null", "\"packets_received\":null", "\"packet_loss\":null",
      "\"jitter_ms\":null", "\"out_of_order\":null"]) :: sessionTexts

theorem mixedTexts_carries {e : Message × Bytes} (he : e ∈ mixedTexts) :
    (SerdeJson.ofTable mixedTexts).Carries e.1 :=
  ofTable_carries (by decide +kernel) (by decide +kernel) (by decide +kernel) he

theorem mixedTests_honest (tcp : Bool) :
    Honest (.ofTable mixedTexts) (mixedTests tcp) localEnv where
  setup := by
    cases tcp with
    | true =>
      exact mixedTexts_carries
        (e := (tcpReverseTest.setup, setupText "\"protocol\":\"Tcp\"" "\"buffer_size\":1200"
          "\"reverse\":true" "\"one_way\":null")) (by decide +kernel)
    | false =>
      exact mixedTexts_carries
        (e := (udpTest.setup, setupText "\"protocol\":\"Udp\"" "\"buffer_size\":1200"
          "\"reverse\":false" "\"one_way\":null")) (by decide +kernel)
  ack := mixedTexts_carries (.tail _ (.head _))
  start := mixedTexts_carries (.tail _ (.tail _ (.head _)))

def takenDatagram : HandlerInput :=
  { datagram := createPacket 0 0 16 7, wallUs := 9, elapsed := 1000000000 }

/-- From `Setup` to the client's `Start`. -/
def handshakeOf {ι : Type} (J : SerdeJson) (cfg : ι → Config) (i : ι) :
    List (SessionsAction ι) :=
  [.client i .go, .server i (.read (wireBytes J (cfg i).setup).length) takenDatagram,
    .server i .go takenDatagram, .server i .go takenDatagram,
    .client i (.read (wireBytes J localEnv.ack).length),
    .client i (.read (wireBytes J localEnv.startMsg).length)]

/-- The UDP client's datagram has been counted when the TCP test sends its 4 octets and writes its
`Result`. -/
def besideUdp : List (SessionsAction Bool) :=
  handshakeOf (.ofTable mixedTexts) mixedTests false ++
    [.client false .go, .server false .go takenDatagram, .client false (.transfer 0),
      .deliver false, .server false (.transfer 0) takenDatagram] ++
    handshakeOf (.ofTable mixedTexts) mixedTests true ++
    [.server true (.transfer 4) takenDatagram, .server true .leave takenDatagram,
      .server true .go takenDatagram]

theorem tcpSession_alone_beside :
    ∃ S stats,
      Reachable (.ofTable mixedTexts) tcpReverseTest (localEnv.withStats stats)
        (S.session true) ∧
      (S.session true).frames = [.resultOf 0 4 36 1 320 none] ∧
      stats.map ResultStats.bytes = some (4, 36) ∧
      ∃ s steps, s.Finished ∧
        Lts.Reachable (Sessions.step (.ofTable mixedTexts) mixedTests fun _ => localEnv) S
          ((S.set true s).record true steps) := by
  have hrun : (Lts.run (Sessions.step (.ofTable mixedTexts) mixedTests fun _ => localEnv)
      (fun _ _ => True) Sessions.init besideUdp).any
      (fun S => (S.session true).frames = [.resultOf 0 4 36 1 320 none] ∧
        S.log = [(false, .call (.recordBytesReceived 0 36)),
          (false, .call (.recordUdpPacketReceived 0 7 9)), (true, .call (.recordBytesSent 0 4)),
          (true, .call (.setDuration 1000000000)), (true, .sendResult)]) = true := by
    decide +kernel
  obtain ⟨S, hs, hend⟩ := (Option.any_eq_true _ _).mp hrun
  obtain ⟨hframes, hlog⟩ := of_decide_eq_true hend
  obtain ⟨⟨stats, hreach, hshown⟩, hfinishes⟩ :=
    tcpSession_alone mixedTests_honest S (Lts.Reach.start.run hs) true rfl
  have hbytes := (hshown _ [] (hlog.trans (List.append_assoc [_, _] [_, _] [_]).symm)).2
  exact ⟨S, stats, hreach, hframes, hbytes.trans (by decide +kernel), hfinishes⟩

end Rperf3.Joint
