import Rperf3.Library.Lts

/-!
# A loop that reports to another task

A producer runs a loop and sends messages with its iterations; when it leaves the
loop it closes the queue. A consumer takes the messages in order, handles one
after the other and finishes when it takes the closing message. The two take
their steps in any order.
-/

namespace Pipeline

variable {σ τ ρ : Type*}

/-- What one iteration of a loop does: it goes on and has sent messages, or it leaves the loop. -/
inductive Iteration (σ τ ρ : Type*) where
  | again (s : σ) (out : List ρ)
  | leave (t : τ)

def Iteration.map {σ' τ' : Type*} (f : σ → σ') (g : τ → τ') : Iteration σ τ ρ → Iteration σ' τ' ρ
  | .again s out => .again (f s) out
  | .leave t => .leave (g t)

/-- The loop sends `out` from `s` on, and is left with `t`. -/
inductive Emits (next : σ → Iteration σ τ ρ) : σ → List ρ → τ → Prop
  | leave {s t} : next s = .leave t → Emits next s [] t
  | again {s s' out rest t} : next s = .again s' out → Emits next s' rest t →
      Emits next s (out ++ rest) t

theorem Emits.silent {next : σ → Iteration σ τ ρ} {s s' : σ} {out : List ρ} {t : τ}
    (hs : next s = .again s' []) (h : Emits next s' out t) : Emits next s out t :=
  .again hs h

theorem Emits.unique {next : σ → Iteration σ τ ρ} {s : σ} {out out' : List ρ} {t t' : τ}
    (h : Emits next s out t) (h' : Emits next s out' t') : out = out' ∧ t = t' := by
  induction h generalizing out' with
  | leave hs =>
    cases h' with
    | leave hs' => exact ⟨rfl, Iteration.leave.inj (hs.symm.trans hs')⟩
    | again hs' _ => exact nomatch hs.symm.trans hs'
  | again hs _ ih =>
    cases h' with
    | leave hs' => exact nomatch hs.symm.trans hs'
    | again hs' hrest' =>
      obtain ⟨rfl, rfl⟩ := Iteration.again.inj (hs.symm.trans hs')
      obtain ⟨rfl, rfl⟩ := ih hrest'
      exact ⟨rfl, rfl⟩

theorem Emits.map {σ' τ' : Type*} {next : σ → Iteration σ τ ρ} {next' : σ' → Iteration σ' τ' ρ}
    (f : σ → σ') (g : τ → τ') (hnext : ∀ s, next' (f s) = (next s).map f g) {s : σ}
    {out : List ρ} {t : τ} (h : Emits next s out t) : Emits next' (f s) out (g t) := by
  induction h with
  | leave hs => exact .leave (by rw [hnext, hs]; rfl)
  | again hs _ ih => exact .again (by rw [hnext, hs]; rfl) ih

/-! ### The two tasks -/

inductive Message (ρ : Type*) where
  | item (r : ρ)
  | close

inductive Producer (σ τ : Type*) where
  | running (s : σ)
  | left (t : τ)

inductive Consumer (ρ : Type*) where
  | waiting
  | handling (r : ρ)
  | finished

/-- The tasks and the queue between them, with what was sent and what was handled so far. -/
structure State (σ τ ρ : Type*) where
  producer : Producer σ τ
  queue : List (Message ρ)
  consumer : Consumer ρ
  sent : List ρ
  handled : List ρ

inductive Turn where
  | producer
  | consumer

def start (s : σ) : State σ τ ρ := ⟨.running s, [], .waiting, [], []⟩

def stepProducer (next : σ → Iteration σ τ ρ) (s : State σ τ ρ) : Option (State σ τ ρ) :=
  match s.producer with
  | .running l =>
    match next l with
    | .again l out => some { s with
        producer := .running l
        queue := s.queue ++ out.map .item
        sent := s.sent ++ out }
    | .leave t => some { s with producer := .left t, queue := s.queue ++ [.close] }
  | .left _ => none

def stepConsumer (s : State σ τ ρ) : Option (State σ τ ρ) :=
  match s.consumer with
  | .waiting =>
    match s.queue with
    | .item r :: queue => some { s with queue := queue, consumer := .handling r }
    | .close :: queue => some { s with queue := queue, consumer := .finished }
    | [] => none
  | .handling r => some { s with consumer := .waiting, handled := s.handled ++ [r] }
  | .finished => none

def step (next : σ → Iteration σ τ ρ) (s : State σ τ ρ) : Turn → Option (State σ τ ρ)
  | .producer => stepProducer next s
  | .consumer => stepConsumer s

/-! ### The invariant -/

/-- The message the consumer is handling. -/
def Consumer.held : Consumer ρ → List ρ
  | .handling r => [r]
  | _ => []

def Producer.closing : Producer σ τ → List (Message ρ)
  | .running _ => []
  | .left _ => [.close]

/-- What was sent is handled, held or queued, in this order; the closing message is the last. -/
structure Open (s : State σ τ ρ) (queued : List ρ) : Prop where
  consumer : s.consumer ≠ .finished
  queue : s.queue = queued.map .item ++ s.producer.closing
  sent : s.sent = s.handled ++ (s.consumer.held ++ queued)

structure Closed (s : State σ τ ρ) : Prop where
  consumer : s.consumer = .finished
  producer : ∃ t, s.producer = .left t
  sent : s.sent = s.handled

/-- What was sent is what the loop sends from its start `l₀`, up to where it is. -/
def Emitted (next : σ → Iteration σ τ ρ) (l₀ : σ) (s : State σ τ ρ) : Prop :=
  match s.producer with
  | .running l => ∀ rest t, Emits next l rest t → Emits next l₀ (s.sent ++ rest) t
  | .left t => Emits next l₀ s.sent t

structure Inv (next : σ → Iteration σ τ ρ) (l₀ : σ) (s : State σ τ ρ) : Prop where
  emitted : Emitted next l₀ s
  order : (∃ queued, Open s queued) ∨ Closed s

variable {next : σ → Iteration σ τ ρ} {l₀ : σ} {s s' : State σ τ ρ}

theorem inv_start (l₀ : σ) : Inv next l₀ (start l₀ : State σ τ ρ) where
  emitted _ _ h := h
  order := .inl ⟨[], nofun, rfl, rfl⟩

theorem stepProducer_cases (hs : stepProducer next s = some s') :
    ∃ l, s.producer = .running l ∧
      ((∃ l' out, next l = .again l' out ∧ s' = { s with
          producer := .running l'
          queue := s.queue ++ out.map .item
          sent := s.sent ++ out }) ∨
        ∃ t, next l = .leave t ∧
          s' = { s with producer := .left t, queue := s.queue ++ [.close] }) := by
  unfold stepProducer at hs
  cases hproducer : s.producer with
  | left t =>
    rw [hproducer] at hs
    exact nomatch hs
  | running l =>
    refine ⟨l, rfl, ?_⟩
    rw [hproducer] at hs
    cases hnext : next l with
    | again l' out =>
      simp only [hnext, Option.some.injEq] at hs
      exact .inl ⟨l', out, rfl, hs.symm⟩
    | leave t =>
      simp only [hnext, Option.some.injEq] at hs
      exact .inr ⟨t, rfl, hs.symm⟩

theorem Inv.open_of_running {l : σ} (h : Inv next l₀ s) (hrunning : s.producer = .running l) :
    ∃ queued, s.consumer ≠ .finished ∧ s.queue = queued.map .item ∧
      s.sent = s.handled ++ (s.consumer.held ++ queued) := by
  rcases h.order with ⟨queued, hopen⟩ | ⟨-, ⟨t, hleft⟩, -⟩
  · have hqueue := hopen.queue
    rw [hrunning, Producer.closing, List.append_nil] at hqueue
    exact ⟨queued, hopen.consumer, hqueue, hopen.sent⟩
  · exact nomatch hrunning.symm.trans hleft

theorem inv_stepProducer (h : Inv next l₀ s) (hs : stepProducer next s = some s') :
    Inv next l₀ s' := by
  obtain ⟨l, hrunning, hcases⟩ := stepProducer_cases hs
  obtain ⟨queued, hconsumer, hqueue, hsent⟩ := h.open_of_running hrunning
  have hemitted : ∀ rest t, Emits next l rest t → Emits next l₀ (s.sent ++ rest) t := by
    have hstate := h.emitted
    unfold Emitted at hstate
    rwa [hrunning] at hstate
  rcases hcases with ⟨l', out, hnext, rfl⟩ | ⟨t, hnext, rfl⟩
  · refine ⟨fun rest t hrest => ?_, .inl ⟨queued ++ out, hconsumer, ?_, ?_⟩⟩
    · rw [List.append_assoc]
      exact hemitted _ t (.again hnext hrest)
    · simp only [hqueue, Producer.closing, List.map_append, List.append_nil]
    · simp only [hsent, List.append_assoc]
  · refine ⟨?_, .inl ⟨queued, hconsumer, by rw [hqueue]; rfl, hsent⟩⟩
    have hleft := hemitted [] t (.leave hnext)
    rwa [List.append_nil] at hleft

theorem stepProducer_handled (hs : stepProducer next s = some s') : s'.handled = s.handled := by
  obtain ⟨l, -, ⟨l', out, -, rfl⟩ | ⟨t, -, rfl⟩⟩ := stepProducer_cases hs
  · rfl
  · rfl

theorem stepConsumer_frame (hs : stepConsumer s = some s') :
    s'.producer = s.producer ∧ s'.sent = s.sent ∧ s'.handled = s.handled ++ s.consumer.held := by
  unfold stepConsumer at hs
  cases hconsumer : s.consumer with
  | finished => exact nomatch hconsumer ▸ hs
  | handling r =>
    rw [hconsumer] at hs
    cases hs
    exact ⟨rfl, rfl, rfl⟩
  | waiting =>
    rw [hconsumer] at hs
    simp only at hs
    split at hs
    · cases hs
      exact ⟨rfl, rfl, (List.append_nil _).symm⟩
    · cases hs
      exact ⟨rfl, rfl, (List.append_nil _).symm⟩
    · exact nomatch hs

theorem Open.stepConsumer_waiting {queued : List ρ} (h : Open s queued)
    (hwaiting : s.consumer = .waiting) (hs : stepConsumer s = some s') :
    (∃ queued, Open s' queued) ∨ Closed s' := by
  obtain ⟨producer, queue, consumer, sent, handled⟩ := s
  obtain ⟨-, hqueue, hsent⟩ := h
  simp only at hqueue hsent hwaiting
  subst hwaiting hqueue
  cases queued with
  | cons r queued =>
    cases hs
    exact .inl ⟨queued, nofun, rfl, hsent⟩
  | nil =>
    cases producer with
    | running l => exact nomatch hs
    | left t =>
      cases hs
      refine .inr ⟨rfl, ⟨t, rfl⟩, hsent.trans ?_⟩
      exact List.append_nil handled

theorem Open.stepConsumer {queued : List ρ} (h : Open s queued)
    (hs : stepConsumer s = some s') : (∃ queued, Open s' queued) ∨ Closed s' := by
  cases hconsumer : s.consumer with
  | waiting => exact h.stepConsumer_waiting hconsumer hs
  | finished => exact absurd hconsumer h.consumer
  | handling r =>
    obtain ⟨producer, queue, consumer, sent, handled⟩ := s
    simp only at hconsumer
    subst hconsumer
    cases hs
    refine .inl ⟨queued, nofun, h.queue, h.sent.trans ?_⟩
    simp only [Consumer.held, List.append_assoc, List.nil_append]

theorem inv_stepConsumer (h : Inv next l₀ s) (hs : stepConsumer s = some s') :
    Inv next l₀ s' := by
  obtain ⟨hproducer, hsent, -⟩ := stepConsumer_frame hs
  refine ⟨?_, ?_⟩
  · unfold Emitted
    rw [hproducer, hsent]
    exact h.emitted
  · rcases h.order with ⟨queued, hopen⟩ | hclosed
    · exact hopen.stepConsumer hs
    · rw [stepConsumer, hclosed.consumer] at hs
      exact nomatch hs

theorem inv_reachable (h : Lts.Reachable (step next) (start l₀) s) : Inv next l₀ s := by
  refine h.invariant (inv_start l₀) (fun s a s' hinv _ hs => ?_)
  cases a with
  | producer => exact inv_stepProducer hinv hs
  | consumer => exact inv_stepConsumer hinv hs

/-! ### When the consumer has finished -/

/-- All that the loop sends was sent and handled, in order. -/
theorem Inv.finished (h : Inv next l₀ s) (hfinished : s.consumer = .finished) :
    ∃ t, s.producer = .left t ∧ Emits next l₀ s.sent t ∧ s.handled = s.sent := by
  rcases h.order with ⟨queued, hopen⟩ | hclosed
  · exact absurd hfinished hopen.consumer
  · obtain ⟨t, ht⟩ := hclosed.producer
    have hemitted := h.emitted
    unfold Emitted at hemitted
    rw [ht] at hemitted
    exact ⟨t, ht, hemitted, hclosed.sent.symm⟩

/-- Until then, one of the tasks can take a step. -/
theorem Inv.exists_step (h : Inv next l₀ s) (hfinished : s.consumer ≠ .finished) :
    ∃ turn s', step next s turn = some s' := by
  obtain ⟨queued, hopen⟩ := h.order.resolve_right (fun hclosed => hfinished hclosed.consumer)
  cases hproducer : s.producer with
  | running l =>
    refine ⟨.producer, ?_⟩
    unfold step stepProducer
    simp only [hproducer]
    cases next l with
    | again l' out => exact ⟨_, rfl⟩
    | leave t => exact ⟨_, rfl⟩
  | left t =>
    refine ⟨.consumer, ?_⟩
    have hqueue := hopen.queue
    rw [hproducer, Producer.closing] at hqueue
    unfold step stepConsumer
    simp only [hqueue]
    cases hconsumer : s.consumer with
    | finished => exact absurd hconsumer hfinished
    | handling r => exact ⟨_, rfl⟩
    | waiting =>
      cases queued with
      | nil => exact ⟨_, rfl⟩
      | cons r queued => exact ⟨_, rfl⟩

end Pipeline
