import Rperf3.Library.Lts
import Mathlib.Data.Nat.Notation
import Mathlib.Logic.Function.Basic

/-!
# A value behind a mutex

Threads make calls on one value. A call may return before it asks for the mutex;
with the mutex it accesses the value in steps of its own, and it releases the
mutex when it returns. `Sound` is a proof outline for the calls, one thread at a
time: what it says of the value and of the results holds for every interleaving
(`Sound.reachable`). When the accesses of a call come to an end, a call that is
under way can always be brought to its return (`Inv.returns`).
-/

namespace Guarded

variable {ι σ κ μ ρ : Type*}

/-- What a call does before it asks for the mutex, and one access to the value. Both go on or
return. -/
structure Ops (σ κ μ ρ : Type*) where
  enter : μ → κ ⊕ ρ
  access : κ → σ → σ × (κ ⊕ ρ)

inductive Phase (κ μ : Type*) where
  | idle
  | waiting (m : μ) (k : κ)
  | inside (m : μ) (k : κ)

structure State (ι σ κ μ ρ : Type*) where
  value : σ
  owner : Option ι
  threads : ι → Phase κ μ
  /-- The calls that have returned, each with its result. -/
  returned : List (μ × ρ)

def State.start (v : σ) : State ι σ κ μ ρ := ⟨v, none, fun _ => .idle, []⟩

inductive Action (ι μ : Type*) where
  | call (i : ι) (m : μ)
  | lock (i : ι)
  | access (i : ι)

variable [DecidableEq ι]

def State.set (s : State ι σ κ μ ρ) (i : ι) (p : Phase κ μ) : State ι σ κ μ ρ :=
  { s with threads := Function.update s.threads i p }

def step (ops : Ops σ κ μ ρ) (s : State ι σ κ μ ρ) : Action ι μ → Option (State ι σ κ μ ρ)
  | .call i m =>
    match s.threads i, ops.enter m with
    | .idle, .inl k => some (s.set i (.waiting m k))
    | .idle, .inr r => some { s with returned := (m, r) :: s.returned }
    | _, _ => none
  | .lock i =>
    match s.threads i, s.owner with
    | .waiting m k, none => some { s.set i (.inside m k) with owner := some i }
    | _, _ => none
  | .access i =>
    match s.threads i with
    | .inside m k =>
      match ops.access k s.value with
      | (v, .inl k') => some { s.set i (.inside m k') with value := v }
      | (v, .inr r) => some
          { s.set i .idle with value := v, owner := none, returned := (m, r) :: s.returned }
    | _ => none

variable {ops : Ops σ κ μ ρ} {s s' : State ι σ κ μ ρ}

theorem step_cases {a : Action ι μ} (h : step ops s a = some s') :
    (∃ i m k, s.threads i = .idle ∧ ops.enter m = .inl k ∧ s' = s.set i (.waiting m k)) ∨
    (∃ m r, ops.enter m = .inr r ∧ s' = { s with returned := (m, r) :: s.returned }) ∨
    (∃ i m k, s.threads i = .waiting m k ∧ s.owner = none ∧
      s' = { s.set i (.inside m k) with owner := some i }) ∨
    (∃ i m k v k', s.threads i = .inside m k ∧ ops.access k s.value = (v, .inl k') ∧
      s' = { s.set i (.inside m k') with value := v }) ∨
    (∃ i m k v r, s.threads i = .inside m k ∧ ops.access k s.value = (v, .inr r) ∧
      s' = { s.set i .idle with
        value := v, owner := none, returned := (m, r) :: s.returned }) := by
  cases a with
  | call i m =>
    simp only [step] at h
    split at h
    · next k hi hk => exact .inl ⟨i, m, k, hi, hk, (Option.some.inj h).symm⟩
    · next r _ hr => exact .inr (.inl ⟨m, r, hr, (Option.some.inj h).symm⟩)
    · exact nomatch h
  | lock i =>
    simp only [step] at h
    split at h
    · next m k hi howner =>
      exact .inr (.inr (.inl ⟨i, m, k, hi, howner, (Option.some.inj h).symm⟩))
    · exact nomatch h
  | access i =>
    simp only [step] at h
    split at h
    · next m k hi =>
      split at h
      · next v k' hacc =>
        exact .inr (.inr (.inr (.inl ⟨i, m, k, v, k', hi, hacc, (Option.some.inj h).symm⟩)))
      · next v r hacc =>
        exact .inr (.inr (.inr (.inr ⟨i, m, k, v, r, hi, hacc, (Option.some.inj h).symm⟩)))
    · exact nomatch h

/-! ### Proof outlines -/

/-- `I` holds of the value, `L` at the points inside a call and `Q` of the results. -/
structure Sound (ops : Ops σ κ μ ρ) (I : σ → Prop) (L : μ → κ → σ → Prop) (Q : μ → ρ → Prop) :
    Prop where
  entered : ∀ m k, ops.enter m = .inl k → ∀ v, I v → L m k v
  refused : ∀ m r, ops.enter m = .inr r → Q m r
  holds : ∀ m k v, L m k v → I v
  continues : ∀ m k v v' k', L m k v → ops.access k v = (v', .inl k') → L m k' v'
  returns : ∀ m k v v' r, L m k v → ops.access k v = (v', .inr r) → I v' ∧ Q m r

/-- What holds of a thread: one that waits can start from any value with `I`, and only the owner is
inside a call. -/
def ThreadHolds (I : σ → Prop) (L : μ → κ → σ → Prop) (owner : Option ι) (v : σ) (i : ι) :
    Phase κ μ → Prop
  | .idle => True
  | .waiting m k => ∀ v, I v → L m k v
  | .inside m k => owner = some i ∧ L m k v

structure Inv (I : σ → Prop) (L : μ → κ → σ → Prop) (Q : μ → ρ → Prop) (s : State ι σ κ μ ρ) :
    Prop where
  value : I s.value
  thread : ∀ i, ThreadHolds I L s.owner s.value i (s.threads i)
  owned : ∀ i, s.owner = some i → ∃ m k, s.threads i = .inside m k
  returned : ∀ x ∈ s.returned, Q x.1 x.2

variable {I : σ → Prop} {L : μ → κ → σ → Prop} {Q : μ → ρ → Prop}

omit [DecidableEq ι] in
theorem inv_start {v : σ} (h : I v) : Inv I L Q (State.start v : State ι σ κ μ ρ) where
  value := h
  thread _ := trivial
  owned _ howner := nomatch howner
  returned _ hx := absurd hx List.not_mem_nil

omit [DecidableEq ι] in
/-- A thread that does not own the mutex does not depend on the value. -/
theorem ThreadHolds.other {owner owner' : Option ι} {v v' : σ} {i : ι} {p : Phase κ μ}
    (h : ThreadHolds I L owner v i p) (hne : owner ≠ some i) :
    ThreadHolds I L owner' v' i p := by
  cases p with
  | idle => trivial
  | waiting m k => exact h
  | inside m k => exact absurd h.1 hne

theorem forall_set {P : ι → Phase κ μ → Prop} {i : ι} {p : Phase κ μ} (hi : P i p)
    (h : ∀ j ≠ i, P j (s.threads j)) : ∀ j, P j ((s.set i p).threads j) :=
  (Function.forall_update_iff s.threads P).mpr ⟨hi, h⟩

omit [DecidableEq ι] in
theorem returned_cons {m : μ} {r : ρ} (h : Inv I L Q s) (hr : Q m r) :
    ∀ x ∈ (m, r) :: s.returned, Q x.1 x.2 := by
  intro x hx
  rcases List.mem_cons.mp hx with rfl | hx
  · exact hr
  · exact h.returned x hx

omit [DecidableEq ι] in
theorem Inv.inside (h : Inv I L Q s) {i : ι} {m : μ} {k : κ} (hi : s.threads i = .inside m k) :
    s.owner = some i ∧ L m k s.value := by
  have hthread := h.thread i
  rwa [hi] at hthread

theorem set_self (s : State ι σ κ μ ρ) (i : ι) (p : Phase κ μ) : (s.set i p).threads i = p :=
  Function.update_self ..

theorem set_of_ne {i j : ι} (p : Phase κ μ) (h : j ≠ i) :
    (s.set i p).threads j = s.threads j :=
  Function.update_of_ne h ..

theorem Inv.step (hs : Sound ops I L Q) (h : Inv I L Q s) {a : Action ι μ}
    (hstep : step ops s a = some s') : Inv I L Q s' := by
  obtain ⟨i, m, k, hidle, henter, rfl⟩ | ⟨m, r, henter, rfl⟩ | ⟨i, m, k, hi, hfree, rfl⟩ |
    ⟨i, m, k, v, k', hi, hacc, rfl⟩ | ⟨i, m, k, v, r, hi, hacc, rfl⟩ := step_cases hstep
  · have howned : ∀ j, s.owner = some j → ∃ m' l, (s.set i (.waiting m k)).threads j =
        .inside m' l := by
      intro j howner
      obtain ⟨m', l, hj⟩ := h.owned j howner
      have hne : j ≠ i := by
        rintro rfl
        exact nomatch hidle.symm.trans hj
      exact ⟨m', l, (set_of_ne _ hne).trans hj⟩
    exact ⟨h.value, forall_set (hs.entered m k henter) (fun j _ => h.thread j), howned, h.returned⟩
  · exact ⟨h.value, h.thread, h.owned, returned_cons h (hs.refused m r henter)⟩
  · have hwaiting := h.thread i
    rw [hi] at hwaiting
    have hothers : ∀ j ≠ i, ThreadHolds I L (some i) s.value j (s.threads j) := fun j _ =>
      (h.thread j).other (hfree ▸ nofun)
    refine ⟨h.value, forall_set ⟨rfl, hwaiting s.value h.value⟩ hothers, ?_, h.returned⟩
    intro j howner
    obtain rfl := Option.some.inj howner
    exact ⟨m, k, set_self ..⟩
  · obtain ⟨howner, hheld⟩ := h.inside hi
    have hnext := hs.continues m k s.value v k' hheld hacc
    have hothers : ∀ j ≠ i, ThreadHolds I L s.owner v j (s.threads j) := fun j hj =>
      (h.thread j).other (fun hown => hj (Option.some.inj (hown.symm.trans howner)))
    refine ⟨hs.holds m k' v hnext, forall_set ⟨howner, hnext⟩ hothers, ?_, h.returned⟩
    intro j hj
    obtain rfl := Option.some.inj (howner.symm.trans hj)
    exact ⟨m, k', set_self ..⟩
  · obtain ⟨howner, hheld⟩ := h.inside hi
    obtain ⟨hvalue, hresult⟩ := hs.returns m k s.value v r hheld hacc
    have hothers : ∀ j ≠ i, ThreadHolds I L none v j (s.threads j) := fun j hj =>
      (h.thread j).other (fun hown => hj (Option.some.inj (hown.symm.trans howner)))
    exact ⟨hvalue, forall_set trivial hothers, nofun, returned_cons h hresult⟩

theorem Sound.reachable (hs : Sound ops I L Q) {v : σ} (hv : I v)
    (h : Lts.Reachable (step ops) (State.start v) s) : Inv I L Q s :=
  h.invariant (inv_start hv) (fun _ _ _ hinv _ hstep => hinv.step hs hstep)

/-! ### Calls under way return -/

/-- Every access that does not return takes the call closer to its end. -/
def Ends (ops : Ops σ κ μ ρ) (rank : κ → ℕ) : Prop :=
  ∀ k v v' k', ops.access k v = (v', .inl k') → rank k' < rank k

variable {rank : κ → ℕ} {i : ι} {m : μ} {k : κ}

/-- The owner of the mutex alone brings its call to the end. -/
theorem inside_returns (hends : Ends ops rank) (hi : s.threads i = .inside m k) :
    ∃ s' r, Lts.Reachable (step ops) s s' ∧ s'.returned = (m, r) :: s.returned ∧
      s'.owner = none ∧ s'.threads = Function.update s.threads i .idle := by
  induction hrank : rank k using Nat.strongRecOn generalizing s k with
  | ind n ih =>
    rcases hacc : ops.access k s.value with ⟨v, k' | r⟩
    · have hstep : step ops s (.access i) = some { s.set i (.inside m k') with value := v } := by
        simp only [step, hi, hacc]
      obtain ⟨s', r, hreach, hreturned, hfree, hthreads⟩ :=
        ih (rank k') (hrank ▸ hends k s.value v k' hacc)
          (s := { s.set i (.inside m k') with value := v }) (set_self s i _) rfl
      refine ⟨s', r, (Lts.Reach.start.snoc hstep).trans hreach, hreturned, hfree, ?_⟩
      rw [hthreads]
      exact Function.update_idem ..
    · have hstep : step ops s (.access i) = some { s.set i .idle with
          value := v, owner := none, returned := (m, r) :: s.returned } := by
        simp only [step, hi, hacc]
      exact ⟨_, r, Lts.Reach.start.snoc hstep, rfl, rfl, rfl⟩

theorem waiting_returns (hends : Ends ops rank) (hfree : s.owner = none)
    (hi : s.threads i = .waiting m k) :
    ∃ s' r, Lts.Reachable (step ops) s s' ∧ s'.returned.head? = some (m, r) ∧
      s'.threads i = .idle := by
  have hstep : step ops s (.lock i) =
      some { s.set i (.inside m k) with owner := some i } := by
    simp only [step, hi, hfree]
  obtain ⟨s', r, hreach, hreturned, -, hthreads⟩ := inside_returns hends
    (s := { s.set i (.inside m k) with owner := some i }) (set_self s i _)
  refine ⟨s', r, (Lts.Reach.start.snoc hstep).trans hreach, ?_, ?_⟩
  · rw [hreturned]
    rfl
  · rw [hthreads]
    exact Function.update_self ..

/-- Nobody waits for ever for want of a step that could be taken. -/
theorem Inv.returns (h : Inv I L Q s) (hends : Ends ops rank)
    (hi : s.threads i = .waiting m k ∨ s.threads i = .inside m k) :
    ∃ s' r, Lts.Reachable (Guarded.step ops) s s' ∧ s'.returned.head? = some (m, r) ∧
      s'.threads i = .idle := by
  rcases hi with hi | hi
  · cases howner : s.owner with
    | none => exact waiting_returns hends howner hi
    | some j =>
      obtain ⟨m', k', hj⟩ := h.owned j howner
      have hne : i ≠ j := by
        rintro rfl
        exact nomatch hi.symm.trans hj
      -- first the owner, then the thread that waits
      obtain ⟨s₁, -, hreach, -, hfree, hthreads⟩ := inside_returns hends hj
      have hi₁ : s₁.threads i = .waiting m k := by
        rw [hthreads, Function.update_of_ne hne, hi]
      obtain ⟨s', r, hreach', hreturned, hidle⟩ := waiting_returns hends hfree hi₁
      exact ⟨s', r, hreach.trans hreach', hreturned, hidle⟩
  · obtain ⟨s', r, hreach, hreturned, -, hthreads⟩ := inside_returns hends hi
    refine ⟨s', r, hreach, ?_, ?_⟩
    · rw [hreturned]
      rfl
    · rw [hthreads]
      exact Function.update_self ..

end Guarded
