import Rperf3.Library.Lts
import Mathlib.Data.Set.Insert
import Mathlib.Logic.Function.Basic

/-!
# Threads that take and release locks

Every thread makes its calls one after another; a call is a script of lock
operations. A lock has at most one owner, and a thread that asks for an owned
lock waits. In a deadlock every thread of a set waits for a lock of another
thread of the set, so two of them ask for a lock while they own one
(`Deadlock.crossing`); two calls that take two locks in opposite orders reach a
deadlock whenever two threads make them (`deadlock_of_crossing`).
-/

namespace LockScript

variable {ι κ μ : Type*}

inductive LockOp (κ : Type*) where
  | acquire (k : κ)
  | release (k : κ)
  deriving DecidableEq

structure Thread (κ μ : Type*) where
  /-- The locks the thread owns. -/
  guards : List κ
  /-- What is left of the call under way. -/
  todo : List (LockOp κ)
  calls : List μ

structure State (ι κ μ : Type*) where
  owner : κ → Option ι
  threads : ι → Thread κ μ

def State.start (calls : ι → List μ) : State ι κ μ :=
  ⟨fun _ => none, fun i => ⟨[], [], calls i⟩⟩

def State.Wants (s : State ι κ μ) (i : ι) (k : κ) : Prop :=
  ∃ ops, (s.threads i).todo = .acquire k :: ops

/-- Every thread of a set waits for a lock owned by another thread of the set. -/
def Deadlock (s : State ι κ μ) : Prop :=
  ∃ S : Set ι, S.Nonempty ∧ ∀ i ∈ S, ∃ k, s.Wants i k ∧ ∃ j ∈ S, j ≠ i ∧ s.owner k = some j

variable [DecidableEq κ]

/-- What a call asks for, each with the locks owned at that time. -/
def requests : List κ → List (LockOp κ) → List (List κ × κ)
  | _, [] => []
  | guards, .acquire k :: ops => (guards, k) :: requests (k :: guards) ops
  | guards, .release k :: ops => requests (guards.filter (· ≠ k)) ops

/-- A script never asks for a lock it owns, releases only locks it owns, and in the end all. -/
def WellFormed : List κ → List (LockOp κ) → Prop
  | guards, [] => guards = []
  | guards, .acquire k :: ops => k ∉ guards ∧ WellFormed (k :: guards) ops
  | guards, .release k :: ops => k ∈ guards ∧ WellFormed (guards.filter (· ≠ k)) ops

instance : ∀ (guards : List κ) (ops : List (LockOp κ)), Decidable (WellFormed guards ops)
  | guards, [] => inferInstanceAs (Decidable (guards = []))
  | guards, .acquire k :: ops =>
    have := instDecidableWellFormed (k :: guards) ops
    inferInstanceAs (Decidable (k ∉ guards ∧ WellFormed (k :: guards) ops))
  | guards, .release k :: ops =>
    have := instDecidableWellFormed (guards.filter (· ≠ k)) ops
    inferInstanceAs (Decidable (k ∈ guards ∧ WellFormed (guards.filter (· ≠ k)) ops))

variable [DecidableEq ι] {script : μ → List (LockOp κ)} {calls : ι → List μ} {s s' : State ι κ μ}

def State.set (s : State ι κ μ) (i : ι) (t : Thread κ μ) : State ι κ μ :=
  { s with threads := Function.update s.threads i t }

/-- One step of a thread; a thread that waits has none. -/
def step (script : μ → List (LockOp κ)) (s : State ι κ μ) (i : ι) : Option (State ι κ μ) :=
  let t := s.threads i
  match t.todo with
  | [] =>
    match t.calls with
    | [] => none
    | m :: ms => some (s.set i { t with todo := script m, calls := ms })
  | .acquire k :: ops =>
    match s.owner k with
    | none =>
      some { s.set i { t with guards := k :: t.guards, todo := ops } with
        owner := Function.update s.owner k (some i) }
    | some _ => none
  | .release k :: ops =>
    some { s.set i { t with guards := t.guards.filter (· ≠ k), todo := ops } with
      owner := Function.update s.owner k none }

theorem step_cases {i : ι} (h : step script s i = some s') :
    (∃ m ms, (s.threads i).todo = [] ∧ (s.threads i).calls = m :: ms ∧
      s' = s.set i ⟨(s.threads i).guards, script m, ms⟩) ∨
    (∃ k ops, (s.threads i).todo = .acquire k :: ops ∧ s.owner k = none ∧
      s' = { s.set i ⟨k :: (s.threads i).guards, ops, (s.threads i).calls⟩ with
        owner := Function.update s.owner k (some i) }) ∨
    (∃ k ops, (s.threads i).todo = .release k :: ops ∧
      s' = { s.set i ⟨(s.threads i).guards.filter (· ≠ k), ops, (s.threads i).calls⟩ with
        owner := Function.update s.owner k none }) := by
  unfold step at h
  dsimp only at h
  split at h
  · next htodo =>
    split at h
    · exact nomatch h
    · next m ms hcalls => exact .inl ⟨m, ms, htodo, hcalls, (Option.some.inj h).symm⟩
  · next k ops htodo =>
    split at h
    · next howner => exact .inr (.inl ⟨k, ops, htodo, howner, (Option.some.inj h).symm⟩)
    · exact nomatch h
  · next k ops htodo => exact .inr (.inr ⟨k, ops, htodo, (Option.some.inj h).symm⟩)

theorem step_begin {i : ι} {guards : List κ} {m : μ} {ms : List μ}
    (hi : s.threads i = ⟨guards, [], m :: ms⟩) :
    step script s i = some (s.set i ⟨guards, script m, ms⟩) := by
  simp [step, hi]

theorem step_acquire {i : ι} {guards : List κ} {k : κ} {ops : List (LockOp κ)} {ms : List μ}
    (hi : s.threads i = ⟨guards, .acquire k :: ops, ms⟩) (hfree : s.owner k = none) :
    step script s i = some
      ⟨Function.update s.owner k (some i), Function.update s.threads i ⟨k :: guards, ops, ms⟩⟩ := by
  simp [step, hi, hfree, State.set]

theorem step_release {i : ι} {guards : List κ} {k : κ} {ops : List (LockOp κ)} {ms : List μ}
    (hi : s.threads i = ⟨guards, .release k :: ops, ms⟩) :
    step script s i = some
      ⟨Function.update s.owner k none,
        Function.update s.threads i ⟨guards.filter (· ≠ k), ops, ms⟩⟩ := by
  simp [step, hi, State.set]

/-! ### What the threads own -/

structure ThreadInv (script : μ → List (LockOp κ)) (calls : List μ) (t : Thread κ μ) : Prop where
  wellFormed : WellFormed t.guards t.todo
  requests : ∀ r ∈ requests t.guards t.todo, ∃ m ∈ calls, r ∈ LockScript.requests [] (script m)
  calls : ∀ m ∈ t.calls, m ∈ calls

structure Inv (script : μ → List (LockOp κ)) (calls : ι → List μ) (s : State ι κ μ) : Prop where
  owner_iff : ∀ k i, s.owner k = some i ↔ k ∈ (s.threads i).guards
  thread : ∀ i, ThreadInv script (calls i) (s.threads i)

omit [DecidableEq ι] in
theorem inv_start : Inv script calls (State.start calls : State ι κ μ) where
  owner_iff k i := by simp [State.start]
  thread i := ⟨rfl, fun _ h => absurd h (List.not_mem_nil), fun _ h => h⟩

omit [DecidableEq κ] in
theorem forall_set {P : ι → Thread κ μ → Prop} (h : ∀ j, P j (s.threads j)) {i : ι}
    {t : Thread κ μ} (ht : P i t) : ∀ j, P j ((s.set i t).threads j) :=
  (Function.forall_update_iff s.threads P).mpr ⟨ht, fun j _ => h j⟩

theorem Inv.step (hscript : ∀ m, WellFormed [] (script m)) (h : Inv script calls s) {i : ι}
    (hstep : step script s i = some s') : Inv script calls s' := by
  obtain ⟨hwf, hreq, hcall⟩ := h.thread i
  obtain ⟨m, ms, htodo, hcalls, rfl⟩ | ⟨k, ops, htodo, hfree, rfl⟩ | ⟨k, ops, htodo, rfl⟩ :=
    step_cases hstep
  · -- between two calls a thread owns nothing
    rw [htodo] at hwf
    have hguards : (s.threads i).guards = [] := hwf
    rw [hcalls] at hcall
    refine ⟨fun l j => ?_, forall_set h.thread ⟨?_, ?_, ?_⟩⟩
    · rw [show (s.set i _).owner = s.owner from rfl, h.owner_iff]
      by_cases hj : j = i
      · simp [State.set, hj]
      · simp [State.set, hj]
    · rw [hguards]
      exact hscript m
    · rw [hguards]
      exact fun r hr => ⟨m, hcall m (List.mem_cons_self ..), hr⟩
    · exact fun x hx => hcall x (List.mem_cons_of_mem _ hx)
  · rw [htodo] at hwf hreq
    refine ⟨fun l j => ?_, forall_set h.thread ⟨hwf.2, ?_, hcall⟩⟩
    · by_cases hl : l = k
      · have hnot : k ∉ (s.threads j).guards := by
          rw [← h.owner_iff, hfree]
          exact fun hne => nomatch hne
        by_cases hj : j = i
        · simp [State.set, hl, hj]
        · simp [State.set, hl, hj, hnot, Ne.symm hj]
      · by_cases hj : j = i
        · simp [State.set, hl, hj, h.owner_iff]
        · simp [State.set, hl, hj, h.owner_iff]
    · exact fun r hr => hreq r (List.mem_cons_of_mem _ hr)
  · rw [htodo] at hwf hreq
    refine ⟨fun l j => ?_, forall_set h.thread ⟨hwf.2, hreq, hcall⟩⟩
    have howner : s.owner k = some i := (h.owner_iff k i).mpr hwf.1
    by_cases hl : l = k
    · by_cases hj : j = i
      · simp [State.set, hl, hj]
      · -- nobody else owned the lock that is released
        have hnot : k ∉ (s.threads j).guards := by
          rw [← h.owner_iff, howner]
          exact fun heq => hj (Option.some.inj heq).symm
        simp [State.set, hl, hj, hnot]
    · by_cases hj : j = i
      · simp [State.set, hl, hj, h.owner_iff]
      · simp [State.set, hl, hj, h.owner_iff]

theorem inv_reachable (hscript : ∀ m, WellFormed [] (script m))
    (h : Lts.Reachable (step script) (State.start calls) s) : Inv script calls s :=
  h.invariant inv_start (fun _ _ _ hinv _ hstep => hinv.step hscript hstep)

omit [DecidableEq ι] in
/-- In a deadlock two threads ask for a lock while they own one, and the first asks for a lock the
second owns. -/
theorem Deadlock.crossing (hinv : Inv script calls s) (h : Deadlock s) :
    ∃ i j, i ≠ j ∧ ∃ m ∈ calls i, ∃ m' ∈ calls j, ∃ guards k guards' k',
      guards ≠ [] ∧ (guards, k) ∈ requests [] (script m) ∧
      k ∈ guards' ∧ (guards', k') ∈ requests [] (script m') := by
  obtain ⟨S, ⟨i₀, hi₀⟩, hS⟩ := h
  obtain ⟨k₀, -, i, hi, -, howner⟩ := hS i₀ hi₀
  obtain ⟨k, ⟨ops, htodo⟩, j, hj, hne, howner'⟩ := hS i hi
  obtain ⟨k', ⟨ops', htodo'⟩, -⟩ := hS j hj
  have hmem := (hinv.owner_iff k₀ i).mp howner
  have hmem' := (hinv.owner_iff k j).mp howner'
  obtain ⟨m, hm, hreq⟩ := (hinv.thread i).requests ((s.threads i).guards, k)
    (by rw [htodo]; exact List.mem_cons_self ..)
  obtain ⟨m', hm', hreq'⟩ := (hinv.thread j).requests ((s.threads j).guards, k')
    (by rw [htodo']; exact List.mem_cons_self ..)
  exact ⟨i, j, hne.symm, m, hm, m', hm', _, k, _, k', List.ne_nil_of_mem hmem, hreq, hmem', hreq'⟩

/-! ### A thread that runs alone -/

def ownedBy (i : ι) (guards : List κ) : κ → Option ι := fun k =>
  if k ∈ guards then some i else none

/-- The state in which all locks taken are those of thread `i`. -/
def solo (threads : ι → Thread κ μ) (i : ι) (t : Thread κ μ) : State ι κ μ :=
  ⟨ownedBy i t.guards, Function.update threads i t⟩

variable {threads : ι → Thread κ μ} {i : ι} {guards : List κ} {ops : List (LockOp κ)} {ms : List μ}

theorem step_solo_begin {m : μ} : step script (solo threads i ⟨[], [], m :: ms⟩) i =
    some (solo threads i ⟨[], script m, ms⟩) := by
  rw [step_begin (Function.update_self ..)]
  simp [State.set, solo]

theorem step_solo_acquire {k : κ} (hk : k ∉ guards) :
    step script (solo threads i ⟨guards, .acquire k :: ops, ms⟩) i =
      some (solo threads i ⟨k :: guards, ops, ms⟩) := by
  have howner : Function.update (ownedBy i guards) k (some i) = ownedBy i (k :: guards) := by
    funext l
    by_cases hl : l = k
    · simp [ownedBy, hl]
    · simp [ownedBy, hl]
  rw [step_acquire (Function.update_self ..) (if_neg hk)]
  simp [solo, howner]

theorem step_solo_release {k : κ} :
    step script (solo threads i ⟨guards, .release k :: ops, ms⟩) i =
      some (solo threads i ⟨guards.filter (· ≠ k), ops, ms⟩) := by
  have howner : Function.update (ownedBy i guards) k none =
      ownedBy i (guards.filter (· ≠ k)) := by
    funext l
    by_cases hl : l = k
    · simp [ownedBy, hl]
    · simp [ownedBy, hl]
  rw [step_release (Function.update_self ..)]
  simp only [solo, Function.update_idem, howner]

theorem solo_finish (hwf : WellFormed guards ops) :
    Lts.Reachable (step script) (solo threads i ⟨guards, ops, ms⟩)
      (solo threads i ⟨[], [], ms⟩) := by
  induction ops generalizing guards with
  | nil =>
    have hguards : guards = [] := hwf
    rw [hguards]
    exact .start
  | cons op ops ih =>
    cases op with
    | acquire k => exact (Lts.Reach.start.snoc (step_solo_acquire hwf.1)).trans (ih hwf.2)
    | release k => exact (Lts.Reach.start.snoc step_solo_release).trans (ih hwf.2)

theorem solo_skip (hscript : ∀ m, WellFormed [] (script m)) (past : List μ) :
    Lts.Reachable (step script) (solo threads i ⟨[], [], past ++ ms⟩)
      (solo threads i ⟨[], [], ms⟩) := by
  induction past with
  | nil => exact .start
  | cons m past ih =>
    exact ((Lts.Reach.start.snoc step_solo_begin).trans (solo_finish (hscript m))).trans ih

theorem solo_eq {s : State ι κ μ} (hfree : s.owner = fun _ => none)
    (hi : s.threads i = ⟨[], [], ms⟩) : solo s.threads i ⟨[], [], ms⟩ = s := by
  have howner : ownedBy i [] = s.owner := by
    rw [hfree]
    rfl
  unfold solo
  rw [← hi, Function.update_eq_self, hi, howner]

/-- Two threads, each with a call that takes two locks in the opposite order of the other's, can
reach a deadlock. -/
theorem deadlock_of_crossing (hscript : ∀ m, WellFormed [] (script m)) {i j : ι} (hij : i ≠ j)
    {m m' : μ} (hm : m ∈ calls i) (hm' : m' ∈ calls j) {k l : κ} {ops ops' : List (LockOp κ)}
    (hfirst : script m = .acquire k :: .acquire l :: ops)
    (hsecond : script m' = .acquire l :: .acquire k :: ops') :
    ∃ s : State ι κ μ, Lts.Reachable (step script) (State.start calls) s ∧ Deadlock s := by
  obtain ⟨past, ms, hcalls⟩ := List.append_of_mem hm
  obtain ⟨past', ms', hcalls'⟩ := List.append_of_mem hm'
  have hlk : l ≠ k := by
    have hwf := hscript m
    rw [hfirst] at hwf
    exact fun h => hwf.2.1 (h ▸ List.mem_cons_self ..)
  -- each of the two runs alone until its call is next
  let threads₀ : ι → Thread κ μ := fun i => ⟨[], [], calls i⟩
  let s₁ : State ι κ μ := solo threads₀ i ⟨[], [], m :: ms⟩
  let s₂ : State ι κ μ := solo s₁.threads j ⟨[], [], m' :: ms'⟩
  have h₁ : Lts.Reachable (step script) (State.start calls) s₁ := by
    rw [← solo_eq (s := State.start calls) (i := i) rfl rfl, hcalls]
    exact solo_skip hscript past
  have h₂ : Lts.Reachable (step script) s₁ s₂ := by
    have hj : s₁.threads j = ⟨[], [], past' ++ m' :: ms'⟩ := by
      simp [s₁, solo, threads₀, hij.symm, hcalls']
    have hrun : Lts.Reachable (step script) (solo s₁.threads j ⟨[], [], past' ++ m' :: ms'⟩) s₂ :=
      solo_skip hscript past'
    rwa [solo_eq (by funext; rfl) hj] at hrun
  -- then both take their first lock
  let s₃ : State ι κ μ := solo s₂.threads i ⟨[k], .acquire l :: ops, ms⟩
  have h₃ : Lts.Reachable (step script) s₂ s₃ := by
    have hi : s₂.threads i = ⟨[], [], m :: ms⟩ := by
      simp [s₂, s₁, solo, hij]
    rw [← solo_eq (s := s₂) (by funext; rfl) hi]
    have hbegin : step script (solo s₂.threads i ⟨[], [], m :: ms⟩) i =
        some (solo s₂.threads i ⟨[], script m, ms⟩) := step_solo_begin
    rw [hfirst] at hbegin
    exact (Lts.Reach.start.snoc hbegin).snoc (step_solo_acquire List.not_mem_nil)
  have hj : s₃.threads j = ⟨[], [], m' :: ms'⟩ := by
    simp [s₃, s₂, solo, hij.symm]
  let s₄ : State ι κ μ := s₃.set j ⟨[], .acquire l :: .acquire k :: ops', ms'⟩
  have h₄ : step script s₃ j = some s₄ := by
    rw [step_begin hj, hsecond]
  let s₅ : State ι κ μ :=
    ⟨Function.update s₄.owner l (some j),
      Function.update s₄.threads j ⟨[l], .acquire k :: ops', ms'⟩⟩
  have h₅ : step script s₄ j = some s₅ := by
    refine step_acquire (Function.update_self ..) ?_
    simp [s₄, State.set, s₃, solo, ownedBy, hlk]
  have hik : s₅.owner k = some i := by
    simp [s₅, s₄, State.set, s₃, solo, ownedBy, hlk.symm]
  have hjl : s₅.owner l = some j := by
    simp [s₅]
  have hdead : Deadlock s₅ := by
    refine ⟨{i, j}, ⟨i, Set.mem_insert ..⟩, ?_⟩
    rintro x (rfl | rfl)
    · exact ⟨l, ⟨ops, by simp [s₅, s₄, State.set, s₃, solo, hij]⟩, j,
        Set.mem_insert_of_mem _ (Set.mem_singleton j), hij.symm, hjl⟩
    · exact ⟨k, ⟨ops', by simp [s₅]⟩, i, Set.mem_insert .., hij, hik⟩
  exact ⟨s₅, (((h₁.trans h₂).trans h₃).snoc h₄).snoc h₅, hdead⟩

end LockScript
