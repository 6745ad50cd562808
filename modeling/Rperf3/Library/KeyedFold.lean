import Mathlib.Algebra.BigOperators.Group.Finset.Basic
import Mathlib.Logic.Function.Basic

/-!
# One machine per key

A stream of events is split by a key, each key has its own machine, started
lazily at the key's first event, and all machines add to one shared total in a
commutative monoid. `runKeyed` is that shared run; `run` is one machine alone.
The shared run is determined by the runs on the subsequences of the keys
(`runKeyed_state`, `runKeyed_total`), so the order in which events of different
keys arrive does not matter (`runKeyed_congr`).
-/

namespace KeyedFold

variable {κ α σ ω : Type*} [AddCommMonoid ω]

/-- One event: from the state so far (`none` before the first event) to the new state and the
contribution to the total. -/
abbrev Machine (α σ ω : Type*) := Option σ → α → σ × ω

def run (step : Machine α σ ω) : Option σ → List α → Option σ × ω
  | s, [] => (s, 0)
  | s, a :: as =>
    let r := step s a
    let rs := run step (some r.1) as
    (rs.1, r.2 + rs.2)

theorem run_cons (step : Machine α σ ω) (s : Option σ) (a : α) (as : List α) :
    run step s (a :: as) =
      ((run step (some (step s a).1) as).1, (step s a).2 + (run step (some (step s a).1) as).2) :=
  rfl

/-- A machine that another one simulates, input by input, gives the same total and a related
final state. -/
theorem run_simulation {β τ : Type*} {step : Machine α σ ω} {step' : Machine β τ ω}
    {state : σ → τ} {input : α → β} (legal : α → Prop)
    (hstep : ∀ s a, legal a →
      step' (s.map state) (input a) = (state (step s a).1, (step s a).2))
    (s : Option σ) (as : List α) (has : ∀ a ∈ as, legal a) :
    run step' (s.map state) (as.map input) =
      ((run step s as).1.map state, (run step s as).2) := by
  induction as generalizing s with
  | nil => rfl
  | cons a as ih =>
    have ha := hstep s a (has a (List.mem_cons_self ..))
    have hrest := ih (some (step s a).1) (fun x hx => has x (List.mem_cons_of_mem _ hx))
    rw [List.map_cons, run_cons, run_cons, ha]
    simp only [Option.map_some] at hrest
    simp only [hrest]

section Keyed

variable [DecidableEq κ] (key : α → κ) (step : Machine α σ ω)

def eventsOf (k : κ) (as : List α) : List α := as.filter (fun a => key a = k)

def runKeyed : (κ → Option σ) → List α → (κ → Option σ) × ω
  | m, [] => (m, 0)
  | m, a :: as =>
    let r := step (m (key a)) a
    let rs := runKeyed (Function.update m (key a) (some r.1)) as
    (rs.1, r.2 + rs.2)

variable {key step}

theorem eventsOf_cons_self {k : κ} {a : α} (h : key a = k) (as : List α) :
    eventsOf key k (a :: as) = a :: eventsOf key k as := by
  simp only [eventsOf, List.filter_cons, h, decide_true, ite_true]

theorem eventsOf_cons_ne {k : κ} {a : α} (h : key a ≠ k) (as : List α) :
    eventsOf key k (a :: as) = eventsOf key k as := by
  simp only [eventsOf, List.filter_cons, h, decide_false, Bool.false_eq_true, ite_false]

theorem mem_eventsOf {k : κ} {a : α} {as : List α} :
    a ∈ eventsOf key k as ↔ a ∈ as ∧ key a = k := by
  simp only [eventsOf, List.mem_filter, decide_eq_true_eq]

theorem eventsOf_swap {a b : α} (h : key a ≠ key b) (as : List α) {k : κ} :
    eventsOf key k (a :: b :: as) = eventsOf key k (b :: a :: as) := by
  by_cases ha : key a = k
  · have hb : key b ≠ k := fun hb => h (ha.trans hb.symm)
    rw [eventsOf_cons_self ha, eventsOf_cons_ne hb, eventsOf_cons_ne hb, eventsOf_cons_self ha]
  · rw [eventsOf_cons_ne ha]
    by_cases hb : key b = k
    · rw [eventsOf_cons_self hb, eventsOf_cons_self hb, eventsOf_cons_ne ha]
    · rw [eventsOf_cons_ne hb, eventsOf_cons_ne hb, eventsOf_cons_ne ha]

theorem runKeyed_state (m : κ → Option σ) (as : List α) (k : κ) :
    (runKeyed key step m as).1 k = (run step (m k) (eventsOf key k as)).1 := by
  induction as generalizing m with
  | nil => rfl
  | cons a as ih =>
    have h := ih (Function.update m (key a) (some (step (m (key a)) a).1))
    by_cases hk : key a = k
    · subst hk
      rw [Function.update_self] at h
      rw [eventsOf_cons_self rfl, run_cons]
      exact h
    · rw [Function.update_of_ne (Ne.symm hk)] at h
      rw [eventsOf_cons_ne hk]
      exact h

variable (key step) in
/-- The shared total is the sum over the keys of what each machine contributes alone. -/
theorem runKeyed_total (m : κ → Option σ) (as : List α) (ks : Finset κ)
    (hks : ∀ a ∈ as, key a ∈ ks) :
    (runKeyed key step m as).2 = ∑ k ∈ ks, (run step (m k) (eventsOf key k as)).2 := by
  induction as generalizing m with
  | nil => exact (Finset.sum_eq_zero (fun k _ => rfl)).symm
  | cons a as ih =>
    have ha : key a ∈ ks := hks a (List.mem_cons_self ..)
    have hrest := ih (Function.update m (key a) (some (step (m (key a)) a).1))
      (fun x hx => hks x (List.mem_cons_of_mem _ hx))
    have hsplit := Finset.add_sum_erase ks
      (fun k => (run step (m k) (eventsOf key k (a :: as))).2) ha
    have hsplit' := Finset.add_sum_erase ks
      (fun k => (run step (Function.update m (key a) (some (step (m (key a)) a).1) k)
        (eventsOf key k as)).2) ha
    have hothers : ∀ k ∈ ks.erase (key a),
        (run step (Function.update m (key a) (some (step (m (key a)) a).1) k)
          (eventsOf key k as)).2 = (run step (m k) (eventsOf key k (a :: as))).2 := by
      intro k hk
      have hne : key a ≠ k := (Finset.ne_of_mem_erase hk).symm
      rw [Function.update_of_ne hne.symm, eventsOf_cons_ne hne]
    rw [← hsplit, eventsOf_cons_self rfl, run_cons]
    simp only [runKeyed, hrest]
    rw [← hsplit', Function.update_self, Finset.sum_congr rfl hothers, add_assoc]

theorem runKeyed_congr (m : κ → Option σ) (as bs : List α)
    (h : ∀ k, eventsOf key k as = eventsOf key k bs) :
    runKeyed key step m as = runKeyed key step m bs := by
  have hmem : ∀ b ∈ bs, b ∈ as := by
    intro b hb
    have hbk : b ∈ eventsOf key (key b) bs := mem_eventsOf.mpr ⟨hb, rfl⟩
    rw [← h] at hbk
    exact (mem_eventsOf.mp hbk).1
  refine Prod.ext (funext fun k => ?_) ?_
  · rw [runKeyed_state, runKeyed_state, h]
  · have hks : ∀ a ∈ as, key a ∈ (as.map key).toFinset :=
      fun a ha => List.mem_toFinset.mpr (List.mem_map_of_mem ha)
    rw [runKeyed_total key step m as _ hks,
      runKeyed_total key step m bs _ (fun b hb => hks b (hmem b hb))]
    exact Finset.sum_congr rfl (fun k _ => by rw [h])

variable (key) in
theorem length_eq_sum_eventsOf (as : List α) (ks : Finset κ) (hks : ∀ a ∈ as, key a ∈ ks) :
    as.length = ∑ k ∈ ks, (eventsOf key k as).length := by
  have hcount : ∀ (s : Option Unit) (bs : List α),
      (run (fun _ _ => ((), 1)) s bs).2 = bs.length := by
    intro s bs
    induction bs generalizing s with
    | nil => rfl
    | cons b bs ih => rw [run_cons, ih, List.length_cons, Nat.add_comm]
  have hkeyed : ∀ (m : κ → Option Unit) (bs : List α),
      (runKeyed key (fun _ _ => ((), 1)) m bs).2 = bs.length := by
    intro m bs
    induction bs generalizing m with
    | nil => rfl
    | cons b bs ih => simp only [runKeyed, ih, List.length_cons, Nat.add_comm]
  have h := runKeyed_total key (fun _ _ => ((), 1)) (fun _ => none) as ks hks
  simp only [hkeyed, hcount] at h
  exact h

theorem perm_of_eventsOf (as bs : List α) (h : ∀ k, eventsOf key k as = eventsOf key k bs) :
    as.Perm bs := by
  classical
  refine List.perm_iff_count.mpr (fun a => ?_)
  have hc : ∀ cs : List α, cs.count a = (eventsOf key (key a) cs).count a := by
    intro cs
    exact (List.count_filter (by simp)).symm
  rw [hc as, hc bs, h]

end Keyed

end KeyedFold
