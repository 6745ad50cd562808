import Mathlib.Order.WellFounded

/-!
# Partial step functions and their runs

A system is a partial step function on states. `Reach` is what can be reached
from a state when every step meets a condition; with no condition it is plain
reachability.
-/

namespace Lts

variable {σ α : Type*}

inductive Reach (step : σ → α → Option σ) (ok : σ → α → Prop) (s₀ : σ) : σ → Prop
  | start : Reach step ok s₀ s₀
  | next {s a s'} : Reach step ok s₀ s → ok s a → step s a = some s' → Reach step ok s₀ s'

abbrev Reachable (step : σ → α → Option σ) (s₀ s : σ) : Prop :=
  Reach step (fun _ _ => True) s₀ s

variable {step : σ → α → Option σ} {ok : σ → α → Prop} {s₀ s : σ}

/-- What holds at the start and is kept by every allowed step holds of all states reached. -/
theorem Reach.invariant {I : σ → Prop} (h : Reach step ok s₀ s) (hstart : I s₀)
    (hstep : ∀ s a s', I s → ok s a → step s a = some s' → I s') : I s := by
  induction h with
  | start => exact hstart
  | next _ hok hs ih => exact hstep _ _ _ ih hok hs

theorem Reach.strengthen {ok' : σ → α → Prop} (h : Reach step ok s₀ s)
    (himp : ∀ s a, Reach step ok s₀ s → ok s a → ok' s a) : Reach step ok' s₀ s := by
  induction h with
  | start => exact .start
  | next hreach hok hs ih => exact ih.next (himp _ _ hreach hok) hs

theorem Reach.snoc {a : α} {s' : σ} (h : Reachable step s₀ s) (hs : step s a = some s') :
    Reachable step s₀ s' :=
  .next h trivial hs

theorem Reach.trans {s' : σ} (h : Reach step ok s₀ s) (h' : Reach step ok s s') :
    Reach step ok s₀ s' := by
  induction h' with
  | start => exact h
  | next _ hok hs ih => exact ih.next hok hs

/-- Where some step always brings a rank down until the goal is met, the goal can be reached. -/
theorem Reach.attains {γ : Type*} [LT γ] [WellFoundedLT γ] (rank : σ → γ) {I goal : σ → Prop}
    (hdown : ∀ s, Reach step ok s₀ s → I s → ¬ goal s →
      ∃ a s', ok s a ∧ step s a = some s' ∧ I s' ∧ rank s' < rank s)
    (h : Reach step ok s₀ s) (hI : I s) : ∃ s', Reach step ok s s' ∧ goal s' := by
  induction hr : rank s using WellFoundedLT.induction generalizing s with
  | ind r ih =>
    by_cases hgoal : goal s
    · exact ⟨s, .start, hgoal⟩
    · obtain ⟨a, s', hok, hs, hI', hlt⟩ := hdown s h hI hgoal
      obtain ⟨s'', hreach, hgoal'⟩ := ih (rank s') (hr ▸ hlt) (h.next hok hs) hI' rfl
      have hfirst : Reach step ok s s' := Reach.start.next hok hs
      exact ⟨s'', hfirst.trans hreach, hgoal'⟩

/-- The state after a list of actions, if all of them are possible and allowed. -/
def run (step : σ → α → Option σ) (ok : σ → α → Prop) [∀ s a, Decidable (ok s a)] :
    σ → List α → Option σ
  | s, [] => some s
  | s, a :: as => if ok s a then (step s a).bind (fun s' => run step ok s' as) else none

theorem Reach.run [∀ s a, Decidable (ok s a)] {as : List α} {s' : σ} (h : Reach step ok s₀ s)
    (hr : Lts.run step ok s as = some s') : Reach step ok s₀ s' := by
  induction as generalizing s with
  | nil =>
    cases hr
    exact h
  | cons a as ih =>
    obtain ⟨hok, hnext⟩ := Option.ite_none_right_eq_some.mp hr
    obtain ⟨t, ht, hrest⟩ := Option.bind_eq_some_iff.mp hnext
    exact ih (h.next hok ht) hrest

end Lts
