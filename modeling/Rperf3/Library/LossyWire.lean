import Rperf3.Library.Lts
import Rperf3.Library.SharedRun
import Mathlib.Data.List.Sublists
import Mathlib.Logic.Function.Basic

/-!
# A lossy wire

Items of several lanes share a wire. The next item of a lane arrives or is lost,
the lanes in any interleaving. What has arrived of a lane is a sublist of what
was sent on it, in order (`sublist_of_reachable`).
-/

namespace LossyWire
open SharedRun (own own_append own_cons_self own_cons_ne)

variable {ι α : Type*}

structure State (ι α : Type*) where
  pending : ι → List α
  arrived : List (ι × α)

inductive Action (ι : Type*) where
  | deliver (i : ι)
  | lose (i : ι)
  deriving DecidableEq

def start (sent : ι → List α) : State ι α := ⟨sent, []⟩

variable [DecidableEq ι]

def step (s : State ι α) : Action ι → Option (State ι α)
  | .deliver i =>
    match s.pending i with
    | [] => none
    | a :: rest => some ⟨Function.update s.pending i rest, s.arrived ++ [(i, a)]⟩
  | .lose i =>
    match s.pending i with
    | [] => none
    | _ :: rest => some ⟨Function.update s.pending i rest, s.arrived⟩

variable {sent : ι → List α} {s s' : State ι α}

theorem step_cases {x : Action ι} (h : step s x = some s') :
    (∃ i a rest, s.pending i = a :: rest ∧
        s' = ⟨Function.update s.pending i rest, s.arrived ++ [(i, a)]⟩) ∨
      ∃ i a rest, s.pending i = a :: rest ∧
        s' = ⟨Function.update s.pending i rest, s.arrived⟩ := by
  cases x with
  | deliver i =>
    rw [step] at h
    cases hp : s.pending i with
    | nil =>
      rw [hp] at h
      cases h
    | cons a rest =>
      rw [hp] at h
      exact .inl ⟨i, a, rest, hp, (Option.some.inj h).symm⟩
  | lose i =>
    rw [step] at h
    cases hp : s.pending i with
    | nil =>
      rw [hp] at h
      cases h
    | cons a rest =>
      rw [hp] at h
      exact .inr ⟨i, a, rest, hp, (Option.some.inj h).symm⟩

/-- What arrived of a lane is a sublist of what has left it. -/
def Inv (sent : ι → List α) (s : State ι α) : Prop :=
  ∀ i, ∃ left, sent i = left ++ s.pending i ∧ (own i s.arrived).Sublist left

theorem inv_start (sent : ι → List α) : Inv sent (start sent) :=
  fun _ => ⟨[], rfl, .slnil⟩

theorem inv_step {x : Action ι} (h : Inv sent s) (hs : step s x = some s') : Inv sent s' := by
  intro j
  obtain ⟨left, hsent, hsub⟩ := h j
  rcases step_cases hs with ⟨i, a, rest, hp, rfl⟩ | ⟨i, a, rest, hp, rfl⟩
  · by_cases hj : j = i
    · subst hj
      rw [hp] at hsent
      refine ⟨left ++ [a], ?_, ?_⟩
      · simp only [hsent, Function.update_self, List.append_assoc, List.cons_append,
          List.nil_append]
      · rw [own_append, own_cons_self]
        exact hsub.append (List.Sublist.refl [a])
    · refine ⟨left, by simp only [hsent, Function.update_of_ne hj], ?_⟩
      rw [own_append, own_cons_ne (Ne.symm hj)]
      exact (List.append_nil _).symm ▸ hsub
  · by_cases hj : j = i
    · subst hj
      rw [hp] at hsent
      refine ⟨left ++ [a], ?_, hsub.trans (List.sublist_append_left left [a])⟩
      simp only [hsent, Function.update_self, List.append_assoc, List.cons_append,
        List.nil_append]
    · exact ⟨left, by simp only [hsent, Function.update_of_ne hj], hsub⟩

theorem sublist_of_reachable (h : Lts.Reachable step (start sent) s) (i : ι) :
    (own i s.arrived).Sublist (sent i) := by
  obtain ⟨left, hsent, hsub⟩ :=
    h.invariant (inv_start sent) (fun _ _ _ hinv _ hs => inv_step hinv hs) i
  rw [hsent]
  exact hsub.trans (List.sublist_append_left left _)

end LossyWire
