import Mathlib.Algebra.BigOperators.Group.Finset.Piecewise
import Mathlib.Algebra.BigOperators.Group.Finset.Basic

/-!
# A counter that several parties add to

Every party holds back part of what it has counted and adds it to the shared
counter in a step of its own. `Balanced` says that the counter and what is held
back make up the total; a step of one party keeps it when that party's own
account is right. When nobody holds anything back, the counter is the total.
-/

namespace SharedCounter

variable {ι β M : Type*} [Fintype ι] [AddCommMonoid M]

def Balanced (counter : M) (held : ι → M) (total : M) : Prop := counter + ∑ i, held i = total

theorem balanced_start {held : ι → M} (h : ∀ i, held i = 0) : Balanced 0 held 0 := by
  unfold Balanced
  rw [Finset.sum_eq_zero (fun i _ => h i), add_zero]

theorem Balanced.settled {held : ι → M} {counter total : M} (h : Balanced counter held total)
    (hnone : ∀ i, held i = 0) : counter = total := by
  unfold Balanced at h
  rwa [Finset.sum_eq_zero (fun i _ => hnone i), add_zero] at h

variable [DecidableEq ι]

theorem sum_eq_add_rest (held : ι → M) (i : ι) :
    ∑ j, held j = held i + ∑ j ∈ Finset.univ \ {i}, held j := by
  rw [← Finset.sum_update_of_mem (Finset.mem_univ i), Function.update_eq_self]

theorem Balanced.step {ws : ι → β} {held : β → M} {counter total : M}
    (h : Balanced counter (fun j => held (ws j)) total) {i : ι} {w : β} {added received : M}
    (hown : added + held w = held (ws i) + received) :
    Balanced (counter + added) (fun j => held (Function.update ws i w j)) (total + received) := by
  have hupdate : (fun j => held (Function.update ws i w j)) =
      Function.update (fun j => held (ws j)) i (held w) := by
    funext j
    exact Function.apply_update (fun _ => held) ws i w j
  unfold Balanced at h ⊢
  rw [hupdate, Finset.sum_update_of_mem (Finset.mem_univ i), ← h,
    sum_eq_add_rest (fun j => held (ws j)) i]
  calc counter + added + (held w + ∑ j ∈ Finset.univ \ {i}, held (ws j))
      = counter + (added + held w) + ∑ j ∈ Finset.univ \ {i}, held (ws j) := by
        simp only [add_assoc]
    _ = counter + (held (ws i) + received) + ∑ j ∈ Finset.univ \ {i}, held (ws j) := by
        rw [hown]
    _ = counter + (held (ws i) + ∑ j ∈ Finset.univ \ {i}, held (ws j)) + received := by
        simp only [add_assoc, add_comm received]

theorem Balanced.move {ws : ι → β} {held : β → M} {counter total : M}
    (h : Balanced counter (fun j => held (ws j)) total) {i : ι} {w : β} {added : M}
    (hown : added + held w = held (ws i)) :
    Balanced (counter + added) (fun j => held (Function.update ws i w j)) total := by
  have hstep := h.step (i := i) (w := w) (hown.trans (add_zero _).symm)
  rwa [add_zero] at hstep

/-- When the total is a sum over the parties, what one of them has received goes into its part. -/
theorem Balanced.step_part {γ : Type*} {ws : ι → β} {held : β → M} {accounts : ι → γ}
    {part : γ → M} {counter : M}
    (h : Balanced counter (fun j => held (ws j)) (∑ j, part (accounts j))) {i : ι} {w : β} {a : γ}
    {added received : M} (hown : added + held w = held (ws i) + received)
    (hpart : part a = part (accounts i) + received) :
    Balanced (counter + added) (fun j => held (Function.update ws i w j))
      (∑ j, part (Function.update accounts i a j)) := by
  have hupdate : (fun j => part (Function.update accounts i a j)) =
      Function.update (fun j => part (accounts j)) i (part a) := by
    funext j
    exact Function.apply_update (fun _ => part) accounts i a j
  have htotal : ∑ j, part (Function.update accounts i a j) =
      ∑ j, part (accounts j) + received := by
    rw [hupdate, Finset.sum_update_of_mem (Finset.mem_univ i), hpart,
      sum_eq_add_rest (fun j => part (accounts j)) i, add_right_comm]
  rw [htotal]
  exact h.step hown

end SharedCounter
