import Mathlib.Algebra.Order.Field.Basic
import Mathlib.Data.List.Range
import Mathlib.Tactic.Linarith
import Mathlib.Tactic.Ring

/-!
# Smoothing filters

A filter moves a running value by a part of its distance to each sample. Fed with one
sample over and over, its distance to that sample shrinks by the same factor every
time; a value that starts at the sample stays there.
-/

namespace Smoothing

/-- The running values of a filter, without the first one. -/
def trace {α β : Type*} (step : α → β → α) : α → List β → List α
  | _, [] => []
  | a, x :: xs => step a x :: trace step (step a x) xs

theorem length_trace {α β : Type*} (step : α → β → α) (a : α) (xs : List β) :
    (trace step a xs).length = xs.length := by
  induction xs generalizing a with
  | nil => rfl
  | cons x xs ih => rw [trace, List.length_cons, List.length_cons, ih]

variable {K : Type*} [Field K]

def toward (r a x : K) : K := a + r * (x - a)

theorem sub_toward (r a x : K) : x - toward r a x = (1 - r) * (x - a) := by
  unfold toward
  ring

variable [LinearOrder K] [IsStrictOrderedRing K] {r a x : K} {step : K → K → K}

/-- Only the values below the sample matter: the filter never gets past it. -/
theorem trace_replicate (hr : r ≤ 1) (hstep : ∀ a ≤ x, step a x = toward r a x) (ha : a ≤ x)
    (n : ℕ) :
    trace step a (List.replicate n x) =
      (List.range n).map (fun k => x - (1 - r) ^ (k + 1) * (x - a)) := by
  induction n generalizing a with
  | zero => rfl
  | succ n ih =>
    have hsub := sub_toward r a x
    have hnext : toward r a x ≤ x := by
      rw [← sub_nonneg, hsub]
      exact mul_nonneg (sub_nonneg.mpr hr) (sub_nonneg.mpr ha)
    rw [List.replicate_succ, trace, hstep a ha, ih hnext, List.range_succ_eq_map, List.map_cons,
      List.map_map, hsub]
    refine congrArg₂ List.cons ?_ (List.map_congr_left (fun k _ => ?_))
    · rw [Nat.zero_add, pow_one, ← hsub]
      ring
    · rw [Function.comp_apply, ← mul_assoc, ← pow_succ]

theorem trace_self (hr : r ≤ 1) (hstep : ∀ a ≤ x, step a x = toward r a x) (n : ℕ) :
    trace step x (List.replicate n x) = List.replicate n x := by
  rw [trace_replicate hr hstep le_rfl]
  simp only [sub_self, mul_zero, sub_zero, List.map_const', List.length_range]

/-- A value that starts below the sample has left its start after one step. -/
theorem lt_of_mem_trace (hpos : 0 < r) (hr : r ≤ 1) (hstep : ∀ a ≤ x, step a x = toward r a x)
    (ha : a < x) {n : ℕ} {y : K} (hy : y ∈ trace step a (List.replicate n x)) : a < y := by
  rw [trace_replicate hr hstep ha.le] at hy
  obtain ⟨k, -, rfl⟩ := List.mem_map.mp hy
  have hpow : (1 - r) ^ (k + 1) < 1 :=
    pow_lt_one₀ (sub_nonneg.mpr hr) (sub_lt_self 1 hpos) (Nat.succ_ne_zero k)
  have hshrunk : (1 - r) ^ (k + 1) * (x - a) < 1 * (x - a) :=
    mul_lt_mul_of_pos_right hpow (sub_pos.mpr ha)
  linarith

end Smoothing
