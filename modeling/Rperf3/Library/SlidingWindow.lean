import Mathlib.Data.List.DropRight

/-!
# A window onto the end of a list

A window is pushed to at its end; one that has reached its capacity first drops its
oldest entry. A window never gets longer than its capacity or its first length,
whichever is more, and what it holds is the end of all it was ever given.
-/

namespace Window

variable {α : Type*} {cap : ℕ}

def push (cap : ℕ) (w : List α) (a : α) : List α :=
  if w.length ≥ cap then w.drop 1 ++ [a] else w ++ [a]

def pushAll (cap : ℕ) (w as : List α) : List α := as.foldl (push cap) w

theorem pushAll_cons (cap : ℕ) (w as : List α) (a : α) :
    pushAll cap w (a :: as) = pushAll cap (push cap w a) as := rfl

theorem length_rtake (l : List α) (n : ℕ) : (l.rtake n).length = min n l.length := by
  rw [List.rtake, List.length_drop]
  omega

theorem rtake_rtake_append (l m : List α) (n : ℕ) :
    (l.rtake n ++ m).rtake n = (l ++ m).rtake n := by
  simp only [List.rtake_eq_reverse_take_reverse, List.reverse_append, List.reverse_reverse,
    List.take_append, List.take_take]
  rw [Nat.min_eq_left (Nat.sub_le n _)]

theorem rtake_of_length_le {l : List α} {n : ℕ} (h : l.length ≤ n) : l.rtake n = l := by
  rw [List.rtake, Nat.sub_eq_zero_of_le h, List.drop_zero]

theorem rtake_min_length (l : List α) (n : ℕ) : l.rtake (min l.length n) = l.rtake n := by
  have hdrop : l.length - min l.length n = l.length - n := by omega
  rw [List.rtake, List.rtake, hdrop]

/-! ### One push -/

theorem push_eq_rtake (hcap : 0 < cap) (w : List α) (a : α) :
    push cap w a = (w ++ [a]).rtake (max cap w.length) := by
  unfold push
  by_cases hfull : w.length ≥ cap
  · have hdrop : (w ++ [a]).length - max cap w.length = 1 := by
      rw [List.length_append, List.length_singleton]
      omega
    rw [if_pos hfull, List.rtake, hdrop, List.drop_append_of_le_length (by omega)]
  · have hfits : (w ++ [a]).length ≤ max cap w.length := by
      rw [List.length_append, List.length_singleton]
      omega
    rw [if_neg hfull, rtake_of_length_le hfits]

/-- The most a window may hold is the same after a push. -/
theorem width_push (hcap : 0 < cap) (w : List α) (a : α) :
    max cap (push cap w a).length = max cap w.length := by
  rw [push_eq_rtake hcap, length_rtake, List.length_append, List.length_singleton]
  omega

/-! ### Any number of pushes -/

theorem pushAll_eq_rtake (hcap : 0 < cap) (w as : List α) :
    pushAll cap w as = (w ++ as).rtake (max cap w.length) := by
  induction as generalizing w with
  | nil => rw [List.append_nil, rtake_of_length_le (Nat.le_max_right ..), pushAll, List.foldl_nil]
  | cons a as ih =>
    rw [pushAll_cons, ih, width_push hcap, push_eq_rtake hcap, rtake_rtake_append,
      List.append_assoc, List.singleton_append]

theorem length_pushAll (hcap : 0 < cap) (w as : List α) :
    (pushAll cap w as).length = min (max cap w.length) (w.length + as.length) := by
  rw [pushAll_eq_rtake hcap, length_rtake, List.length_append]

end Window
