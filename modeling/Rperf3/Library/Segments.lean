import Mathlib.Init

/-!
# Cutting a list into segments

A list is read with a state. An element may close the segment it belongs to and
give the state for the next one; what follows the last such element is left over.
-/

namespace Segments

variable {σ α M : Type*} (cut : σ → α → Option σ)

/-- The closed segments and the open one, which starts with `current`. -/
def segments : σ → List α → List α → List (List α) × List α
  | _, current, [] => ([], current)
  | s, current, a :: as =>
    match cut s a with
    | some s' =>
      let rest := segments s' [] as
      ((current ++ [a]) :: rest.1, rest.2)
    | none => segments s (current ++ [a]) as

variable {cut} {s s' : σ} {current as : List α} {a : α}

@[simp] theorem segments_nil : segments cut s current [] = ([], current) := rfl

theorem segments_closes (h : cut s a = some s') :
    segments cut s current (a :: as) =
      ((current ++ [a]) :: (segments cut s' [] as).1, (segments cut s' [] as).2) := by
  rw [segments, h]

theorem segments_stays (h : cut s a = none) :
    segments cut s current (a :: as) = segments cut s (current ++ [a]) as := by
  rw [segments, h]

/-- Every element is in one segment, in the order of the list. -/
theorem flatten_segments (cut : σ → α → Option σ) (s : σ) (current as : List α) :
    (segments cut s current as).1.flatten ++ (segments cut s current as).2 = current ++ as := by
  induction as generalizing s current with
  | nil => simp
  | cons a as ih =>
    cases h : cut s a with
    | some s' =>
      have hrest := ih s' []
      rw [List.nil_append] at hrest
      rw [segments_closes h, List.flatten_cons, List.append_assoc, hrest, List.append_assoc]
      rfl
    | none =>
      rw [segments_stays h, ih, List.append_assoc]
      rfl

section Sums

variable [Add M] [Zero M] [Std.Associative (· + · : M → M → M)]
  [Std.LawfulLeftIdentity (· + · : M → M → M) 0]

def total (f : α → M) (as : List α) : M := (as.map f).sum

theorem total_append (f : α → M) (as bs : List α) :
    total f (as ++ bs) = total f as + total f bs := by
  rw [total, List.map_append, List.sum_append]
  rfl

theorem total_flatten (f : α → M) (groups : List (List α)) :
    total f groups.flatten = (groups.map (total f)).sum := by
  induction groups with
  | nil => rfl
  | cons group groups ih => rw [List.flatten_cons, total_append, ih, List.map_cons, List.sum_cons]

theorem total_segments (cut : σ → α → Option σ) (f : α → M) (s : σ) (current as : List α) :
    ((segments cut s current as).1.map (total f)).sum + total f (segments cut s current as).2 =
      total f (current ++ as) := by
  rw [← flatten_segments cut s current as, total_append, total_flatten]

end Sums

end Segments
