import Mathlib.Data.Finset.Card
import Mathlib.Data.Finset.Range
import Mathlib.Algebra.Ring.Nat

/-!
# Arrivals by number

What there is to say about numbers that arrive one after the other. A history
lists them latest first. Over a linear order, `overtaken` counts the arrivals
after a higher one and `drops` those directly after a higher one; over the
naturals, `missing` are the numbers below the highest one that did not arrive.
-/

namespace Arrivals

/-! ### Order -/

section Order

variable {α : Type*} [LinearOrder α]

/-- How many numbers are below one that arrived earlier. -/
def overtaken : List α → ℕ
  | [] => 0
  | n :: earlier => overtaken earlier + if ∃ k ∈ earlier, n < k then 1 else 0

/-- How many numbers are below the one that arrived just before. -/
def drops : List α → ℕ
  | [] => 0
  | [_] => 0
  | n :: last :: earlier => drops (last :: earlier) + if n < last then 1 else 0

/-- A number that arrives after a higher one also arrives directly after a higher one. -/
def LateInTurn (history : List α) : Prop :=
  ∀ n last earlier, n :: last :: earlier <:+ history → (∃ k ∈ earlier, n < k) → n < last

theorem drops_le_overtaken (history : List α) : drops history ≤ overtaken history := by
  induction history with
  | nil => exact le_rfl
  | cons n earlier ih =>
    cases earlier with
    | nil => exact Nat.zero_le _
    | cons last earlier =>
      rw [drops, overtaken]
      refine Nat.add_le_add ih ?_
      by_cases h : n < last
      · rw [if_pos h, if_pos ⟨last, List.mem_cons_self .., h⟩]
      · rw [if_neg h]
        exact Nat.zero_le _

theorem overtaken_le_length (history : List α) : overtaken history ≤ history.length := by
  induction history with
  | nil => exact le_rfl
  | cons n earlier ih =>
    rw [overtaken, List.length_cons]
    refine Nat.add_le_add ih ?_
    split
    · exact le_rfl
    · exact Nat.zero_le 1

theorem lateInTurn_cons {n last : α} {earlier : List α} :
    LateInTurn (n :: last :: earlier) ↔
      LateInTurn (last :: earlier) ∧ ((∃ k ∈ earlier, n < k) → n < last) := by
  constructor
  · intro h
    refine ⟨fun n' last' earlier' hsuffix => h n' last' earlier' ?_,
      h n last earlier List.suffix_rfl⟩
    exact hsuffix.trans (List.suffix_cons n _)
  · rintro ⟨hrest, hfirst⟩ n' last' earlier' hsuffix
    rcases List.suffix_cons_iff.mp hsuffix with heq | hsuffix
    · cases heq
      exact hfirst
    · exact hrest n' last' earlier' hsuffix

theorem drops_eq_overtaken_iff (history : List α) :
    drops history = overtaken history ↔ LateInTurn history := by
  induction history with
  | nil => exact iff_of_true rfl (fun n last earlier hsuffix => nomatch List.suffix_nil.mp hsuffix)
  | cons n earlier ih =>
    cases earlier with
    | nil =>
      refine iff_of_true rfl (fun n' last' earlier' hsuffix => ?_)
      exact absurd hsuffix.length_le (by simp)
    | cons last earlier =>
      have hle := drops_le_overtaken (last :: earlier)
      rw [drops, overtaken, lateInTurn_cons, ← ih]
      by_cases hlast : n < last
      · have hovertaken : ∃ k ∈ last :: earlier, n < k := ⟨last, List.mem_cons_self .., hlast⟩
        rw [if_pos hlast, if_pos hovertaken, and_iff_left (fun _ => hlast), Nat.add_left_inj]
      · rw [if_neg hlast]
        by_cases hovertaken : ∃ k ∈ earlier, n < k
        · obtain ⟨k, hk, hlt⟩ := hovertaken
          rw [if_pos ⟨k, List.mem_cons_of_mem _ hk, hlt⟩]
          refine iff_of_false (by omega) (fun h => hlast (h.2 ⟨k, hk, hlt⟩))
        · have hnone : ¬ ∃ k ∈ last :: earlier, n < k := by
            rintro ⟨k, hk, hlt⟩
            rcases List.mem_cons.mp hk with rfl | hk
            · exact hlast hlt
            · exact hovertaken ⟨k, hk, hlt⟩
          rw [if_neg hnone, Nat.add_zero, Nat.add_zero,
            and_iff_left (fun h => absurd h hovertaken)]

end Order

/-! ### Loss -/

/-- The highest number plus one, zero if there is none. -/
def expected : List ℕ → ℕ
  | [] => 0
  | n :: earlier => max (n + 1) (expected earlier)

def missing (history : List ℕ) : Finset ℕ :=
  (Finset.range (expected history)).filter (· ∉ history)

variable {history : List ℕ}

theorem lt_expected {n : ℕ} (h : n ∈ history) : n < expected history := by
  induction history with
  | nil => exact absurd h List.not_mem_nil
  | cons m earlier ih =>
    rw [expected]
    rcases List.mem_cons.mp h with rfl | h
    · exact Nat.lt_of_lt_of_le (Nat.lt_succ_self n) (le_max_left ..)
    · exact (ih h).trans_le (le_max_right ..)

theorem exists_expected (h : history ≠ []) : ∃ n ∈ history, expected history = n + 1 := by
  induction history with
  | nil => exact absurd rfl h
  | cons n earlier ih =>
    rw [expected]
    rcases le_total (n + 1) (expected earlier) with hle | hle
    · have hne : earlier ≠ [] := by
        rintro rfl
        exact absurd hle (Nat.not_succ_le_zero n)
      obtain ⟨m, hm, hexpected⟩ := ih hne
      exact ⟨m, List.mem_cons_of_mem _ hm, (max_eq_right hle).trans hexpected⟩
    · exact ⟨n, List.mem_cons_self .., max_eq_left hle⟩

theorem card_missing (history : List ℕ) :
    (missing history).card + history.toFinset.card = expected history := by
  have harrived : (Finset.range (expected history)).filter (· ∈ history) = history.toFinset := by
    ext n
    rw [Finset.mem_filter, Finset.mem_range, List.mem_toFinset]
    exact ⟨And.right, fun h => ⟨lt_expected h, h⟩⟩
  rw [missing, ← harrived, Nat.add_comm, Finset.card_filter_add_card_filter_not, Finset.card_range]

/-- Counting arrivals instead of numbers is exact if the count is that of the numbers, or if it is
too high and nothing is missing. -/
theorem sub_eq_card_missing_iff (count : ℕ) :
    expected history - count = (missing history).card ↔
      count = history.toFinset.card ∨ missing history = ∅ ∧ expected history ≤ count := by
  have hcard := card_missing history
  rw [← Finset.card_eq_zero]
  omega

theorem card_toFinset_eq_length_iff : history.toFinset.card = history.length ↔ history.Nodup :=
  Multiset.toFinset_card_eq_card_iff_nodup (m := (history : Multiset ℕ))

end Arrivals
