import Rperf3.Library.KeyedFold
import Mathlib.Algebra.Group.Prod
import Mathlib.Algebra.Order.Interval.Finset.Basic
import Mathlib.Order.Interval.Finset.Nat

/-!
# Loss counting with one expected number

A receiver keeps only the number it expects next. A number above it is a gap,
counted as that many losses; a number below it is counted as late; the expected
number never goes back. The accounting identity (`run_identity`) holds for every
arrival order. The losses are the numbers that really never arrived exactly when
no number above the first one is overtaken (`lost_eq_neverArrived_iff`).
-/

namespace SeqGap
open KeyedFold

/-- One arrival: the next expected number, and the (late, lost) counts it adds. The first arrival
is the one expected. -/
def step : Machine ℕ ℕ (ℕ × ℕ) := fun s n =>
  let e := s.getD n
  if n > e then (n + 1, (0, n - e))
  else if n < e then (e, (1, 0))
  else (e + 1, (0, 0))

def late (ns : List ℕ) : ℕ := (run step none ns).2.1
def lost (ns : List ℕ) : ℕ := (run step none ns).2.2

def expected (ns : List ℕ) : ℕ := (run step none ns).1.getD 0

def first (ns : List ℕ) : ℕ := ns.headD 0
def highest (ns : List ℕ) : ℕ := ns.foldr max 0

/-- How many numbers from the first-arrived to the highest-arrived one never arrived. -/
def neverArrived : List ℕ → ℕ
  | [] => 0
  | f :: rest => ((Finset.Icc f (highest (f :: rest))).filter (· ∉ f :: rest)).card

/-- Past the first arrival, the numbers that are not below it arrive in increasing order. -/
def NoOvertaking : List ℕ → Prop
  | [] => True
  | f :: rest => rest.Pairwise (fun earlier later => later < f ∨ earlier < later)

instance : DecidablePred NoOvertaking := fun ns =>
  match ns with
  | [] => inferInstanceAs (Decidable True)
  | _ :: _ => inferInstanceAs (Decidable (List.Pairwise _ _))

/-! ### One step -/

theorem step_none (n : ℕ) : step none n = (n + 1, (0, 0)) := by
  simp only [step, Option.getD_none, gt_iff_lt, lt_irrefl, if_false]

theorem step_some (e n : ℕ) : (step (some e) n).1 = max e (n + 1) := by
  simp only [step, Option.getD_some]
  split_ifs <;> simp only <;> omega

theorem step_identity (e n : ℕ) :
    1 + (step (some e) n).2.2 + e = (step (some e) n).2.1 + (step (some e) n).1 := by
  simp only [step, Option.getD_some]
  split_ifs <;> simp only <;> omega

theorem step_late (e n : ℕ) : (step (some e) n).2.1 = if n < e then 1 else 0 := by
  simp only [step, Option.getD_some]
  split_ifs <;> first | rfl | omega

/-! ### Whole runs -/

theorem run_some (e : ℕ) (ns : List ℕ) :
    ∃ e', (run step (some e) ns).1 = some e' ∧ e' = ns.foldl (fun e n => max e (n + 1)) e ∧
      ns.length + (run step (some e) ns).2.2 + e = (run step (some e) ns).2.1 + e' := by
  induction ns generalizing e with
  | nil => exact ⟨e, rfl, rfl, by
      simp only [run, List.length_nil, Prod.snd_zero, Prod.fst_zero, Nat.zero_add]⟩
  | cons n ns ih =>
    obtain ⟨e', hstate, hmax, hid⟩ := ih (step (some e) n).1
    have hone := step_identity e n
    refine ⟨e', ?_, ?_, ?_⟩
    · rw [run_cons]
      exact hstate
    · rw [List.foldl_cons, ← step_some]
      exact hmax
    · rw [run_cons]
      simp only [List.length_cons, Prod.snd_add, Prod.fst_add]
      omega

theorem highest_cons (n : ℕ) (ns : List ℕ) : highest (n :: ns) = max n (highest ns) := rfl

theorem le_highest {n : ℕ} {ns : List ℕ} (h : n ∈ ns) : n ≤ highest ns := by
  induction ns with
  | nil => exact absurd h (List.not_mem_nil)
  | cons m ns ih =>
    rw [highest_cons]
    rcases List.mem_cons.mp h with rfl | h
    · exact le_max_left ..
    · exact (ih h).trans (le_max_right ..)

theorem foldl_max_succ (f : ℕ) (ns : List ℕ) :
    ns.foldl (fun e n => max e (n + 1)) (f + 1) = highest (f :: ns) + 1 := by
  induction ns generalizing f with
  | nil => simp only [List.foldl_nil, highest, List.foldr_cons, List.foldr_nil]; omega
  | cons n ns ih =>
    have hmax : max (f + 1) (n + 1) = max f n + 1 := by omega
    rw [List.foldl_cons, hmax, ih]
    simp only [highest_cons]
    omega

theorem run_none_state (f : ℕ) (ns : List ℕ) :
    (run step none (f :: ns)).1 = some (highest (f :: ns) + 1) := by
  obtain ⟨e', hstate, hmax, -⟩ := run_some (f + 1) ns
  rw [run_cons, step_none, hstate, hmax, foldl_max_succ]

theorem expected_eq {ns : List ℕ} (h : ns ≠ []) : expected ns = highest ns + 1 := by
  cases ns with
  | nil => exact absurd rfl h
  | cons f ns => rw [expected, run_none_state, Option.getD_some]

/-- Arrivals plus losses is lateness plus the distance from the first to the expected number. -/
theorem run_identity (ns : List ℕ) :
    ns.length + lost ns + first ns = late ns + expected ns := by
  cases ns with
  | nil => rfl
  | cons f ns =>
    obtain ⟨e', hstate, -, hid⟩ := run_some (f + 1) ns
    simp only [lost, late, expected, first, run_cons, step_none, hstate, List.headD_cons,
      Option.getD_some, List.length_cons, Prod.snd_add, Prod.fst_add]
    omega

/-! ### Which losses are real -/

def below (ns : List ℕ) : ℕ := (ns.filter (· < first ns)).length

theorem lost_add_below {ns : List ℕ} (hn : ns.Nodup) :
    lost ns + below ns = neverArrived ns + late ns := by
  cases ns with
  | nil => rfl
  | cons f rest =>
    have hid := run_identity (f :: rest)
    have hexp := expected_eq (List.cons_ne_nil f rest)
    have hfh : f ≤ highest (f :: rest) := le_highest (List.mem_cons_self ..)
    have hfirst : first (f :: rest) = f := rfl
    -- the range splits into what arrived and what did not
    have hsplit := Finset.card_filter_add_card_filter_not
      (s := Finset.Icc f (highest (f :: rest))) (· ∈ f :: rest)
    have harrived : (Finset.Icc f (highest (f :: rest))).filter (· ∈ f :: rest) =
        ((f :: rest).filter (¬ · < f)).toFinset := by
      ext x
      simp only [Finset.mem_filter, Finset.mem_Icc, List.mem_toFinset, List.mem_filter,
        decide_eq_true_eq, not_lt]
      constructor
      · rintro ⟨⟨hfx, -⟩, hx⟩
        exact ⟨hx, hfx⟩
      · rintro ⟨hx, hfx⟩
        exact ⟨⟨hfx, le_highest hx⟩, hx⟩
    have hcard : ((Finset.Icc f (highest (f :: rest))).filter (· ∈ f :: rest)).card =
        ((f :: rest).filter (¬ · < f)).length := by
      rw [harrived, List.toFinset_card_of_nodup (hn.filter _)]
    have hlen : (f :: rest).length = ((f :: rest).filter (· < f)).length +
        ((f :: rest).filter (¬ · < f)).length := by
      have := List.length_eq_length_filter_add (l := f :: rest) (fun n => decide (n < f))
      simpa only [decide_not] using this
    rw [Nat.card_Icc, hcard] at hsplit
    rw [hfirst] at hid
    simp only [below, neverArrived, hfirst]
    omega

theorem late_cons (f : ℕ) (ns : List ℕ) :
    late (f :: ns) = (run step (some (f + 1)) ns).2.1 := by
  simp only [late, run_cons, step_none, Prod.fst_add, Nat.zero_add]

theorem late_from {f e : ℕ} (hfe : f < e) (ns : List ℕ) :
    (ns.filter (· < f)).length ≤ (run step (some e) ns).2.1 ∧
    ((run step (some e) ns).2.1 = (ns.filter (· < f)).length ↔
      (∀ n ∈ ns, n < f ∨ e ≤ n) ∧
        ns.Pairwise (fun earlier later => later < f ∨ earlier < later)) := by
  induction ns generalizing e with
  | nil =>
    simp only [run, Prod.fst_zero, List.filter_nil, List.length_nil, le_refl, List.not_mem_nil,
      false_implies, implies_true, List.Pairwise.nil, and_self]
  | cons n ns ih =>
    have hle : f < (step (some e) n).1 := by rw [step_some]; omega
    obtain ⟨hge, hiff⟩ := ih hle
    have hlate := step_late e n
    have hnext := step_some e n
    rw [run_cons]
    simp only [Prod.fst_add, List.filter_cons, decide_eq_true_eq, List.mem_cons,
      forall_eq_or_imp, List.pairwise_cons]
    by_cases hnf : n < f
    · -- below the first arrival: late, and the expected number stays
      have he : (step (some e) n).1 = e := by rw [hnext]; omega
      rw [he] at hge hiff ⊢
      rw [if_pos (by omega : n < e)] at hlate
      rw [hlate, if_pos hnf, List.length_cons]
      refine ⟨by omega, ?_⟩
      rw [show (1 + (run step (some e) ns).2.1 = (ns.filter (· < f)).length + 1) ↔
        (run step (some e) ns).2.1 = (ns.filter (· < f)).length by omega, hiff]
      constructor
      · rintro ⟨hall, hpair⟩
        exact ⟨⟨Or.inl hnf, hall⟩,
          fun m hm => (hall m hm).imp_right (fun h => by omega), hpair⟩
      · rintro ⟨⟨-, hall⟩, -, hpair⟩
        exact ⟨hall, hpair⟩
    · rw [if_neg hnf]
      by_cases hne : n < e
      · -- overtaken: late although not below the first arrival
        rw [if_pos hne] at hlate
        rw [hlate]
        refine ⟨by omega, ⟨fun h => by omega, ?_⟩⟩
        rintro ⟨⟨h, -⟩, -⟩
        omega
      · have he : (step (some e) n).1 = n + 1 := by rw [hnext]; omega
        rw [he] at hge hiff ⊢
        rw [if_neg hne] at hlate
        rw [hlate, Nat.zero_add]
        refine ⟨hge, ?_⟩
        rw [hiff]
        constructor
        · rintro ⟨hall, hpair⟩
          refine ⟨⟨Or.inr (by omega), fun m hm => (hall m hm).imp_right (by omega)⟩, ?_, hpair⟩
          exact fun m hm => (hall m hm).imp_right (by omega)
        · rintro ⟨-, hn, hpair⟩
          exact ⟨fun m hm => (hn m hm).imp_right (by omega), hpair⟩

theorem below_le_late {ns : List ℕ} (hn : ns.Nodup) :
    below ns ≤ late ns ∧ (late ns = below ns ↔ NoOvertaking ns) := by
  cases ns with
  | nil => exact ⟨le_rfl, iff_of_true rfl trivial⟩
  | cons f rest =>
    have hbelow : below (f :: rest) = (rest.filter (· < f)).length := by
      simp [below, first]
    have hall : ∀ n ∈ rest, n < f ∨ f + 1 ≤ n := by
      intro n hnr
      have : n ≠ f := fun h => (List.nodup_cons.mp hn).1 (h ▸ hnr)
      omega
    obtain ⟨hge, hiff⟩ := late_from (Nat.lt_succ_self f) rest
    rw [hbelow, late_cons]
    exact ⟨hge, hiff.trans ⟨fun h => h.2, fun h => ⟨hall, h⟩⟩⟩

theorem neverArrived_le_lost {ns : List ℕ} (hn : ns.Nodup) : neverArrived ns ≤ lost ns := by
  have h := lost_add_below hn
  have hle := (below_le_late hn).1
  omega

/-- The losses counted are the numbers that never arrived exactly when no number above the first
one is overtaken. -/
theorem lost_eq_neverArrived_iff {ns : List ℕ} (hn : ns.Nodup) :
    lost ns = neverArrived ns ↔ NoOvertaking ns := by
  have h := lost_add_below hn
  rw [← (below_le_late hn).2]
  omega

end SeqGap
