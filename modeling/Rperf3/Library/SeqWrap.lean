import Rperf3.Library.SeqGap

/-!
# Loss counting with numbers that wrap

The sender numbers its items `start`, `start + 1`, … modulo `N`, and the receiver
of `SeqGap` compares the numbers as they are and lets the expected number wrap.
An item is named by its position in the sender's stream. For items that arrive in
order, the counts are those of the positions as long as no skipped run reaches
across a multiple of `N`; the first one that does is counted as late
(`late_eq_zero_iff`), and nothing is counted as lost after it.
-/

namespace SeqWrap
open KeyedFold

variable (N : ℕ)

def step : Machine ℕ ℕ (ℕ × ℕ) := fun s n =>
  let e := s.getD n
  if n > e then ((n + 1) % N, (0, n - e))
  else if n < e then (e, (1, 0))
  else ((e + 1) % N, (0, 0))

def late (ns : List ℕ) : ℕ := (run (step N) none ns).2.1
def lost (ns : List ℕ) : ℕ := (run (step N) none ns).2.2

/-- The numbers of the items at the positions `ps`. -/
def numbers (start : ℕ) (ps : List ℕ) : List ℕ := ps.map (fun p => (start + p) % N)

/-- What is skipped between two successive positions does not reach across a multiple of `N`. -/
def SameRound (start : ℕ) (p q : ℕ) : Prop := (start + (p + 1)) / N = (start + q) / N

instance (start : ℕ) : DecidableRel (SameRound N start) :=
  fun p q => inferInstanceAs (Decidable ((start + (p + 1)) / N = (start + q) / N))

/-- The first run of positions left out between two successive ones, with its end excluded. -/
def firstSkip : List ℕ → Option (ℕ × ℕ)
  | [] => none
  | [_] => none
  | p :: q :: rest => if q = p + 1 then firstSkip (q :: rest) else some (p + 1, q)

variable {N} {start : ℕ}

/-! ### Two numbers less than a round apart -/

theorem sub_of_sameRound {a b : ℕ} (hab : a ≤ b) (h : a / N = b / N) :
    a % N ≤ b % N ∧ b % N - a % N = b - a := by
  have ha := Nat.div_add_mod a N
  have hb := Nat.div_add_mod b N
  rw [h] at ha
  omega

theorem lt_of_not_sameRound {a b : ℕ} (hab : a ≤ b) (hN : b < a + N) (h : a / N ≠ b / N) :
    b % N < a % N := by
  have hpos : 0 < N := by omega
  have hle : a / N ≤ b / N := Nat.div_le_div_right hab
  have hnext : b / N ≤ a / N + 1 := by
    rw [← Nat.add_div_right a hpos]
    exact Nat.div_le_div_right hN.le
  have hround : b / N = a / N + 1 := by omega
  have ha := Nat.div_add_mod a N
  have hb := Nat.div_add_mod b N
  rw [hround, Nat.mul_add, Nat.mul_one] at hb
  omega

/-! ### One arrival -/

theorem succ_mod (n : ℕ) : (n % N + 1) % N = (n + 1) % N := Nat.mod_add_mod n N 1

theorem step_first (p : ℕ) :
    step N none ((start + p) % N) = ((start + (p + 1)) % N, (0, 0)) := by
  simp only [step, Option.getD_none, gt_iff_lt, lt_irrefl, if_false, succ_mod, Nat.add_assoc]

theorem step_sameRound {p q : ℕ} (hpq : p < q) (h : SameRound N start p q) :
    step N (some ((start + (p + 1)) % N)) ((start + q) % N) =
      ((start + (q + 1)) % N, (SeqGap.step (some (p + 1)) q).2) := by
  obtain ⟨hle, hsub⟩ := sub_of_sameRound (N := N) (by omega : start + (p + 1) ≤ start + q) h
  have hgap : start + q - (start + (p + 1)) = q - (p + 1) := by omega
  rw [hgap] at hsub
  simp only [step, SeqGap.step, Option.getD_some, gt_iff_lt]
  by_cases hskip : p + 1 < q
  · have hlt : (start + (p + 1)) % N < (start + q) % N := by omega
    rw [if_pos hlt, if_pos hskip, succ_mod, hsub, Nat.add_assoc]
  · have heq : q = p + 1 := by omega
    subst heq
    simp only [lt_irrefl, if_false, succ_mod, Nat.add_assoc]

/-- An arrival less than a round away, but in the next round, is late. -/
theorem step_nextRound {p q : ℕ} (hpq : p < q) (hN : q < p + 1 + N) (h : ¬ SameRound N start p q) :
    step N (some ((start + (p + 1)) % N)) ((start + q) % N) =
      ((start + (p + 1)) % N, (1, 0)) := by
  have hlt := lt_of_not_sameRound (N := N) (by omega : start + (p + 1) ≤ start + q) (by omega) h
  simp only [step, Option.getD_some, gt_iff_lt]
  rw [if_neg (by omega), if_pos hlt]

/-! ### Arrivals in order -/

theorem run_sameRound {p : ℕ} {ps : List ℕ} (hinc : (p :: ps).IsChain (· < ·))
    (h : (p :: ps).IsChain (SameRound N start)) :
    (run (step N) (some ((start + (p + 1)) % N)) (numbers N start ps)).2 =
      (run SeqGap.step (some (p + 1)) ps).2 := by
  induction ps generalizing p with
  | nil => rfl
  | cons q ps ih =>
    obtain ⟨hpq, hinc⟩ := List.isChain_cons_cons.mp hinc
    obtain ⟨hround, h⟩ := List.isChain_cons_cons.mp h
    have hnext : (SeqGap.step (some (p + 1)) q).1 = q + 1 := by
      rw [SeqGap.step_some]
      omega
    rw [numbers, List.map_cons, run_cons, run_cons, step_sameRound hpq hround, hnext]
    exact congrArg ((SeqGap.step (some (p + 1)) q).2 + ·) (ih hinc h)

theorem run_late_pos {p : ℕ} {ps : List ℕ} (hinc : (p :: ps).IsChain (· < ·))
    (hgap : (p :: ps).IsChain (fun p q => q < p + 1 + N))
    (h : ¬ (p :: ps).IsChain (SameRound N start)) :
    0 < (run (step N) (some ((start + (p + 1)) % N)) (numbers N start ps)).2.1 := by
  induction ps generalizing p with
  | nil => exact absurd (.singleton p) h
  | cons q ps ih =>
    obtain ⟨hpq, hinc⟩ := List.isChain_cons_cons.mp hinc
    obtain ⟨hN, hgap⟩ := List.isChain_cons_cons.mp hgap
    rw [numbers, List.map_cons, run_cons]
    by_cases hround : SameRound N start p q
    · have hrest : ¬ (q :: ps).IsChain (SameRound N start) :=
        fun hrest => h (List.isChain_cons_cons.mpr ⟨hround, hrest⟩)
      rw [step_sameRound hpq hround]
      exact Nat.add_pos_right _ (ih hinc hgap hrest)
    · rw [step_nextRound hpq hN hround]
      exact Nat.add_pos_left Nat.one_pos _

theorem noOvertaking_of_increasing {ps : List ℕ} (hinc : ps.IsChain (· < ·)) :
    SeqGap.NoOvertaking ps := by
  cases ps with
  | nil => trivial
  | cons p ps =>
    have hpair := List.isChain_iff_pairwise.mp hinc
    exact (List.pairwise_cons.mp hpair).2.imp Or.inr

theorem below_of_increasing {ps : List ℕ} (hinc : ps.IsChain (· < ·)) : SeqGap.below ps = 0 := by
  cases ps with
  | nil => rfl
  | cons p ps =>
    have hpair := List.isChain_iff_pairwise.mp hinc
    rw [SeqGap.below, List.length_eq_zero_iff, List.filter_eq_nil_iff]
    intro n hn
    have hle : p ≤ n := by
      rcases List.mem_cons.mp hn with rfl | hn
      · exact le_rfl
      · exact ((List.pairwise_cons.mp hpair).1 n hn).le
    simpa [SeqGap.first] using hle

theorem counts_of_increasing {ps : List ℕ} (hinc : ps.IsChain (· < ·)) :
    SeqGap.late ps = 0 ∧ SeqGap.lost ps = SeqGap.neverArrived ps := by
  have hpair := List.isChain_iff_pairwise.mp hinc
  have hnodup : ps.Nodup := hpair.imp Nat.ne_of_lt
  have horder := noOvertaking_of_increasing hinc
  refine ⟨?_, (SeqGap.lost_eq_neverArrived_iff hnodup).mpr horder⟩
  rw [((SeqGap.below_le_late hnodup).2).mpr horder, below_of_increasing hinc]

/-- With no skipped run across a multiple of `N`, wrapping does not show. -/
theorem counts_sameRound {ps : List ℕ} (hinc : ps.IsChain (· < ·))
    (h : ps.IsChain (SameRound N start)) :
    late N (numbers N start ps) = 0 ∧
      lost N (numbers N start ps) = SeqGap.neverArrived ps := by
  obtain ⟨hlate, hlost⟩ := counts_of_increasing hinc
  rw [← hlate, ← hlost]
  cases ps with
  | nil => exact ⟨rfl, rfl⟩
  | cons p ps =>
    have hrun := run_sameRound hinc h
    simp only [late, lost, SeqGap.late, SeqGap.lost, numbers, List.map_cons, run_cons, step_first,
      SeqGap.step_none]
    simp only [numbers] at hrun
    rw [hrun]
    exact ⟨rfl, rfl⟩

theorem late_eq_zero_iff {ps : List ℕ} (hinc : ps.IsChain (· < ·))
    (hgap : ps.IsChain (fun p q => q < p + 1 + N)) :
    late N (numbers N start ps) = 0 ↔ ps.IsChain (SameRound N start) := by
  refine ⟨fun hzero => ?_, fun h => (counts_sameRound hinc h).1⟩
  by_contra h
  cases ps with
  | nil => exact h .nil
  | cons p ps =>
    have hpos := run_late_pos hinc hgap h
    simp only [late, numbers, List.map_cons, run_cons, step_first, Prod.fst_add] at hzero
    simp only [numbers] at hpos
    omega

/-! ### When nothing is counted as lost -/

/-- Past the first arrival of the next round everything less than a round away is late. -/
theorem run_stuck {a : ℕ} {ps : List ℕ} (hps : ∀ q ∈ ps, a ≤ q ∧ q < a + N)
    (h : ∀ q ∈ ps, (start + a) / N ≠ (start + q) / N) :
    (run (step N) (some ((start + a) % N)) (numbers N start ps)).2.2 = 0 := by
  induction ps with
  | nil => rfl
  | cons q ps ih =>
    have hq := hps q (List.mem_cons_self ..)
    have hlt := lt_of_not_sameRound (N := N) (by omega : start + a ≤ start + q) (by omega)
      (h q (List.mem_cons_self ..))
    have hstep : step N (some ((start + a) % N)) ((start + q) % N) =
        ((start + a) % N, (1, 0)) := by
      simp only [step, Option.getD_some, gt_iff_lt]
      rw [if_neg (by omega), if_pos hlt]
    rw [numbers, List.map_cons, run_cons, hstep]
    refine (Nat.zero_add _).trans (ih (fun q hq => ?_) (fun q hq => ?_))
    · exact hps q (List.mem_cons_of_mem _ hq)
    · exact h q (List.mem_cons_of_mem _ hq)

theorem run_lost_eq_zero_iff {p : ℕ} {ps : List ℕ} (hinc : (p :: ps).IsChain (· < ·))
    (hN : ∀ q ∈ ps, q < p + 1 + N) :
    (run (step N) (some ((start + (p + 1)) % N)) (numbers N start ps)).2.2 = 0 ↔
      ∀ a b, firstSkip (p :: ps) = some (a, b) → (start + a) / N ≠ (start + b) / N := by
  induction ps generalizing p with
  | nil => exact iff_of_true rfl (fun a b h => nomatch h)
  | cons q ps ih =>
    obtain ⟨hpq, hinc⟩ := List.isChain_cons_cons.mp hinc
    have hlt : ∀ x ∈ ps, q < x :=
      (List.pairwise_cons.mp (List.isChain_iff_pairwise.mp hinc)).1
    have hq := hN q (List.mem_cons_self ..)
    have hps : ∀ x ∈ ps, x < p + 1 + N := fun x hx => hN x (List.mem_cons_of_mem _ hx)
    rw [numbers, List.map_cons, run_cons, firstSkip]
    by_cases hnext : q = p + 1
    · -- the next item
      have hround : SameRound N start p q := by rw [SameRound, hnext]
      have hstep : (SeqGap.step (some (p + 1)) q).2 = (0, 0) := by
        rw [hnext]
        simp [SeqGap.step]
      rw [if_pos hnext, step_sameRound hpq hround, hstep,
        ← ih hinc (fun x hx => by have := hps x hx; omega)]
      simp only [Prod.snd_add, Nat.zero_add]
      rfl
    · rw [if_neg hnext]
      by_cases hround : SameRound N start p q
      · -- a gap that is seen
        have hgap : 0 < (SeqGap.step (some (p + 1)) q).2.2 := by
          simp only [SeqGap.step, Option.getD_some]
          rw [if_pos (by omega)]
          show 0 < q - (p + 1)
          omega
        rw [step_sameRound hpq hround]
        refine iff_of_false ?_ (fun h => h _ _ rfl hround)
        simp only [Prod.snd_add]
        omega
      · -- a gap taken for a late arrival
        have hmono : ∀ x ∈ ps, (start + (p + 1)) / N ≠ (start + x) / N := by
          intro x hx heq
          have h1 : (start + (p + 1)) / N ≤ (start + q) / N := Nat.div_le_div_right (by omega)
          have h2 : (start + q) / N ≤ (start + x) / N :=
            Nat.div_le_div_right (by have := hlt x hx; omega)
          exact hround (le_antisymm h1 (h2.trans heq.ge))
        have hrest : (run (step N) (some ((start + (p + 1)) % N)) (numbers N start ps)).2.2 = 0 :=
          run_stuck (fun x hx => ⟨by have := hlt x hx; omega, hps x hx⟩) hmono
        rw [step_nextRound hpq hq hround]
        refine iff_of_true ?_ ?_
        · simp only [Prod.snd_add, Nat.zero_add]
          exact hrest
        · intro a b hab
          cases hab
          exact hround

/-- Of items in order, all within one round, none is counted as lost exactly when none is skipped
or the first run skipped reaches into the next round. -/
theorem lost_eq_zero_iff {ps : List ℕ} (hinc : ps.IsChain (· < ·)) (hN : ∀ p ∈ ps, p < N) :
    lost N (numbers N start ps) = 0 ↔
      ∀ a b, firstSkip ps = some (a, b) → (start + a) / N ≠ (start + b) / N := by
  cases ps with
  | nil => exact iff_of_true rfl (fun a b h => nomatch h)
  | cons p ps =>
    have hrest : ∀ q ∈ ps, q < p + 1 + N := by
      intro q hq
      have := hN q (List.mem_cons_of_mem _ hq)
      omega
    rw [← run_lost_eq_zero_iff hinc hrest]
    simp only [lost, numbers, List.map_cons, run_cons, step_first, Prod.snd_add, Nat.zero_add]

end SeqWrap
