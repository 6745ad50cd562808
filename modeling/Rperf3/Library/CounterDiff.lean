import Mathlib.Algebra.Order.Group.Nat
import Mathlib.Algebra.Ring.Nat
import Mathlib.Order.Basic

/-!
# Differences of a counter whose readings may fail

A counter that never decreases is read now and then, and the difference to the
reading before is kept. A reading that fails counts as zero, so that the next one
that succeeds brings the whole counter again.
-/

namespace CounterDiff

def differences (last : ℕ) : List (Option ℕ) → List ℕ
  | [] => []
  | r :: rs => (r.getD 0 - last) :: differences (r.getD 0) rs

/-- The last reading that succeeded. -/
def lastRead (last : ℕ) : List (Option ℕ) → ℕ
  | [] => last
  | r :: rs => lastRead (r.getD last) rs

/-- What is counted again: every reading that is followed by a failure, if one succeeds after
that. -/
def recounted (last : ℕ) : List (Option ℕ) → ℕ
  | [] => 0
  | some c :: rs => recounted c rs
  | none :: rs => if rs.any Option.isSome then last + recounted 0 rs else 0

/-- The successful readings never decrease, starting from `last`. -/
def Grows (last : ℕ) (rs : List (Option ℕ)) : Prop :=
  (last :: rs.filterMap id).Pairwise (· ≤ ·)

variable {last c : ℕ} {rs : List (Option ℕ)}

theorem Grows.some (h : Grows last (some c :: rs)) : last ≤ c ∧ Grows c rs := by
  obtain ⟨hle, hrest⟩ := List.pairwise_cons.mp h
  exact ⟨hle c (List.mem_cons_self ..), hrest⟩

theorem Grows.none (h : Grows last (none :: rs)) : Grows 0 rs :=
  List.pairwise_cons.mpr ⟨fun _ _ => Nat.zero_le _, (List.pairwise_cons.mp h).2⟩

theorem lastRead_of_any (h : rs.any Option.isSome = true) (m n : ℕ) :
    lastRead m rs = lastRead n rs := by
  induction rs generalizing m n with
  | nil => exact nomatch h
  | cons r rs ih =>
    cases r with
    | some c => rfl
    | none => exact ih h m n

theorem differences_of_none (h : rs.any Option.isSome = false) (last m : ℕ) :
    (differences m rs).sum = 0 ∧ lastRead last rs = last := by
  induction rs generalizing m with
  | nil => exact ⟨rfl, rfl⟩
  | cons r rs ih =>
    cases r with
    | some c => exact nomatch h
    | none =>
      obtain ⟨hsum, hlast⟩ := ih h 0
      refine ⟨?_, hlast⟩
      simp only [differences, Option.getD_none, List.sum_cons, hsum]
      omega

theorem sum_differences (h : Grows last rs) :
    (differences last rs).sum + last = lastRead last rs + recounted last rs := by
  induction rs generalizing last with
  | nil => exact (Nat.zero_add last).trans (Nat.add_zero last).symm
  | cons r rs ih =>
    cases r with
    | some c =>
      obtain ⟨hle, hrest⟩ := h.some
      have hsum := ih hrest
      simp only [differences, lastRead, recounted, Option.getD_some, List.sum_cons]
      omega
    | none =>
      simp only [differences, lastRead, recounted, Option.getD_none, List.sum_cons]
      by_cases hsome : rs.any Option.isSome = true
      · have hsum := ih h.none
        rw [if_pos hsome, lastRead_of_any hsome last 0]
        omega
      · obtain ⟨hzero, hlast⟩ := differences_of_none (Bool.not_eq_true _ ▸ hsome) last 0
        rw [if_neg hsome, hzero, hlast]
        omega

/-! ### When nothing is counted again -/

/-- A failure stands between a reading and a later one only if the first of them is zero. -/
def NoGap (rs : List (Option ℕ)) : Prop := ∀ a b, [some a, none, some b].Sublist rs → a = 0

theorem mem_of_gap {a b : ℕ} (h : [some a, none, some b].Sublist (some last :: none :: rs)) :
    some b ∈ rs := by
  rcases List.sublist_cons_iff.mp h with h | ⟨_, hcons, h⟩
  · rcases List.sublist_cons_iff.mp h with h | ⟨_, hcons, -⟩
    · exact h.subset (by simp)
    · exact nomatch (List.cons.inj hcons).1
  · obtain rfl := (List.cons.inj hcons).2
    have hrest : [some b].Sublist rs := by
      rcases List.sublist_cons_iff.mp h with h | ⟨_, hcons, h⟩
      · exact (List.sublist_cons_self ..).trans h
      · obtain rfl := (List.cons.inj hcons).2
        exact h
    exact hrest.subset (List.mem_singleton.mpr rfl)

theorem noGap_some (hle : last ≤ c) : NoGap (some last :: some c :: rs) ↔ NoGap (some c :: rs) := by
  constructor
  · exact fun h a b hsub => h a b (hsub.trans (List.sublist_cons_self ..))
  · intro h a b hsub
    rcases List.sublist_cons_iff.mp hsub with hsub | ⟨_, hcons, htail⟩
    · exact h a b hsub
    · -- the later reading can take the place of the earlier
      obtain ⟨ha, rfl⟩ := List.cons.inj hcons
      obtain rfl := Option.some.inj ha
      rcases List.sublist_cons_iff.mp htail with htail | ⟨_, hnone, -⟩
      · have hzero := h c b (htail.cons_cons _)
        omega
      · exact nomatch (List.cons.inj hnone).1

theorem noGap_zero : NoGap (some 0 :: rs) ↔ NoGap rs := by
  constructor
  · exact fun h a b hsub => h a b (hsub.trans (List.sublist_cons_self ..))
  · intro h a b hsub
    rcases List.sublist_cons_iff.mp hsub with hsub | ⟨_, hcons, -⟩
    · exact h a b hsub
    · exact Option.some.inj (List.cons.inj hcons).1

theorem noGap_none (hsome : rs.any Option.isSome = true) :
    NoGap (some last :: none :: rs) ↔ last = 0 ∧ NoGap rs := by
  obtain ⟨r, hr, hr'⟩ := List.any_eq_true.mp hsome
  obtain ⟨b, rfl⟩ := Option.isSome_iff_exists.mp hr'
  constructor
  · intro h
    refine ⟨h last b (((List.singleton_sublist.mpr hr).cons_cons _).cons_cons _), ?_⟩
    exact fun a b' hsub => h a b' ((hsub.trans (List.sublist_cons_self ..)).trans
      (List.sublist_cons_self ..))
  · rintro ⟨rfl, h⟩
    refine noGap_zero.mpr fun a b' hsub => ?_
    rcases List.sublist_cons_iff.mp hsub with hsub | ⟨_, hcons, -⟩
    · exact h a b' hsub
    · exact nomatch (List.cons.inj hcons).1

theorem recounted_eq_zero_iff (h : Grows last rs) :
    recounted last rs = 0 ↔ NoGap (some last :: rs) := by
  induction rs generalizing last with
  | nil =>
    refine ⟨fun _ a b hsub => ?_, fun _ => rfl⟩
    have hlen := hsub.length_le
    simp at hlen
  | cons r rs ih =>
    cases r with
    | some c => exact (ih h.some.2).trans (noGap_some h.some.1).symm
    | none =>
      unfold recounted
      by_cases hsome : rs.any Option.isSome = true
      · rw [if_pos hsome, noGap_none hsome, ← noGap_zero, ← ih h.none]
        omega
      · rw [if_neg hsome]
        refine ⟨fun _ a b hsub => ?_, fun _ => rfl⟩
        exact absurd (List.any_eq_true.mpr ⟨_, mem_of_gap hsub, rfl⟩) hsome

/-- The differences sum to the last reading unless a failure interrupts the readings of a counter
that is no longer zero. -/
theorem sum_differences_iff (h : Grows 0 rs) :
    (differences 0 rs).sum = lastRead 0 rs ↔ NoGap rs := by
  have hsum := sum_differences h
  rw [← noGap_zero, ← recounted_eq_zero_iff h]
  omega

end CounterDiff
