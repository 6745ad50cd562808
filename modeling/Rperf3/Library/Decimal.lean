import Mathlib.Algebra.Ring.Nat
import Mathlib.Data.Nat.Digits.Defs

/-!
# Decimal numerals with a bound

A numeral is an optional plus sign and one or more digits. It is read from the left
with an accumulator that may not reach a bound; that is the same as asking that its
value be below the bound.
-/

namespace Decimal

def digitVal (c : Char) : ℕ := c.toNat - '0'.toNat

/-- The number that digits stand for, the most significant one first. -/
def value (digits : List Char) : ℕ := Nat.ofDigits 10 (digits.reverse.map digitVal)

inductive Numeral : List Char → ℕ → Prop where
  | digits {ds : List Char} (hne : ds ≠ []) (hds : ∀ c ∈ ds, c.isDigit) : Numeral ds (value ds)
  | plus {ds : List Char} (hne : ds ≠ []) (hds : ∀ c ∈ ds, c.isDigit) :
    Numeral ('+' :: ds) (value ds)

/-- One more digit; multiplying and adding are checked. -/
def addDigit (bound acc : ℕ) (c : Char) : Option ℕ :=
  if c.isDigit then
    if acc * 10 < bound then
      if acc * 10 + digitVal c < bound then some (acc * 10 + digitVal c) else none
    else none
  else none

def readDigits (bound : ℕ) : ℕ → List Char → Option ℕ
  | acc, [] => some acc
  | acc, c :: cs => (addDigit bound acc c).bind (fun acc => readDigits bound acc cs)

/-- A sign alone is no number; a minus sign is not a digit. -/
def parse (bound : ℕ) : List Char → Option ℕ
  | [] => none
  | ['+'] => none
  | '+' :: digits => readDigits bound 0 digits
  | digits => readDigits bound 0 digits

theorem value_cons (c : Char) (cs : List Char) :
    value (c :: cs) = digitVal c * 10 ^ cs.length + value cs := by
  simp only [value, List.reverse_cons, List.map_append, List.map_cons, List.map_nil,
    Nat.ofDigits_append, Nat.ofDigits_singleton, List.length_map, List.length_reverse]
  rw [Nat.add_comm, Nat.mul_comm]

theorem addDigit_eq_some_iff {bound acc n : ℕ} {c : Char} :
    addDigit bound acc c = some n ↔
      c.isDigit ∧ n = acc * 10 + digitVal c ∧ n < bound := by
  unfold addDigit
  by_cases hc : c.isDigit
  · rw [if_pos hc]
    by_cases hmul : acc * 10 < bound
    · rw [if_pos hmul]
      by_cases hadd : acc * 10 + digitVal c < bound
      · rw [if_pos hadd]
        constructor
        · intro h
          cases h
          exact ⟨hc, rfl, hadd⟩
        · rintro ⟨-, rfl, -⟩
          rfl
      · rw [if_neg hadd]
        refine iff_of_false (fun h => nomatch h) (fun h => ?_)
        obtain ⟨-, rfl, hlt⟩ := h
        exact hadd hlt
    · rw [if_neg hmul]
      refine iff_of_false (fun h => nomatch h) (fun h => ?_)
      obtain ⟨-, rfl, hlt⟩ := h
      omega
  · rw [if_neg hc]
    exact iff_of_false (fun h => nomatch h) (fun h => hc h.1)

/-- The accumulator only grows, so that it reaches the bound somewhere exactly when it does at the
end. -/
theorem readDigits_eq_some_iff {bound acc n : ℕ} {cs : List Char} (hacc : acc < bound) :
    readDigits bound acc cs = some n ↔
      (∀ c ∈ cs, c.isDigit) ∧ n = acc * 10 ^ cs.length + value cs ∧ n < bound := by
  induction cs generalizing acc with
  | nil =>
    have hval : acc * 10 ^ ([] : List Char).length + value [] = acc := by
      rw [List.length_nil, Nat.pow_zero, Nat.mul_one]
      rfl
    rw [readDigits, hval, Option.some_inj]
    constructor
    · rintro rfl
      exact ⟨fun c hc => absurd hc List.not_mem_nil, rfl, hacc⟩
    · rintro ⟨-, rfl, -⟩
      rfl
  | cons c cs ih =>
    have hval : acc * 10 ^ (c :: cs).length + value (c :: cs) =
        (acc * 10 + digitVal c) * 10 ^ cs.length + value cs := by
      rw [value_cons, List.length_cons, Nat.pow_succ, Nat.add_mul, Nat.mul_comm (10 ^ cs.length),
        Nat.mul_assoc, Nat.add_assoc]
    rw [readDigits, hval, List.forall_mem_cons, Option.bind_eq_some_iff]
    constructor
    · rintro ⟨acc', hdigit, hrest⟩
      obtain ⟨hc, rfl, hlt⟩ := addDigit_eq_some_iff.mp hdigit
      obtain ⟨hcs, hn, hbound⟩ := (ih hlt).mp hrest
      exact ⟨⟨hc, hcs⟩, hn, hbound⟩
    · rintro ⟨⟨hc, hcs⟩, hn, hbound⟩
      have hgrow : acc * 10 + digitVal c ≤ (acc * 10 + digitVal c) * 10 ^ cs.length :=
        Nat.le_mul_of_pos_right _ (Nat.pow_pos (by decide))
      have hlt : acc * 10 + digitVal c < bound := by omega
      exact ⟨_, addDigit_eq_some_iff.mpr ⟨hc, rfl, hlt⟩, (ih hlt).mpr ⟨hcs, hn, hbound⟩⟩

theorem readDigits_zero_iff {bound n : ℕ} (hbound : 0 < bound) (cs : List Char) :
    readDigits bound 0 cs = some n ↔ (∀ c ∈ cs, c.isDigit) ∧ n = value cs ∧ n < bound := by
  rw [readDigits_eq_some_iff hbound, Nat.zero_mul, Nat.zero_add]

theorem parse_of_ne_plus {bound : ℕ} {s : List Char} (hne : s ≠ [])
    (hplus : ∀ ds, s ≠ '+' :: ds) : parse bound s = readDigits bound 0 s := by
  unfold parse
  split
  · exact absurd rfl hne
  · exact absurd rfl (hplus [])
  · exact absurd rfl (hplus _)
  · rfl

theorem parse_plus {bound : ℕ} {ds : List Char} (hne : ds ≠ []) :
    parse bound ('+' :: ds) = readDigits bound 0 ds := by
  cases ds with
  | nil => exact absurd rfl hne
  | cons d ds => rfl

theorem parse_eq_some_iff {bound n : ℕ} (hbound : 0 < bound) (s : List Char) :
    parse bound s = some n ↔ Numeral s n ∧ n < bound := by
  constructor
  · intro h
    by_cases hplus : ∃ ds, s = '+' :: ds
    · obtain ⟨ds, rfl⟩ := hplus
      have hne : ds ≠ [] := by
        rintro rfl
        exact nomatch h
      rw [parse_plus hne, readDigits_zero_iff hbound] at h
      obtain ⟨hds, rfl, hlt⟩ := h
      exact ⟨.plus hne hds, hlt⟩
    · have hne : s ≠ [] := by
        rintro rfl
        exact nomatch h
      rw [parse_of_ne_plus hne (fun ds heq => hplus ⟨ds, heq⟩), readDigits_zero_iff hbound] at h
      obtain ⟨hs, rfl, hlt⟩ := h
      exact ⟨.digits hne hs, hlt⟩
  · rintro ⟨hnum, hlt⟩
    cases hnum with
    | digits hne hds =>
      have hplus : ∀ ds, s ≠ '+' :: ds := by
        rintro ds rfl
        exact absurd (hds '+' (List.mem_cons_self ..)) (by decide)
      rw [parse_of_ne_plus hne hplus, readDigits_zero_iff hbound]
      exact ⟨hds, rfl, hlt⟩
    | plus hne hds =>
      rw [parse_plus hne, readDigits_zero_iff hbound]
      exact ⟨hds, rfl, hlt⟩

theorem Numeral.unique {s : List Char} {m n : ℕ} (hm : Numeral s m) (hn : Numeral s n) :
    m = n := by
  have hpos : 0 < m + n + 1 := Nat.succ_pos _
  have hm' := (parse_eq_some_iff hpos s).mpr ⟨hm, by omega⟩
  have hn' := (parse_eq_some_iff hpos s).mpr ⟨hn, by omega⟩
  exact Option.some_inj.mp (hm'.symm.trans hn')

theorem Numeral.last_digit {s : List Char} {c : Char} {n : ℕ} (h : Numeral (s ++ [c]) n) :
    c.isDigit := by
  generalize heq : s ++ [c] = t at h
  cases h with
  | digits hne hds =>
    subst heq
    exact hds c (List.mem_append_right s (List.mem_singleton_self c))
  | @plus ds hne hds =>
    cases s with
    | nil =>
      rw [List.nil_append, List.cons.injEq] at heq
      exact absurd heq.2.symm hne
    | cons a s =>
      rw [List.cons_append, List.cons.injEq] at heq
      refine hds c ?_
      rw [← heq.2]
      exact List.mem_append_right s (List.mem_singleton_self c)

end Decimal
