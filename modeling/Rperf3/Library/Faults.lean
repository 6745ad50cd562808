import Mathlib.Data.Nat.Notation

/-!
# Computations that may fault

A step faults when a number reaches its bound, or when a slice of a buffer lies outside
the buffer. A computation is fine if no step of it faults.
-/

namespace Faults

universe u v

variable {α β : Type u} {ε : Type v}

def Fine (r : Except ε α) : Prop := ∃ a, r = .ok a

theorem fine_ok (a : α) : Fine (.ok a : Except ε α) := ⟨a, rfl⟩

theorem not_fine_error (e : ε) : ¬ Fine (.error e : Except ε α) := by
  rintro ⟨a, h⟩
  exact nomatch h

theorem fine_ite {p : Prop} [Decidable p] (a : α) (e : ε) :
    Fine (if p then Except.ok a else .error e) ↔ p := by
  by_cases h : p
  · rw [if_pos h]
    exact iff_of_true (fine_ok a) h
  · rw [if_neg h]
    exact iff_of_false (not_fine_error e) h

theorem ok_bind (a : α) (f : α → Except ε β) : (Except.ok a >>= f) = f a := rfl

theorem error_bind (e : ε) (f : α → Except ε β) : (Except.error e >>= f) = .error e := rfl

theorem fine_bind_ok {r : Except ε α} (f : α → β) : Fine (r >>= fun a => .ok (f a)) ↔ Fine r := by
  cases r with
  | error e =>
    rw [error_bind]
    exact iff_of_false (not_fine_error e) (not_fine_error e)
  | ok a => exact iff_of_true (fine_ok (f a)) (fine_ok a)

/-! ### Bounded numbers -/

def below (fault : ε) (bound n : ℕ) : Except ε ℕ := if n < bound then .ok n else .error fault

theorem below_of_lt {fault : ε} {bound n : ℕ} (h : n < bound) : below fault bound n = .ok n :=
  if_pos h

theorem below_of_le {fault : ε} {bound n : ℕ} (h : bound ≤ n) :
    below fault bound n = .error fault :=
  if_neg (Nat.not_lt.mpr h)

/-! ### Slices -/

/-- `src` written over the part of `buffer` that begins at `start`. -/
def copyInto (fault : ε) (buffer : List α) (start : ℕ) (src : List α) : Except ε (List α) :=
  if start + src.length ≤ buffer.length then
    .ok (buffer.take start ++ (src ++ buffer.drop (start + src.length)))
  else .error fault

theorem copyInto_of_le {fault : ε} {buffer src : List α} {start : ℕ}
    (h : start + src.length ≤ buffer.length) :
    copyInto fault buffer start src =
      .ok (buffer.take start ++ (src ++ buffer.drop (start + src.length))) :=
  if_pos h

theorem copyInto_of_lt {fault : ε} {buffer src : List α} {start : ℕ}
    (h : buffer.length < start + src.length) :
    copyInto fault buffer start src = .error fault :=
  if_neg (Nat.not_le.mpr h)

end Faults
