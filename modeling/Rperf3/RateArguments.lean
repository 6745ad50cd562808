import Rperf3.Library.Decimal
import Mathlib.Data.List.DropRight

/-!
# Rates and sizes on the command line (`bin/main.rs:5-55`)

`parse_bandwidth` and `parse_byte_size` are the same function with other multipliers
and messages. The number is read with overflow checks; its product with the
multiplier is a plain `*`, which panics or wraps by the build profile. `u64` and
`usize` have 64 bits.
-/

namespace Rperf3

/-! ### Strings -/

/-- `char::is_whitespace`. -/
def isWhitespace (c : Char) : Bool :=
  let n := c.toNat
  9 ≤ n ∧ n ≤ 13 ∨ n = 0x20 ∨ n = 0x85 ∨ n = 0xA0 ∨ n = 0x1680 ∨ 0x2000 ≤ n ∧ n ≤ 0x200A ∨
    n = 0x2028 ∨ n = 0x2029 ∨ n = 0x202F ∨ n = 0x205F ∨ n = 0x3000

def trim (s : List Char) : List Char := (s.dropWhile isWhitespace).rdropWhile isWhitespace

/-- `str::len`, in bytes. -/
def strLen : List Char → ℕ
  | [] => 0
  | c :: cs => c.utf8Size + strLen cs

/-- `&s[..n]`, which panics if byte `n` is not between two characters. -/
def sliceTo : List Char → ℕ → Option (List Char)
  | _, 0 => some []
  | [], _ + 1 => none
  | c :: cs, n + 1 =>
    if c.utf8Size ≤ n + 1 then (sliceTo cs (n + 1 - c.utf8Size)).map (c :: ·) else none

def endsWith (s : List Char) (c : Char) : Bool := s.getLast? = some c

/-! ### The two parsers -/

structure Units where
  kilo : ℕ
  mega : ℕ
  giga : ℕ
  pos : 0 < kilo ∧ 0 < mega ∧ 0 < giga

def bandwidthUnits : Units := ⟨1000, 1000000, 1000000000, by decide⟩
def byteUnits : Units := ⟨1024, 1048576, 1073741824, by decide⟩

/-- A release build has no overflow checks. -/
inductive Build where
  | debug
  | release
  deriving DecidableEq

inductive Parsed where
  | ok (value : ℕ)
  | err (message : String)
  | panicked
  deriving DecidableEq

def Build.mul (build : Build) (a b : ℕ) : Parsed :=
  if a * b < 2 ^ 64 then .ok (a * b)
  else
    match build with
    | .debug => .panicked
    | .release => .ok (a * b % 2 ^ 64)

/-- The number's text and the multiplier; none if the cut panics. -/
def splitSuffix (u : Units) (s : List Char) : Option (List Char × ℕ) :=
  if endsWith s 'G' ∨ endsWith s 'g' then (sliceTo s (strLen s - 1)).map (·, u.giga)
  else if endsWith s 'M' ∨ endsWith s 'm' then (sliceTo s (strLen s - 1)).map (·, u.mega)
  else if endsWith s 'K' ∨ endsWith s 'k' then (sliceTo s (strLen s - 1)).map (·, u.kilo)
  else some (s, 1)

def parseScaled (build : Build) (u : Units) (empty invalid : String) (s : String) : Parsed :=
  let s := trim s.toList
  if s.isEmpty then .err empty
  else
    match splitSuffix u s with
    | none => .panicked
    | some (numberStr, multiplier) =>
      match Decimal.parse (2 ^ 64) numberStr with
      | none => .err (invalid ++ String.ofList numberStr)
      | some number => build.mul number multiplier

def parseBandwidth (build : Build) (s : String) : Parsed :=
  parseScaled build bandwidthUnits "Bandwidth cannot be empty" "Invalid bandwidth number: " s

def parseByteSize (build : Build) (s : String) : Parsed :=
  parseScaled build byteUnits "Byte size cannot be empty" "Invalid byte size number: " s

/-! ### What an argument says -/

inductive Suffix where
  | kilo
  | mega
  | giga

def Suffix.letters : Suffix → List Char
  | .kilo => ['K', 'k']
  | .mega => ['M', 'm']
  | .giga => ['G', 'g']

def Units.factor (u : Units) : Suffix → ℕ
  | .kilo => u.kilo
  | .mega => u.mega
  | .giga => u.giga

/-- A number, and the multiplier of the suffix after it. -/
inductive Scaled (u : Units) : List Char → ℕ → ℕ → Prop where
  | plain {s : List Char} {n : ℕ} (h : Decimal.Numeral s n) : Scaled u s n 1
  | suffix {s : List Char} {n : ℕ} {c : Char} {x : Suffix} (hc : c ∈ x.letters)
    (h : Decimal.Numeral s n) : Scaled u (s ++ [c]) n (u.factor x)

/-- The trimmed argument is a number with a suffix or without one, whose value fits in 64 bits and
is the result; or it is not, and is rejected. -/
def ReadExactly (u : Units) (s : String) (result : Parsed) : Prop :=
  (∃ n m, Scaled u (trim s.toList) n m ∧ n * m < 2 ^ 64 ∧ result = .ok (n * m)) ∨
  ((¬ ∃ n m, Scaled u (trim s.toList) n m ∧ n * m < 2 ^ 64) ∧ ∃ message, result = .err message)

/-- A number that fits in 64 bits still does with its multiplier. -/
def Fits (u : Units) (s : String) : Prop :=
  ∀ n m, Scaled u (trim s.toList) n m → n < 2 ^ 64 → n * m < 2 ^ 64

/-! ### The cut -/

theorem sliceTo_append (s t : List Char) : sliceTo (s ++ t) (strLen s) = some s := by
  induction s with
  | nil =>
    cases t with
    | nil => rfl
    | cons c t => rfl
  | cons c s ih =>
    have hpos : 0 < c.utf8Size := c.utf8Size_pos
    obtain ⟨n, hn⟩ : ∃ n, c.utf8Size + strLen s = n + 1 := ⟨c.utf8Size + strLen s - 1, by omega⟩
    have hrest : n + 1 - c.utf8Size = strLen s := by omega
    have hfits : c.utf8Size ≤ n + 1 := by omega
    rw [List.cons_append, strLen, hn, sliceTo, if_pos hfits, hrest, ih, Option.map_some]

theorem strLen_append_singleton (s : List Char) (c : Char) :
    strLen (s ++ [c]) = strLen s + c.utf8Size := by
  induction s with
  | nil => exact Nat.add_comm ..
  | cons d s ih => rw [List.cons_append, strLen, ih, strLen, Nat.add_assoc]

theorem sliceTo_suffix (s : List Char) {c : Char} (hc : c.utf8Size = 1) :
    sliceTo (s ++ [c]) (strLen (s ++ [c]) - 1) = some s := by
  rw [strLen_append_singleton, hc, Nat.add_sub_cancel, sliceTo_append]

theorem endsWith_concat (s : List Char) (c d : Char) :
    endsWith (s ++ [c]) d ↔ c = d := by
  unfold endsWith
  rw [List.getLast?_concat, decide_eq_true_iff, Option.some_inj]

/-! ### Suffixes -/

theorem letter_spec {x : Suffix} {c : Char} (h : c ∈ x.letters) :
    c.utf8Size = 1 ∧ c.isDigit = false := by
  cases x <;>
  · simp only [Suffix.letters, List.mem_cons, List.not_mem_nil, or_false] at h
    rcases h with rfl | rfl <;> decide

theorem letter_unique {x y : Suffix} {c : Char} (hx : c ∈ x.letters) (hy : c ∈ y.letters) :
    x = y := by
  cases x <;> cases y <;> first
  | rfl
  | simp only [Suffix.letters, List.mem_cons, List.not_mem_nil, or_false] at hx
    rcases hx with rfl | rfl <;> exact absurd hy (by decide)

theorem splitSuffix_letter (u : Units) (s : List Char) {x : Suffix} {c : Char}
    (h : c ∈ x.letters) : splitSuffix u (s ++ [c]) = some (s, u.factor x) := by
  have hcut := sliceTo_suffix s (letter_spec h).1
  unfold splitSuffix
  simp only [endsWith_concat, hcut, Option.map_some]
  cases x <;>
  · simp only [Suffix.letters, List.mem_cons, List.not_mem_nil, or_false] at h
    rcases h with rfl | rfl <;> rfl

theorem splitSuffix_plain (u : Units) {s : List Char}
    (h : ∀ x : Suffix, ∀ c ∈ x.letters, ¬ endsWith s c) : splitSuffix u s = some (s, 1) := by
  have hgiga := h .giga
  have hmega := h .mega
  have hkilo := h .kilo
  simp only [Suffix.letters, List.forall_mem_cons] at hgiga hmega hkilo
  unfold splitSuffix
  rw [if_neg (not_or.mpr ⟨hgiga.1, hgiga.2.1⟩), if_neg (not_or.mpr ⟨hmega.1, hmega.2.1⟩),
    if_neg (not_or.mpr ⟨hkilo.1, hkilo.2.1⟩)]

/-- The cut never panics, and what it leaves says the same number. -/
theorem splitSuffix_spec (u : Units) (s : List Char) :
    ∃ numberStr multiplier, splitSuffix u s = some (numberStr, multiplier) ∧
      ∀ n m, Scaled u s n m ↔ Decimal.Numeral numberStr n ∧ m = multiplier := by
  by_cases hletter : ∃ x : Suffix, ∃ c ∈ x.letters, ∃ t, s = t ++ [c]
  · obtain ⟨x, c, hc, t, rfl⟩ := hletter
    refine ⟨t, u.factor x, splitSuffix_letter u t hc, fun n m => ⟨fun h => ?_, ?_⟩⟩
    · generalize heq : t ++ [c] = s at h
      cases h with
      | plain hnum =>
        subst heq
        exact absurd hnum.last_digit (by rw [(letter_spec hc).2]; decide)
      | suffix hc' hnum =>
        obtain ⟨rfl, hlast⟩ := List.append_inj' heq rfl
        cases hlast
        exact ⟨hnum, by rw [letter_unique hc hc']⟩
    · rintro ⟨hnum, rfl⟩
      exact .suffix hc hnum
  · have hplain : splitSuffix u s = some (s, 1) := by
      refine splitSuffix_plain u (fun x c hc hends => hletter ⟨x, c, hc, s.dropLast, ?_⟩)
      rw [endsWith, decide_eq_true_iff] at hends
      exact (List.dropLast_append_getLast? c hends).symm
    refine ⟨s, 1, hplain, fun n m => ⟨fun h => ?_, ?_⟩⟩
    · cases h with
      | plain hnum => exact ⟨hnum, rfl⟩
      | @suffix t n c x hc hnum => exact absurd ⟨x, c, hc, t, rfl⟩ hletter
    · rintro ⟨hnum, rfl⟩
      exact .plain hnum

theorem Scaled.unique {u : Units} {s : List Char} {n m n' m' : ℕ} (h : Scaled u s n m)
    (h' : Scaled u s n' m') : n = n' ∧ m = m' := by
  obtain ⟨numberStr, multiplier, -, hsplit⟩ := splitSuffix_spec u s
  obtain ⟨hnum, rfl⟩ := (hsplit n m).mp h
  obtain ⟨hnum', rfl⟩ := (hsplit n' m').mp h'
  exact ⟨hnum.unique hnum', rfl⟩

theorem Scaled.pos {u : Units} {s : List Char} {n m : ℕ} (h : Scaled u s n m) : 0 < m := by
  cases h with
  | plain hnum => exact Nat.one_pos
  | @suffix s n c x hc hnum =>
    cases x with
    | kilo => exact u.pos.1
    | mega => exact u.pos.2.1
    | giga => exact u.pos.2.2

theorem Scaled.ne_nil {u : Units} {s : List Char} {n m : ℕ} (h : Scaled u s n m) : s ≠ [] := by
  cases h with
  | plain hnum =>
    cases hnum with
    | digits hne hds => exact hne
    | plus hne hds => exact List.cons_ne_nil _ _
  | suffix hc hnum => exact List.append_ne_nil_of_right_ne_nil _ (List.cons_ne_nil _ _)

/-! ### What is returned -/

section Returned

variable {build : Build} {u : Units} {empty invalid s : String}

theorem parseScaled_of_scaled {n m : ℕ} (h : Scaled u (trim s.toList) n m) (hn : n < 2 ^ 64) :
    parseScaled build u empty invalid s = build.mul n m := by
  obtain ⟨numberStr, multiplier, hcut, hsplit⟩ := splitSuffix_spec u (trim s.toList)
  obtain ⟨hnum, rfl⟩ := (hsplit n m).mp h
  have hparse := (Decimal.parse_eq_some_iff (by decide) numberStr).mpr ⟨hnum, hn⟩
  have hempty : ¬ (trim s.toList).isEmpty := by
    rw [List.isEmpty_iff]
    exact h.ne_nil
  simp only [parseScaled, if_neg hempty, hcut, hparse]

theorem parseScaled_of_not_scaled (h : ¬ ∃ n m, Scaled u (trim s.toList) n m ∧ n < 2 ^ 64) :
    ∃ message, parseScaled build u empty invalid s = .err message := by
  obtain ⟨numberStr, multiplier, hcut, hsplit⟩ := splitSuffix_spec u (trim s.toList)
  have hparse : Decimal.parse (2 ^ 64) numberStr = none := by
    rw [Option.eq_none_iff_forall_ne_some]
    intro n hsome
    obtain ⟨hnum, hn⟩ := (Decimal.parse_eq_some_iff (by decide) numberStr).mp hsome
    exact h ⟨n, multiplier, (hsplit n multiplier).mpr ⟨hnum, rfl⟩, hn⟩
  by_cases hempty : (trim s.toList).isEmpty
  · exact ⟨empty, by simp only [parseScaled, if_pos hempty]⟩
  · exact ⟨invalid ++ String.ofList numberStr,
      by simp only [parseScaled, if_neg hempty, hcut, hparse]⟩

theorem mul_of_lt {n m : ℕ} (h : n * m < 2 ^ 64) : build.mul n m = .ok (n * m) := if_pos h

theorem mul_ne_err (n m : ℕ) (message : String) : build.mul n m ≠ .err message := by
  unfold Build.mul
  split
  · exact fun h => nomatch h
  · cases build with
    | debug => exact fun h => nomatch h
    | release => exact fun h => nomatch h

theorem parseScaled_exact_iff (build : Build) (u : Units) (empty invalid s : String) :
    ReadExactly u s (parseScaled build u empty invalid s) ↔ Fits u s := by
  constructor
  · intro hexact n m hscaled hn
    rw [parseScaled_of_scaled hscaled hn] at hexact
    rcases hexact with ⟨n', m', hscaled', hlt, -⟩ | ⟨-, message, herr⟩
    · obtain ⟨rfl, rfl⟩ := hscaled.unique hscaled'
      exact hlt
    · exact absurd herr (mul_ne_err n m message)
  · intro hfits
    by_cases h : ∃ n m, Scaled u (trim s.toList) n m ∧ n < 2 ^ 64
    · obtain ⟨n, m, hscaled, hn⟩ := h
      have hlt := hfits n m hscaled hn
      refine .inl ⟨n, m, hscaled, hlt, ?_⟩
      rw [parseScaled_of_scaled hscaled hn, mul_of_lt hlt]
    · refine .inr ⟨?_, parseScaled_of_not_scaled h⟩
      -- a number that is too large is no smaller with its multiplier
      rintro ⟨n, m, hscaled, hlt⟩
      exact h ⟨n, m, hscaled, Nat.lt_of_le_of_lt (Nat.le_mul_of_pos_right n hscaled.pos) hlt⟩

end Returned

/-- Both parsers read every argument exactly but for those with a number that fits in 64 bits and a
multiplier with which it does not. -/
theorem arguments_exact_iff (build : Build) (s : String) :
    (ReadExactly bandwidthUnits s (parseBandwidth build s) ↔ Fits bandwidthUnits s) ∧
      (ReadExactly byteUnits s (parseByteSize build s) ↔ Fits byteUnits s) :=
  ⟨parseScaled_exact_iff .., parseScaled_exact_iff ..⟩

example : parseByteSize .debug "ééK" = .err "Invalid byte size number: éé" := by decide

example :
    parseBandwidth .debug "18446744074G" = .panicked ∧
      parseBandwidth .release "18446744074G" = .ok 290448384 := by
  decide

theorem arguments_not_exact :
    ¬ ∀ (build : Build) (s : String), ReadExactly bandwidthUnits s (parseBandwidth build s) ∧
      ReadExactly byteUnits s (parseByteSize build s) := by
  intro h
  have hexact := (h .release "18446744074G").1
  have hfits := (parseScaled_exact_iff ..).mp hexact
  have hnum : Decimal.Numeral "18446744074".toList 18446744074 :=
    .digits (by decide) (List.all_eq_true.mp rfl)
  have hscaled : Scaled bandwidthUnits (trim "18446744074G".toList) 18446744074 1000000000 :=
    .suffix (c := 'G') (x := .giga) (by decide) hnum
  exact absurd (hfits _ _ hscaled (by omega)) (by omega)

end Rperf3
