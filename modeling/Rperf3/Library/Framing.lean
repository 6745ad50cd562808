import Mathlib.Data.List.Basic
import Mathlib.Data.List.Infix
import Mathlib.Data.List.Flatten

/-!
# Self-delimiting codes on a byte stream

A decoder takes one message off the front of a stream and says what is left.
`Delimits encode decode P` is the contract of a self-delimiting code on the
messages satisfying `P`: a whole encoding is decoded and nothing after it is
touched, and a stream that ends inside an encoding is an error that consumes
it. From these, `decodeMany_encode` and `decodeMany_cut` describe repeated
decoding of a concatenation of encodings and of any proper prefix of it.

The second half is the transport: a `Source` delivers its contents in chunks,
`readExact` assembles a requested number of symbols from them, and
`Follows` says that a decoder on sources computes a decoder on the contents.
-/

namespace Framing

variable {α μ ε σ τ : Type*}

abbrev Decoder (σ ε μ : Type*) := σ → Except ε μ × σ

def decodeMany (decode : Decoder σ ε μ) : ℕ → σ → List (Except ε μ) × σ
  | 0, s => ([], s)
  | n + 1, s =>
    let r := decode s
    let rs := decodeMany decode n r.2
    (r.1 :: rs.1, rs.2)

@[simp] theorem decodeMany_zero (decode : Decoder σ ε μ) (s : σ) :
    decodeMany decode 0 s = ([], s) := rfl

theorem decodeMany_succ (decode : Decoder σ ε μ) (n : ℕ) (s : σ) :
    decodeMany decode (n + 1) s =
      ((decode s).1 :: (decodeMany decode n (decode s).2).1,
        (decodeMany decode n (decode s).2).2) := rfl

/-- The contract of a self-delimiting code on the messages satisfying `P`. -/
structure Delimits (encode : μ → List α) (decode : Decoder (List α) ε μ) (P : μ → Prop) : Prop where
  whole : ∀ m rest, P m → decode (encode m ++ rest) = (.ok m, rest)
  cut : ∀ m p, P m → p <+: encode m → p ≠ encode m → ∃ e, decode p = (.error e, [])
  nonempty : ∀ m, P m → encode m ≠ []

/-- `k` is the number of encodings of `ms` that lie whole inside `p`, and `p` ends before the
end of the next one. -/
def CutAfter (encode : μ → List α) (ms : List μ) (k : ℕ) (p : List α) : Prop :=
  k < ms.length ∧ (ms.take k).flatMap encode <+: p ∧
    p.length < ((ms.take (k + 1)).flatMap encode).length

section Code

variable {encode : μ → List α} {decode : Decoder (List α) ε μ} {P : μ → Prop}

theorem decodeMany_encode (h : Delimits encode decode P) (ms : List μ) (hP : ∀ m ∈ ms, P m)
    (rest : List α) :
    decodeMany decode ms.length (ms.flatMap encode ++ rest) = (ms.map .ok, rest) := by
  induction ms with
  | nil => rfl
  | cons m ms ih =>
    have hm := h.whole m (ms.flatMap encode ++ rest) (hP m (List.mem_cons_self ..))
    have hrest := ih (fun x hx => hP x (List.mem_cons_of_mem _ hx))
    rw [List.length_cons, List.flatMap_cons, List.append_assoc, decodeMany_succ, hm]
    simp only [hrest, List.map_cons]

theorem decodeMany_nil (h : Delimits encode decode P) {m : μ} (hm : P m) (n : ℕ) :
    ∃ es : List ε, es.length = n ∧ decodeMany decode n [] = (es.map .error, []) := by
  obtain ⟨e, he⟩ := h.cut m [] hm (List.nil_prefix) (h.nonempty m hm).symm
  induction n with
  | zero => exact ⟨[], rfl, rfl⟩
  | succ n ih =>
    obtain ⟨es, hl, hes⟩ := ih
    refine ⟨e :: es, by rw [List.length_cons, hl], ?_⟩
    rw [decodeMany_succ, he]
    simp only [hes, List.map_cons]

theorem exists_cutAfter (ms : List μ) (p : List α) (hp : p <+: ms.flatMap encode)
    (hne : p ≠ ms.flatMap encode) : ∃ k, CutAfter encode ms k p := by
  induction ms generalizing p with
  | nil => exact absurd (List.prefix_nil.mp hp) hne
  | cons m ms ih =>
    rw [List.flatMap_cons] at hp hne
    by_cases hlt : p.length < (encode m).length
    · refine ⟨0, by simp, by simp, ?_⟩
      simpa using hlt
    · obtain ⟨q, rfl⟩ : encode m <+: p :=
        List.prefix_of_prefix_length_le (List.prefix_append _ _) hp (by omega)
      have hq : q <+: ms.flatMap encode := (List.prefix_append_right_inj _).mp hp
      obtain ⟨k, hk, hwhole, hshort⟩ := ih q hq (fun he => hne (by rw [he]))
      refine ⟨k + 1, by simpa using hk, ?_, ?_⟩
      · simpa only [List.take_succ_cons, List.flatMap_cons] using
          (List.prefix_append_right_inj _).mpr hwhole
      · simp only [List.take_succ_cons, List.flatMap_cons, List.length_append] at hshort ⊢
        omega

/-- Decoding a stream cut inside the encoding of message `k` returns the `k` messages before it
and then only errors. -/
theorem decodeMany_cut (h : Delimits encode decode P) (ms : List μ) (hP : ∀ m ∈ ms, P m)
    (p : List α) (hp : p <+: ms.flatMap encode) (k : ℕ) (hk : CutAfter encode ms k p) (n : ℕ) :
    ∃ es : List ε, es.length = n + 1 ∧
      decodeMany decode (k + (n + 1)) p = ((ms.take k).map .ok ++ es.map .error, []) := by
  induction k generalizing ms p with
  | zero =>
    obtain ⟨hlt, -, hshort⟩ := hk
    cases ms with
    | nil => simp at hlt
    | cons m ms =>
      have hm := hP m (List.mem_cons_self ..)
      simp only [List.take_succ_cons, List.take_zero, List.flatMap_cons, List.flatMap_nil,
        List.append_nil] at hshort
      have hcut : p <+: encode m := by
        rw [List.flatMap_cons] at hp
        exact List.prefix_of_prefix_length_le hp (List.prefix_append _ _) (by omega)
      obtain ⟨e, he⟩ := h.cut m p hm hcut (fun hh => by rw [hh] at hshort; omega)
      obtain ⟨es, hl, hes⟩ := decodeMany_nil h hm n
      refine ⟨e :: es, by rw [List.length_cons, hl], ?_⟩
      rw [Nat.zero_add, decodeMany_succ, he]
      simp only [hes, List.take_zero, List.map_nil, List.nil_append, List.map_cons]
  | succ k ih =>
    obtain ⟨hlt, hwhole, hshort⟩ := hk
    cases ms with
    | nil => simp at hlt
    | cons m ms =>
      have hm := hP m (List.mem_cons_self ..)
      simp only [List.take_succ_cons, List.flatMap_cons, List.length_append, List.length_cons]
        at hlt hwhole hshort
      obtain ⟨q, rfl⟩ : encode m <+: p := (List.prefix_append _ _).trans hwhole
      rw [List.flatMap_cons] at hp
      have hq : CutAfter encode ms k q := by
        refine ⟨by omega, (List.prefix_append_right_inj _).mp hwhole, ?_⟩
        rw [List.length_append] at hshort
        omega
      obtain ⟨es, hl, hes⟩ := ih ms (fun x hx => hP x (List.mem_cons_of_mem _ hx)) q
        ((List.prefix_append_right_inj _).mp hp) hq
      refine ⟨es, hl, ?_⟩
      have hsum : k + 1 + (n + 1) = (k + (n + 1)) + 1 := by omega
      rw [hsum, decodeMany_succ, h.whole m q hm]
      simp only [hes, List.take_succ_cons, List.map_cons, List.cons_append]

end Code

/-! ### Chunked transport -/

/-- What one read call returns: never empty, since an empty read means end of input. -/
abbrev Chunk (α : Type*) := { c : List α // c ≠ [] }

abbrev Source (α : Type*) := List (Chunk α)

def contents (s : Source α) : List α := s.flatMap (·.val)

@[simp] theorem contents_nil : contents ([] : Source α) = [] := rfl

@[simp] theorem contents_cons (c : Chunk α) (s : Source α) :
    contents (c :: s) = c.val ++ contents s := rfl

/-- Exactly `n` symbols, assembled from as many reads as it takes; `none` when the input ends
first, in which case all of it has been consumed. -/
def readExact : ℕ → Source α → Option (List α) × Source α
  | 0, s => (some [], s)
  | _ + 1, [] => (none, [])
  | n + 1, c :: s =>
    if h : n + 1 < c.val.length then
      (some (c.val.take (n + 1)), ⟨c.val.drop (n + 1), by
        intro he
        have hl := congrArg List.length he
        rw [List.length_drop, List.length_nil] at hl
        omega⟩ :: s)
    else
      let r := readExact (n + 1 - c.val.length) s
      (r.1.map (c.val ++ ·), r.2)

theorem readExact_of_le (n : ℕ) (s : Source α) (h : n ≤ (contents s).length) :
    (readExact n s).1 = some ((contents s).take n) ∧
      contents (readExact n s).2 = (contents s).drop n := by
  induction s generalizing n with
  | nil =>
    have hn : n = 0 := by simpa using h
    subst hn
    simp [readExact]
  | cons c s ih =>
    cases n with
    | zero => simp [readExact]
    | succ n =>
      rw [contents_cons, List.length_append] at h
      simp only [readExact, contents_cons]
      by_cases hc : n + 1 < c.val.length
      · rw [dif_pos hc, List.take_append_of_le_length (by omega),
          List.drop_append_of_le_length (by omega)]
        exact ⟨rfl, rfl⟩
      · obtain ⟨h1, h2⟩ := ih (n + 1 - c.val.length) (by omega)
        have htake : c.val.take (n + 1) = c.val := List.take_of_length_le (by omega)
        have hdrop : c.val.drop (n + 1) = [] := List.drop_eq_nil_of_le (by omega)
        rw [dif_neg hc, List.take_append, List.drop_append, htake, hdrop]
        simp only [h1, h2, Option.map_some, List.nil_append, and_self]

theorem readExact_of_gt (n : ℕ) (s : Source α) (h : (contents s).length < n) :
    readExact n s = (none, []) := by
  induction s generalizing n with
  | nil =>
    cases n with
    | zero => simp at h
    | succ n => rfl
  | cons c s ih =>
    rw [contents_cons, List.length_append] at h
    cases n with
    | zero => omega
    | succ n =>
      simp only [readExact]
      rw [dif_neg (by omega), ih (n + 1 - c.val.length) (by omega)]
      rfl

def Follows (abs : σ → τ) (d : Decoder σ ε μ) (d' : Decoder τ ε μ) : Prop :=
  ∀ s, (d s).1 = (d' (abs s)).1 ∧ abs (d s).2 = (d' (abs s)).2

theorem decodeMany_follows {abs : σ → τ} {d : Decoder σ ε μ} {d' : Decoder τ ε μ}
    (h : Follows abs d d') (n : ℕ) (s : σ) :
    (decodeMany d n s).1 = (decodeMany d' n (abs s)).1 ∧
      abs (decodeMany d n s).2 = (decodeMany d' n (abs s)).2 := by
  induction n generalizing s with
  | zero => exact ⟨rfl, rfl⟩
  | succ n ih =>
    obtain ⟨h1, h2⟩ := h s
    have hn := ih (d s).2
    rw [h2] at hn
    simp only [decodeMany_succ, h1, hn, and_self]

end Framing
