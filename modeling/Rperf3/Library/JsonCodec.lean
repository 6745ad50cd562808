import Mathlib.Algebra.Ring.Int.Defs
import Mathlib.Algebra.Ring.Nat
import Mathlib.Data.Rat.Defs

/-!
# Records as JSON values

A JSON value keeps integers and floating-point numbers apart. Decoders are partial
functions on values; a record is read field by field, an optional field may be
missing or null, and a field of a name nobody asks for is ignored. An untagged
choice is read by the first decoder that succeeds.
-/

inductive Json where
  | null
  | bool (b : Bool)
  | int (n : ℤ)
  | float (x : ℚ)
  | str (s : String)
  | arr (values : List Json)
  | obj (fields : List (String × Json))

namespace Json

variable {α β : Type*}

/-! ### Decoders -/

def asBool : Json → Option Bool
  | .bool b => some b
  | _ => none

def asStr : Json → Option String
  | .str s => some s
  | _ => none

def asInt : Json → Option ℤ
  | .int n => some n
  | _ => none

/-- A number without a fraction is read as a floating-point number too. -/
def asFloat : Json → Option ℚ
  | .float x => some x
  | .int n => some n
  | _ => none

/-- A natural number below `2 ^ w`. -/
def asBits (w : ℕ) : Json → Option ℕ
  | .int n => if 0 ≤ n ∧ n < 2 ^ w then some n.toNat else none
  | _ => none

def asNat : Json → Option ℕ
  | .int n => if 0 ≤ n then some n.toNat else none
  | _ => none

def asList (dec : Json → Option α) : Json → Option (List α)
  | .arr values => values.mapM dec
  | _ => none

def asOption (dec : Json → Option α) : Json → Option (Option α)
  | .null => some none
  | j => (dec j).map some

/-! ### Records -/

def field (name : String) : Json → Option Json
  | .obj fields => fields.lookup name
  | _ => none

def required (dec : Json → Option α) (name : String) (j : Json) : Option α :=
  (j.field name).bind dec

def optional (dec : Json → Option α) (name : String) (j : Json) : Option (Option α) :=
  match j.field name with
  | none => some none
  | some v => v.asOption dec

def defaulted (dec : Json → Option α) (default : α) (name : String) (j : Json) : Option α :=
  match j.field name with
  | none => some default
  | some v => dec v

/-- The first decoder that succeeds decides. -/
def untagged (decs : List (Json → Option α)) (j : Json) : Option α :=
  decs.findSome? (fun dec => dec j)

def ofOption (enc : α → Json) : Option α → Json
  | none => .null
  | some a => enc a

/-- A field that is left out when there is nothing to show. -/
def shown (enc : α → Json) (name : String) : Option α → List (String × Json)
  | none => []
  | some a => [(name, enc a)]

@[simp] theorem shown_none (enc : α → Json) (name : String) : shown enc name none = [] := rfl

@[simp] theorem shown_some (enc : α → Json) (name : String) (a : α) :
    shown enc name (some a) = [(name, enc a)] := rfl

/-! ### Round trips -/

@[simp] theorem asBool_bool (b : Bool) : (Json.bool b).asBool = some b := rfl
@[simp] theorem asStr_str (s : String) : (Json.str s).asStr = some s := rfl
@[simp] theorem asInt_int (n : ℤ) : (Json.int n).asInt = some n := rfl
@[simp] theorem asFloat_float (x : ℚ) : (Json.float x).asFloat = some x := rfl

theorem asBits_int {w n : ℕ} (h : n < 2 ^ w) : (Json.int n).asBits w = some n := by
  have hlt : (n : ℤ) < 2 ^ w := by exact_mod_cast h
  simp only [asBits, Int.natCast_nonneg, hlt, and_self, if_true, Int.toNat_natCast]

@[simp] theorem asNat_int (n : ℕ) : (Json.int n).asNat = some n := by
  simp only [asNat, Int.natCast_nonneg, if_true, Int.toNat_natCast]

theorem asList_encode {enc : α → Json} {dec : Json → Option β} {f : α → β} {as : List α}
    (h : ∀ a ∈ as, dec (enc a) = some (f a)) :
    (Json.arr (as.map enc)).asList dec = some (as.map f) := by
  unfold asList
  induction as with
  | nil => rfl
  | cons a as ih =>
    have hhead := h a (List.mem_cons_self ..)
    have hrest := ih (fun b hb => h b (List.mem_cons_of_mem _ hb))
    dsimp only at hrest ⊢
    rw [List.map_cons, List.mapM_cons, hhead, hrest]
    rfl

theorem asList_roundtrip {enc : α → Json} {dec : Json → Option α} {as : List α}
    (h : ∀ a ∈ as, dec (enc a) = some a) : (Json.arr (as.map enc)).asList dec = some as := by
  rw [asList_encode (f := id) h, List.map_id]

theorem length_asList {dec : Json → Option α} {values : List Json} {as : List α}
    (h : (Json.arr values).asList dec = some as) : as.length = values.length := by
  unfold asList at h
  dsimp only at h
  induction values generalizing as with
  | nil =>
    cases h
    rfl
  | cons v values ih =>
    rw [List.mapM_cons] at h
    obtain ⟨a, -, h⟩ := Option.bind_eq_some_iff.mp h
    obtain ⟨rest, hrest, h⟩ := Option.bind_eq_some_iff.mp h
    cases h
    rw [List.length_cons, List.length_cons, ih hrest]

@[simp] theorem asOption_null (dec : Json → Option α) : Json.null.asOption dec = some none := rfl

theorem asOption_of_ne_null {j : Json} (h : j ≠ .null) (dec : Json → Option α) :
    j.asOption dec = (dec j).map some := by
  cases j with
  | null => exact absurd rfl h
  | _ => rfl

theorem asOption_ofOption {enc : α → Json} {dec : Json → Option α}
    (h : ∀ a, dec (enc a) = some a) (hnull : ∀ a, enc a ≠ .null) (o : Option α) :
    (ofOption enc o).asOption dec = some o := by
  cases o with
  | none => rfl
  | some a =>
    rw [ofOption, asOption_of_ne_null (hnull a), h]
    rfl

/-! ### Looking up a field -/

section Fields

variable {name name' : String} {v : Json} {fields : List (String × Json)} {dec : Json → Option α}
  {a : α}

theorem field_self : (Json.obj ((name, v) :: fields)).field name = some v := by
  simp [field]

theorem field_skip (h : name ≠ name') :
    (Json.obj ((name', v) :: fields)).field name = (Json.obj fields).field name := by
  have hne : (name == name') = false := beq_eq_false_iff_ne.mpr h
  simp [field, List.lookup_cons, hne]

@[simp] theorem required_self : (Json.obj ((name, v) :: fields)).required dec name = dec v := by
  rw [required, field_self, Option.bind_some]

@[simp] theorem required_skip (h : name ≠ name') :
    (Json.obj ((name', v) :: fields)).required dec name =
      (Json.obj fields).required dec name := by
  rw [required, field_skip h, required]

@[simp] theorem required_nil : (Json.obj []).required dec name = none := rfl

@[simp] theorem optional_self :
    (Json.obj ((name, v) :: fields)).optional dec name = v.asOption dec := by
  rw [optional, field_self]

@[simp] theorem optional_skip (h : name ≠ name') :
    (Json.obj ((name', v) :: fields)).optional dec name =
      (Json.obj fields).optional dec name := by
  rw [optional, field_skip h, optional]

@[simp] theorem optional_nil : (Json.obj []).optional dec name = some none := rfl

@[simp] theorem defaulted_self :
    (Json.obj ((name, v) :: fields)).defaulted dec a name = dec v := by
  rw [defaulted, field_self]

@[simp] theorem defaulted_skip (h : name ≠ name') :
    (Json.obj ((name', v) :: fields)).defaulted dec a name =
      (Json.obj fields).defaulted dec a name := by
  rw [defaulted, field_skip h, defaulted]

@[simp] theorem defaulted_nil : (Json.obj []).defaulted dec a name = some a := rfl

end Fields

/-! ### Numbers in range -/

section Range

variable {j : Json} {w n : ℕ} {name : String}

theorem asBits_lt (h : j.asBits w = some n) : n < 2 ^ w := by
  cases j with
  | int k =>
    obtain ⟨⟨hpos, hlt⟩, hn⟩ := Option.ite_none_right_eq_some.mp h
    obtain rfl := Option.some.inj hn
    exact (Int.toNat_lt hpos).mpr (by exact_mod_cast hlt)
  | _ => cases h

theorem required_bits_lt (h : j.required (asBits w) name = some n) : n < 2 ^ w := by
  obtain ⟨v, -, hv⟩ := Option.bind_eq_some_iff.mp h
  exact asBits_lt hv

theorem optional_bits_lt {o : Option ℕ} (h : j.optional (asBits w) name = some o) :
    ∀ n ∈ o, n < 2 ^ w := by
  rintro n rfl
  unfold optional at h
  cases hfield : j.field name with
  | none =>
    rw [hfield] at h
    cases h
  | some v =>
    rw [hfield] at h
    by_cases hnull : v = .null
    · rw [hnull] at h
      cases h
    · dsimp only at h
      rw [asOption_of_ne_null hnull] at h
      obtain ⟨m, hm, hn⟩ := Option.map_eq_some_iff.mp h
      obtain rfl := Option.some.inj hn
      exact asBits_lt hm

end Range

/-! ### Objects written by others -/

/-- The field is there, or it is null and left out. -/
def HasField (given : List (String × Json)) (name : String) (v : Json) : Prop :=
  given.lookup name = some v ∨ v = .null ∧ given.lookup name = none

/-- Every written field is there, in any order and among any others. -/
def Holds (given : List (String × Json)) : List (String × Json) → Prop
  | [] => True
  | (name, v) :: rest => HasField given name v ∧ Holds given rest

section Holds

variable {given written : List (String × Json)} {name : String} {v : Json}

theorem HasField.required (h : HasField given name v) (hv : v ≠ .null)
    (dec : Json → Option α) : (Json.obj given).required dec name = dec v := by
  obtain hfound | ⟨hnull, -⟩ := h
  · exact congrArg (Option.bind · dec) hfound
  · exact absurd hnull hv

theorem HasField.optional (h : HasField given name v) (dec : Json → Option α) :
    (Json.obj given).optional dec name = v.asOption dec := by
  unfold Json.optional field
  dsimp only
  obtain hfound | ⟨rfl, hmissing⟩ := h
  · rw [hfound]
  · rw [hmissing]
    rfl

theorem holds_of_forall (h : ∀ e ∈ written, given.lookup e.1 = some e.2) :
    Holds given written := by
  induction written with
  | nil => trivial
  | cons e written ih =>
    obtain ⟨he, hrest⟩ := List.forall_mem_cons.mp h
    exact ⟨.inl he, ih hrest⟩

/-- An object whose names differ holds its own fields. -/
theorem holds_self (h : (written.map Prod.fst).Nodup) : Holds written written := by
  refine holds_of_forall ?_
  induction written with
  | nil => exact fun _ he => absurd he List.not_mem_nil
  | cons e written ih =>
    obtain ⟨hnew, hrest⟩ := List.nodup_cons.mp h
    intro e' he'
    rcases List.mem_cons.mp he' with rfl | he'
    · rw [List.lookup_cons, beq_self_eq_true]
    · have hne : e'.1 ≠ e.1 := fun heq => hnew (heq ▸ List.mem_map_of_mem he')
      have hfalse : (e'.1 == e.1) = false := beq_eq_false_iff_ne.mpr hne
      rw [List.lookup_cons, hfalse]
      exact ih hrest e' he'

end Holds

end Json
