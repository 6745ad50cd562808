import Rperf3.Library.Arrivals
import Rperf3.Library.Lts

/-!
# A network for datagrams

Items are sent one after the other; one in flight arrives or is lost, whichever
and in any order. Nothing is made up and nothing arrives twice
(`conserved_of_reachable`). When the items carry their numbers, what is missing
below the highest number that arrived is in flight or lost (`expected_eq`).
-/

namespace DatagramNet

variable {α : Type*}

structure State (α : Type*) where
  pending : List α
  flying : List α
  arrived : List α
  lost : List α

inductive Action where
  | send
  | deliver (k : ℕ)
  | lose (k : ℕ)
  deriving DecidableEq

def start (all : List α) : State α := ⟨all, [], [], []⟩

def step (s : State α) : Action → Option (State α)
  | .send =>
    match s.pending with
    | [] => none
    | a :: rest => some { s with pending := rest, flying := s.flying ++ [a] }
  | .deliver k =>
    match s.flying[k]? with
    | none => none
    | some a => some { s with flying := s.flying.eraseIdx k, arrived := s.arrived ++ [a] }
  | .lose k =>
    match s.flying[k]? with
    | none => none
    | some a => some { s with flying := s.flying.eraseIdx k, lost := s.lost ++ [a] }

variable {all : List α} {s s' : State α}

/-- What was sent has arrived, is in flight or is lost. -/
def Conserved (all : List α) (s : State α) : Prop :=
  ∃ sent, all = sent ++ s.pending ∧ (s.arrived ++ (s.flying ++ s.lost)).Perm sent

theorem conserved_start (all : List α) : Conserved all (start all) := ⟨[], rfl, .refl _⟩

theorem perm_of_getElem? {l : List α} {k : ℕ} {a : α} (h : l[k]? = some a) :
    (a :: l.eraseIdx k).Perm l := by
  obtain ⟨hk, rfl⟩ := List.getElem?_eq_some_iff.mp h
  exact List.getElem_cons_eraseIdx_perm hk

theorem Conserved.step {x : Action} (h : Conserved all s) (hs : step s x = some s') :
    Conserved all s' := by
  obtain ⟨sent, hall, hperm⟩ := h
  cases x with
  | send =>
    cases hp : s.pending with
    | nil => simp only [DatagramNet.step, hp, reduceCtorEq] at hs
    | cons a rest =>
      simp only [DatagramNet.step, hp] at hs
      cases hs
      refine ⟨sent ++ [a], by rw [hall, hp, List.append_assoc, List.singleton_append], ?_⟩
      have hmove : (s.arrived ++ (s.flying ++ [a] ++ s.lost)).Perm
          (s.arrived ++ (s.flying ++ s.lost) ++ [a]) := by
        rw [List.append_assoc, List.append_assoc, List.append_assoc]
        have hswap : ([a] ++ s.lost).Perm (s.lost ++ [a]) := List.perm_append_comm
        exact (hswap.append_left s.flying).append_left s.arrived
      exact hmove.trans (hperm.append_right [a])
  | deliver k =>
    cases hk : s.flying[k]? with
    | none => simp only [DatagramNet.step, hk, reduceCtorEq] at hs
    | some a =>
      simp only [DatagramNet.step, hk] at hs
      cases hs
      refine ⟨sent, hall, List.Perm.trans ?_ hperm⟩
      rw [List.append_assoc]
      exact ((perm_of_getElem? hk).append_right s.lost).append_left s.arrived
  | lose k =>
    cases hk : s.flying[k]? with
    | none => simp only [DatagramNet.step, hk, reduceCtorEq] at hs
    | some a =>
      simp only [DatagramNet.step, hk] at hs
      cases hs
      refine ⟨sent, hall, List.Perm.trans (List.Perm.append_left s.arrived ?_) hperm⟩
      have hmove : (s.flying.eraseIdx k ++ (s.lost ++ [a])).Perm
          (a :: s.flying.eraseIdx k ++ s.lost) := by
        rw [← List.append_assoc]
        exact List.perm_append_comm
      exact hmove.trans ((perm_of_getElem? hk).append_right s.lost)

theorem conserved_of_reachable (h : Lts.Reachable step (start all) s) : Conserved all s :=
  h.invariant (conserved_start all) (fun _ _ _ hinv _ hs => hinv.step hs)

theorem Conserved.length (h : Conserved all s) :
    all.length = s.pending.length + (s.arrived.length + (s.flying ++ s.lost).length) := by
  obtain ⟨sent, rfl, hperm⟩ := h
  rw [List.length_append, ← hperm.length_eq, List.length_append, Nat.add_comm]

theorem Conserved.mem {a : α} (h : Conserved all s) (ha : a ∈ s.arrived) : a ∈ all := by
  obtain ⟨sent, rfl, hperm⟩ := h
  exact List.mem_append_left _ (hperm.subset (List.mem_append_left _ ha))

/-! ### Numbered items -/

section Numbered

variable {number : α → ℕ}

/-- The numbers that arrived, latest first. -/
def numbers (number : α → ℕ) (s : State α) : List ℕ := s.arrived.reverse.map number

/-- What has not arrived, in flight or lost, below the highest number that has. -/
def behind (number : α → ℕ) (s : State α) : ℕ :=
  (s.flying ++ s.lost).countP (fun a => number a < Arrivals.expected (numbers number s))

theorem numbers_sent (hnumbers : all.map number = List.range all.length) {sent : List α}
    (hall : all = sent ++ s.pending) : sent.map number = List.range sent.length := by
  have htake := congrArg (List.take sent.length) hnumbers
  rw [hall, List.map_append, ← List.length_map number, List.take_left, List.length_map,
    List.take_range, List.length_append, Nat.min_eq_left (Nat.le_add_right ..)] at htake
  exact htake

theorem countP_range (bound m : ℕ) :
    (List.range m).countP (fun n => n < bound) = min bound m := by
  induction m with
  | zero => exact (Nat.min_zero bound).symm
  | succ m ih =>
    rw [List.range_succ, List.countP_append, ih]
    by_cases hm : m < bound
    · simp only [List.countP_singleton, hm, decide_true, if_true]
      omega
    · simp only [List.countP_singleton, hm, decide_false, Bool.false_eq_true, if_false]
      omega

/-- The span of the numbers that arrived is made up by what arrived and what is behind. -/
theorem expected_eq (hnumbers : all.map number = List.range all.length) (h : Conserved all s) :
    Arrivals.expected (numbers number s) = s.arrived.length + behind number s := by
  obtain ⟨sent, hall, hperm⟩ := h
  set bound := Arrivals.expected (numbers number s) with hbound
  have hcount : (s.arrived ++ (s.flying ++ s.lost)).countP (fun a => number a < bound) =
      (List.range sent.length).countP (fun n => n < bound) := by
    rw [hperm.countP_eq, ← numbers_sent hnumbers hall, List.countP_map]
    rfl
  have hle : bound ≤ sent.length := by
    by_cases hempty : numbers number s = []
    · rw [hbound, hempty]
      exact Nat.zero_le _
    · obtain ⟨n, hn, hexpected⟩ := Arrivals.exists_expected hempty
      obtain ⟨a, ha, rfl⟩ := List.mem_map.mp hn
      have hmem : a ∈ sent :=
        hperm.subset (List.mem_append_left _ (List.mem_reverse.mp ha))
      have hrange := List.mem_map_of_mem (f := number) hmem
      rw [numbers_sent hnumbers hall, List.mem_range] at hrange
      rw [hbound, hexpected]
      exact hrange
  have harrived : s.arrived.countP (fun a => number a < bound) = s.arrived.length := by
    rw [List.countP_eq_length]
    intro a ha
    exact decide_eq_true
      (Arrivals.lt_expected (List.mem_map_of_mem (List.mem_reverse.mpr ha)))
  have hrange : (List.range sent.length).countP (fun n => n < bound) = bound := by
    rw [countP_range, Nat.min_eq_left hle]
  rw [List.countP_append, harrived, hrange] at hcount
  exact hcount.symm

end Numbered

end DatagramNet
