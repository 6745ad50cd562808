import Mathlib.Data.List.Induction

/-!
# Parties on one shared state

Several parties take steps on one state, in any interleaving. A step may report
something it reads from the state. Reports come in kinds; a report of a kind is
determined by a view of the state, and a step is invisible to a kind when it
leaves its view unchanged. Of what kind a report is can depend on what was done
before it. A party whose reports are never preceded by a visible step of somebody
else reports what it would report alone (`reportsOf_run`).
-/

namespace SharedRun

variable {ι σ α ο κ ν : Type*}

structure System (σ α ο : Type*) where
  step : σ → α → σ
  /-- What a step reports, read from the state before it. -/
  report : σ → α → Option ο

def System.after (S : System σ α ο) (s : σ) (as : List α) : σ := as.foldl S.step s

def System.run (S : System σ α ο) : σ → List α → List ο
  | _, [] => []
  | s, a :: as => (S.report s a).toList ++ S.run (S.step s a) as

def System.runTagged (S : System σ α ο) : σ → List (ι × α) → List (ι × ο)
  | _, [] => []
  | s, x :: xs => ((S.report s x.2).toList.map (Prod.mk x.1)) ++ S.runTagged (S.step s x.2) xs

variable [DecidableEq ι]

def own (i : ι) (xs : List (ι × α)) : List α := (xs.filter (fun x => x.1 = i)).map Prod.snd

def reportsOf (i : ι) (rs : List (ι × ο)) : List ο := own i rs

theorem own_append (i : ι) (xs ys : List (ι × α)) : own i (xs ++ ys) = own i xs ++ own i ys := by
  simp only [own, List.filter_append, List.map_append]

theorem own_cons_self (i : ι) (a : α) (xs : List (ι × α)) :
    own i ((i, a) :: xs) = a :: own i xs := by
  simp [own]

theorem own_cons_ne {i j : ι} (h : j ≠ i) (a : α) (xs : List (ι × α)) :
    own i ((j, a) :: xs) = own i xs := by
  simp [own, h]

theorem own_map_mk_self (i : ι) (os : List ο) : own i (os.map (Prod.mk i)) = os := by
  induction os with
  | nil => rfl
  | cons o os ih => rw [List.map_cons, own_cons_self, ih]

theorem own_map_mk_ne {i j : ι} (h : j ≠ i) (os : List ο) : own i (os.map (Prod.mk j)) = [] := by
  induction os with
  | nil => rfl
  | cons o os ih => rw [List.map_cons, own_cons_ne h, ih]

/-! ### Runs and their last step -/

variable (S : System σ α ο)

theorem run_append (s : σ) (as bs : List α) :
    S.run s (as ++ bs) = S.run s as ++ S.run (S.after s as) bs := by
  induction as generalizing s with
  | nil => rfl
  | cons a as ih => simp only [List.cons_append, System.run, System.after, List.foldl_cons, ih,
      List.append_assoc]

omit [DecidableEq ι] in
theorem runTagged_append (s : σ) (xs ys : List (ι × α)) :
    S.runTagged s (xs ++ ys) =
      S.runTagged s xs ++ S.runTagged (S.after s (xs.map Prod.snd)) ys := by
  induction xs generalizing s with
  | nil => rfl
  | cons x xs ih => simp only [List.cons_append, System.runTagged, System.after, List.map_cons,
      List.foldl_cons, ih, List.append_assoc]

/-! ### Views -/

/-- Views of the state, and the steps that can be seen in them. -/
structure Views (S : System σ α ο) (κ ν : Type*) where
  view : κ → σ → ν
  visible : κ → α → Prop
  consistent : ∀ s t a k, view k s = view k t → view k (S.step s a) = view k (S.step t a)
  invisible : ∀ s a k, ¬ visible k a → view k (S.step s a) = view k s

variable {S}

/-- The kind of a party's report, which may depend on what has been done before it. -/
abbrev KindOf (ι α κ : Type*) := List (ι × α) → ι × α → Option κ

/-- No report of a party is preceded by a step of another party that its kind can see. -/
def Views.Undisturbed (V : Views S κ ν) (kind : KindOf ι α κ) (xs : List (ι × α)) : Prop :=
  ∀ pre i a post k, xs = pre ++ (i, a) :: post → kind pre (i, a) = some k →
    ∀ x ∈ pre, x.1 ≠ i → ¬ V.visible k x.2

omit [DecidableEq ι] in
theorem undisturbed_of_append {V : Views S κ ν} {kind : KindOf ι α κ} {xs ys : List (ι × α)}
    (h : V.Undisturbed kind (xs ++ ys)) : V.Undisturbed kind xs := by
  intro pre i a post k hxs
  exact h pre i a (post ++ ys) k (by rw [hxs, List.append_assoc, List.cons_append])

/-- What a report needs: a step without a kind reports nothing, and the view of its kind, with and
without the steps of others, determines the report of any other. -/
structure Views.Determines (V : Views S κ ν) (kind : KindOf ι α κ) (s : σ) : Prop where
  quiet : ∀ pre i a, kind pre (i, a) = none → ∀ t, S.report t a = none
  determined : ∀ pre i a k, kind pre (i, a) = some k →
    V.view k (S.after s (pre.map Prod.snd)) = V.view k (S.after s (own i pre)) →
    S.report (S.after s (pre.map Prod.snd)) a = S.report (S.after s (own i pre)) a

theorem view_after_own (V : Views S κ ν) (i : ι) (k : κ) (xs : List (ι × α)) (s t : σ)
    (hst : V.view k s = V.view k t) (h : ∀ x ∈ xs, x.1 ≠ i → ¬ V.visible k x.2) :
    V.view k (S.after s (xs.map Prod.snd)) = V.view k (S.after t (own i xs)) := by
  induction xs generalizing s t with
  | nil => exact hst
  | cons x xs ih =>
    obtain ⟨j, a⟩ := x
    have hrest : ∀ x ∈ xs, x.1 ≠ i → ¬ V.visible k x.2 :=
      fun x hx => h x (List.mem_cons_of_mem _ hx)
    by_cases hj : j = i
    · subst hj
      rw [own_cons_self]
      exact ih _ _ (V.consistent s t a k hst) hrest
    · rw [own_cons_ne hj]
      have hinv := V.invisible s a k (h (j, a) (List.mem_cons_self ..) hj)
      exact ih _ _ (hinv.trans hst) hrest

/-- In an undisturbed run each party reports what it reports alone. -/
theorem reportsOf_run (V : Views S κ ν) {kind : KindOf ι α κ} {s : σ} (hkind : V.Determines kind s)
    (xs : List (ι × α)) (h : V.Undisturbed kind xs) (i : ι) :
    reportsOf i (S.runTagged s xs) = S.run s (own i xs) := by
  induction xs using List.reverseRecOn with
  | nil => rfl
  | append_singleton xs x ih =>
    obtain ⟨j, a⟩ := x
    have hpre := ih (undisturbed_of_append h)
    rw [runTagged_append, own_append, run_append]
    unfold reportsOf at hpre ⊢
    rw [own_append, hpre]
    congr 1
    simp only [System.runTagged, List.append_nil]
    by_cases hj : j = i
    · subst hj
      rw [own_map_mk_self, own_cons_self]
      simp only [own, List.filter_nil, List.map_nil, System.run, List.append_nil]
      congr 1
      cases hk : kind xs (j, a) with
      | none => rw [hkind.quiet xs j a hk, hkind.quiet xs j a hk]
      | some k =>
        exact hkind.determined xs j a k hk
          (view_after_own V j k xs s s rfl (h xs j a [] k rfl hk))
    · rw [own_map_mk_ne hj, own_cons_ne hj]
      rfl

end SharedRun
