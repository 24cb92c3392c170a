import Mathlib

/-! # Labelled machines, their runs and their invariants

A machine is a set of initial states and a partial step function; every choice
the environment or the scheduler makes is part of the label. A run is a list of
labels. The rules below are the only inductions over runs in the development:
an invariant that holds initially and is kept by every step holds in every
reachable state, and a step condition is a machine of its own (`guard`), so
that "every run whose steps all meet the condition" is reachability there.
-/

namespace AapBridge.Lib

structure Machine (σ : Type*) (α : Type*) where
  init : σ → Prop
  step : σ → α → Option σ

namespace Machine

variable {σ α τ β : Type*}

/-- Performs the labels in order; `none` if one of them is not enabled. -/
def run (M : Machine σ α) : σ → List α → Option σ
  | s, [] => some s
  | s, a :: as => (M.step s a).bind fun t => M.run t as

def Reachable (M : Machine σ α) (s : σ) : Prop :=
  ∃ s₀ as, M.init s₀ ∧ M.run s₀ as = some s

/-- The machine whose steps are those of `M` that meet the condition `C`. -/
def guard (M : Machine σ α) (C : σ → α → Prop) [∀ s a, Decidable (C s a)] : Machine σ α where
  init := M.init
  step s a := if C s a then M.step s a else none

/-! ## Runs -/

@[simp] theorem run_nil (M : Machine σ α) (s : σ) : M.run s [] = some s := rfl

@[simp] theorem run_cons (M : Machine σ α) (s : σ) (a : α) (as : List α) :
    M.run s (a :: as) = (M.step s a).bind fun t => M.run t as := rfl

theorem run_append (M : Machine σ α) (s : σ) (as bs : List α) :
    M.run s (as ++ bs) = (M.run s as).bind fun t => M.run t bs := by
  induction as generalizing s with
  | nil => rfl
  | cons a as ih =>
      cases h : M.step s a with
      | none => simp [h]
      | some t => simp [h, ih]

theorem Reachable.initial {M : Machine σ α} {s : σ} (h : M.init s) : M.Reachable s :=
  ⟨s, [], h, rfl⟩

theorem Reachable.next {M : Machine σ α} {s t : σ} {a : α} (h : M.Reachable s)
    (hs : M.step s a = some t) : M.Reachable t := by
  obtain ⟨s₀, as, hi, hr⟩ := h
  refine ⟨s₀, as ++ [a], hi, ?_⟩
  rw [run_append, hr]
  simp [hs]

theorem Reachable.run {M : Machine σ α} {s t : σ} {as : List α} (h : M.Reachable s)
    (hr : M.run s as = some t) : M.Reachable t := by
  obtain ⟨s₀, bs, hi, hb⟩ := h
  exact ⟨s₀, bs ++ as, hi, by rw [run_append, hb]; exact hr⟩

theorem Reachable.of_run {M : Machine σ α} {s : σ} {as : List α} (hi : M.init s)
    (h : (M.run s as).isSome) : M.Reachable ((M.run s as).get h) :=
  ⟨s, as, hi, (Option.some_get h).symm⟩

/-! ## Invariants -/

/-- What one step keeps, every run keeps. -/
theorem run_preserves {M : Machine σ α} {P : σ → Prop}
    (hstep : ∀ s a t, P s → M.step s a = some t → P t) {s t : σ} {as : List α}
    (hs : P s) (hr : M.run s as = some t) : P t := by
  induction as generalizing s with
  | nil =>
      cases hr
      exact hs
  | cons a as ih =>
      rw [run_cons] at hr
      obtain ⟨u, hu, hrest⟩ := Option.bind_eq_some_iff.mp hr
      exact ih (hstep s a u hs hu) hrest

/-- The invariant rule: initially true and kept by each step, hence true in
every reachable state. -/
theorem Reachable.invariant {M : Machine σ α} {P : σ → Prop} (hinit : ∀ s, M.init s → P s)
    (hstep : ∀ s a t, P s → M.step s a = some t → P t) {s : σ} (h : M.Reachable s) : P s := by
  obtain ⟨s₀, as, hi, hr⟩ := h
  exact run_preserves hstep (hinit s₀ hi) hr

/-- A measure that no step raises and that every counted step lowers bounds the
counted steps of a run. -/
theorem run_countP_le {M : Machine σ α} {P : σ → Prop} {counted : α → Bool} {measure : σ → ℕ}
    (hstep : ∀ s a t, P s → M.step s a = some t →
      P t ∧ measure t ≤ measure s ∧ (counted a = true → measure t < measure s))
    {s t : σ} {as : List α} (hs : P s) (hr : M.run s as = some t) :
    as.countP counted + measure t ≤ measure s := by
  induction as generalizing s with
  | nil =>
      cases hr
      exact (Nat.zero_add _).le
  | cons a as ih =>
      rw [run_cons] at hr
      obtain ⟨u, hu, hrest⟩ := Option.bind_eq_some_iff.mp hr
      obtain ⟨hkept, hle, hlt⟩ := hstep s a u hs hu
      have htail := ih hkept hrest
      rw [List.countP_cons]
      split
      · next hcounted =>
        have hfalls := hlt hcounted
        omega
      · omega

/-! ## Guarded runs -/

/-- `C` holds before every step of the run `as` from `s`. -/
def Along (M : Machine σ α) (C : σ → α → Prop) : σ → List α → Prop
  | _, [] => True
  | s, a :: as => C s a ∧ ∀ t, M.step s a = some t → M.Along C t as

/-- If one step from a good state ends in a good state exactly when it meets `C`,
and nothing happens in a bad state, then a run is good exactly when all its
steps meet `C`. `I` is an invariant of the good states. -/
theorem good_iff_along {M : Machine σ α} {Good I : σ → Prop} {C : σ → α → Prop}
    (hstuck : ∀ s a, ¬Good s → M.step s a = none)
    (hstep : ∀ s a t, Good s → I s → M.step s a = some t → ((Good t ↔ C s a) ∧ (Good t → I t)))
    {s t : σ} {as : List α} (hgood : Good s) (hI : I s) (hr : M.run s as = some t) :
    Good t ↔ M.Along C s as := by
  induction as generalizing s with
  | nil =>
      cases hr
      exact iff_of_true hgood trivial
  | cons a as ih =>
      rw [run_cons] at hr
      obtain ⟨u, hu, hrest⟩ := Option.bind_eq_some_iff.mp hr
      obtain ⟨hiff, hkeep⟩ := hstep s a u hgood hI hu
      by_cases hgu : Good u
      · have htail := ih hgu (hkeep hgu) hrest
        constructor
        · intro hgt
          refine ⟨hiff.mp hgu, fun v hv => ?_⟩
          rw [hu] at hv
          cases hv
          exact htail.mp hgt
        · intro hall
          exact htail.mpr (hall.2 u hu)
      · have hend : as = [] := by
          cases as with
          | nil => rfl
          | cons b as =>
              rw [run_cons, hstuck u b hgu] at hrest
              cases hrest
        subst hend
        cases hrest
        refine iff_of_false hgu fun hall => hgu (hiff.mpr hall.1)

/-- A run that stays good takes only steps that meet `C`, and the other way round. -/
theorem always_iff_along {M : Machine σ α} {Good I : σ → Prop} {C : σ → α → Prop}
    (hstep : ∀ s a t, Good s → I s → M.step s a = some t → ((Good t ↔ C s a) ∧ (Good t → I t)))
    {s t : σ} {as : List α} (hgood : Good s) (hI : I s) (hr : M.run s as = some t) :
    (∀ k u, M.run s (as.take k) = some u → Good u) ↔ M.Along C s as := by
  induction as generalizing s with
  | nil =>
      apply iff_of_true _ trivial
      intro k u hu
      rw [List.take_nil] at hu
      cases hu
      exact hgood
  | cons a as ih =>
      rw [run_cons] at hr
      obtain ⟨u, hu, hrest⟩ := Option.bind_eq_some_iff.mp hr
      obtain ⟨hiff, hkeep⟩ := hstep s a u hgood hI hu
      constructor
      · intro hall
        have hgu : Good u := by
          apply hall 1 u
          rw [List.take_succ_cons, List.take_zero, run_cons, hu]
          rfl
        refine ⟨hiff.mp hgu, ?_⟩
        intro v hv
        rw [hu] at hv
        cases hv
        apply (ih hgu (hkeep hgu) hrest).mp
        intro k w hw
        apply hall (k + 1) w
        rw [List.take_succ_cons, run_cons, hu]
        exact hw
      · rintro ⟨hC, halong⟩ k w hw
        have hgu := hiff.mpr hC
        cases k with
        | zero =>
            cases hw
            exact hgood
        | succ k =>
            rw [List.take_succ_cons, run_cons, hu] at hw
            exact (ih hgu (hkeep hgu) hrest).mpr (halong u hu) k w hw

@[simp] theorem guard_init (M : Machine σ α) (C : σ → α → Prop) [∀ s a, Decidable (C s a)]
    (s : σ) : (M.guard C).init s = M.init s := rfl

theorem guard_step {M : Machine σ α} {C : σ → α → Prop} [∀ s a, Decidable (C s a)] {s t : σ}
    {a : α} : (M.guard C).step s a = some t ↔ C s a ∧ M.step s a = some t := by
  simp [guard]

/-! ## Simulation -/

/-- A map of states under which every step of `M` is a run of `N`. -/
structure Simulation (M : Machine σ α) (N : Machine τ β) where
  map : σ → τ
  init : ∀ s, M.init s → N.init (map s)
  step : ∀ s a t, M.Reachable s → M.step s a = some t → ∃ bs, N.run (map s) bs = some (map t)

theorem Simulation.reachable {M : Machine σ α} {N : Machine τ β} (R : M.Simulation N) {s : σ}
    (h : M.Reachable s) : N.Reachable (R.map s) := by
  have both : M.Reachable s ∧ N.Reachable (R.map s) := by
    refine h.invariant (P := fun s => M.Reachable s ∧ N.Reachable (R.map s)) ?_ ?_
    · intro s hi
      exact ⟨.initial hi, .initial (R.init s hi)⟩
    · intro s a t hs ht
      obtain ⟨bs, hbs⟩ := R.step s a t hs.1 ht
      exact ⟨hs.1.next ht, hs.2.run hbs⟩
  exact both.2

end Machine

/-! ## Numerals of example runs -/

theorem one_neZero : NeZero 1 := ⟨by decide⟩

theorem two_neZero : NeZero 2 := ⟨by decide⟩

theorem four_neZero : NeZero 4 := ⟨by decide⟩

end AapBridge.Lib
