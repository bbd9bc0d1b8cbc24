import Mathlib.Data.List.Basic

/-!
# Executable transition systems

A system has a set of initial states and a partial step function: `step s e` is
`none` when the event `e` cannot happen in `s`.  All nondeterminism of a program
is put into its events, so a run is a list of events and can be evaluated.

Two rules carry the proofs that use this file:

* `Invariant.reachable`: what holds initially and is kept by every step holds of
  every reachable state.  `Conditional.run` is the same rule for the runs whose
  steps all meet a condition on the state before the step and the event.
* `Simulation.reachable`: a system whose steps are matched by runs of another
  one reaches only states that stand for reachable states of the other.

`run_iff_meets` is the exact form of the conditional rule: if a condition on one
step decides whether a property survives it, the same condition on all steps
decides whether the property holds at the end of the run.  A property that may come
back after it was lost is asked of every state of the run, in `always_iff_meets`.
-/

namespace Transition

/-- A transition system with an executable partial step. -/
structure System (State Event : Type*) where
  /-- The states a run may start from. -/
  init : State → Prop
  /-- The state after an event, `none` if the event cannot happen. -/
  step : State → Event → Option State

namespace System

variable {State Event : Type*} (M : System State Event)

/-- The state after a list of events, `none` if one of them cannot happen. -/
def run : State → List Event → Option State
  | s, [] => some s
  | s, e :: es => (M.step s e).bind fun t => run t es

/-- The states that runs from an initial state end in. -/
def Reachable (t : State) : Prop :=
  ∃ s es, M.init s ∧ M.run s es = some t

variable {M} {s t u : State} {e : Event} {es es' : List Event}

@[simp] theorem run_nil : M.run s [] = some s := rfl

theorem run_cons : M.run s (e :: es) = (M.step s e).bind fun t => M.run t es := rfl

theorem run_cons_eq_some :
    M.run s (e :: es) = some u ↔ ∃ t, M.step s e = some t ∧ M.run t es = some u := by
  rw [run_cons, Option.bind_eq_some_iff]

theorem run_append :
    M.run s (es ++ es') = (M.run s es).bind fun t => M.run t es' := by
  induction es generalizing s with
  | nil => rfl
  | cons e es ih =>
      rw [List.cons_append, run_cons, run_cons]
      cases M.step s e with
      | none => rfl
      | some t => exact ih

theorem run_trans (hfirst : M.run s es = some t) (hsecond : M.run t es' = some u) :
    M.run s (es ++ es') = some u := by
  rw [run_append, hfirst]
  exact hsecond

theorem run_singleton (hstep : M.step s e = some t) : M.run s [e] = some t := by
  rw [run_cons, hstep]
  rfl

theorem Reachable.of_init (hinit : M.init s) : M.Reachable s :=
  ⟨s, [], hinit, rfl⟩

theorem Reachable.run (hs : M.Reachable s) (hrun : M.run s es = some t) : M.Reachable t := by
  obtain ⟨s₀, es₀, hinit, hreach⟩ := hs
  exact ⟨s₀, es₀ ++ es, hinit, run_trans hreach hrun⟩

theorem Reachable.step (hs : M.Reachable s) (hstep : M.step s e = some t) : M.Reachable t :=
  hs.run (run_singleton hstep)

/-! ## Invariants -/

/-- `P` is kept by every step whose state and event meet `cond`. -/
structure Conditional (M : System State Event) (cond : State → Event → Prop)
    (P : State → Prop) : Prop where
  init : ∀ s, M.init s → P s
  step : ∀ s e t, P s → cond s e → M.step s e = some t → P t

/-- `P` holds initially and is kept by every step. -/
structure Invariant (M : System State Event) (P : State → Prop) : Prop where
  init : ∀ s, M.init s → P s
  step : ∀ s e t, P s → M.step s e = some t → P t

/-- Every step of the run from `s` meets `cond`. -/
def Meets (M : System State Event) (cond : State → Event → Prop) : State → List Event → Prop
  | _, [] => True
  | s, e :: es => cond s e ∧ ∀ t, M.step s e = some t → Meets M cond t es

variable {cond : State → Event → Prop} {P Q : State → Prop}

theorem meets_cons (hstep : M.step s e = some t) :
    M.Meets cond s (e :: es) ↔ cond s e ∧ M.Meets cond t es := by
  simp [Meets, hstep]

theorem Invariant.run (hP : M.Invariant P) (hs : P s) (hrun : M.run s es = some t) : P t := by
  induction es generalizing s with
  | nil =>
      cases hrun
      exact hs
  | cons e es ih =>
      obtain ⟨u, hstep, hrest⟩ := run_cons_eq_some.mp hrun
      exact ih (hP.step s e u hs hstep) hrest

theorem Invariant.reachable (hP : M.Invariant P) (ht : M.Reachable t) : P t := by
  obtain ⟨s, es, hinit, hrun⟩ := ht
  exact hP.run (hP.init s hinit) hrun

theorem Invariant.and (hP : M.Invariant P) (hQ : M.Invariant Q) :
    M.Invariant fun s => P s ∧ Q s where
  init s hs := ⟨hP.init s hs, hQ.init s hs⟩
  step s e t hs hst := ⟨hP.step s e t hs.1 hst, hQ.step s e t hs.2 hst⟩

/-- An invariant proved with the help of another one. -/
theorem Invariant.strengthen (hQ : M.Invariant Q) (hinit : ∀ s, M.init s → P s)
    (hstep : ∀ s e t, Q s → Q t → P s → M.step s e = some t → P t) :
    M.Invariant fun s => Q s ∧ P s where
  init s hs := ⟨hQ.init s hs, hinit s hs⟩
  step s e t hs hst := by
    have hQt : Q t := hQ.step s e t hs.1 hst
    exact ⟨hQt, hstep s e t hs.1 hQt hs.2 hst⟩

theorem Conditional.run (hP : M.Conditional cond P) (hs : P s) (hmeets : M.Meets cond s es)
    (hrun : M.run s es = some t) : P t := by
  induction es generalizing s with
  | nil =>
      cases hrun
      exact hs
  | cons e es ih =>
      obtain ⟨u, hstep, hrest⟩ := run_cons_eq_some.mp hrun
      exact ih (hP.step s e u hs hmeets.1 hstep) (hmeets.2 u hstep) hrest

/-- A condition that decides, step by step, whether `Q` survives, decides over a
whole run whether `Q` still holds at its end. -/
theorem run_iff_meets (hP : M.Invariant P)
    (hQ : ∀ s e t, P s → M.step s e = some t → (Q t ↔ Q s ∧ cond s e))
    (hs : P s) (hrun : M.run s es = some t) : Q t ↔ Q s ∧ M.Meets cond s es := by
  induction es generalizing s with
  | nil =>
      cases hrun
      simp [Meets]
  | cons e es ih =>
      obtain ⟨u, hstep, hrest⟩ := run_cons_eq_some.mp hrun
      rw [ih (hP.step s e u hs hstep) hrest, hQ s e u hs hstep, and_assoc, meets_cons hstep]

/-- `P` holds in every state of the run from `s`. -/
def Always (M : System State Event) (P : State → Prop) (s : State) (es : List Event) : Prop :=
  ∀ es' t, es' <+: es → M.run s es' = some t → P t

theorem always_nil : M.Always P s [] ↔ P s := by
  constructor
  · intro halways
    exact halways [] s (List.prefix_refl []) rfl
  · intro hs es' t hprefix hrun
    cases List.prefix_nil.mp hprefix
    cases hrun
    exact hs

theorem always_cons (hstep : M.step s e = some t) :
    M.Always P s (e :: es) ↔ P s ∧ M.Always P t es := by
  constructor
  · intro halways
    refine ⟨halways [] s (List.nil_prefix) rfl, ?_⟩
    intro es' u hprefix hrun
    refine halways (e :: es') u (List.cons_prefix_cons.mpr ⟨rfl, hprefix⟩) ?_
    rw [run_cons, hstep]
    exact hrun
  · rintro ⟨hs, hrest⟩ es' u hprefix hrun
    rcases List.prefix_cons_iff.mp hprefix with rfl | ⟨es'', rfl, hprefix'⟩
    · cases hrun
      exact hs
    · rw [run_cons, hstep] at hrun
      exact hrest es'' u hprefix' hrun

/-- A condition that decides, step by step, whether `Q` survives, decides over a whole
run whether `Q` holds in all its states. -/
theorem always_iff_meets (hP : M.Invariant P)
    (hQ : ∀ s e t, P s → Q s → M.step s e = some t → (Q t ↔ cond s e))
    (hs : P s) (hstart : Q s) (hrun : M.run s es = some t) :
    M.Always Q s es ↔ M.Meets cond s es := by
  induction es generalizing s with
  | nil => exact iff_of_true (always_nil.mpr hstart) trivial
  | cons e es ih =>
      obtain ⟨u, hstep, hrest⟩ := run_cons_eq_some.mp hrun
      have hu : P u := hP.step s e u hs hstep
      rw [always_cons hstep, meets_cons hstep, and_iff_right hstart, ← hQ s e u hs hstart hstep]
      constructor
      · intro halways
        have hkept : Q u := halways [] u List.nil_prefix rfl
        exact ⟨hkept, (ih hu hkept hrest).mp halways⟩
      · rintro ⟨hkept, hmeets⟩
        exact (ih hu hkept hrest).mpr hmeets

/-! ## Simulation -/

variable {State' Event' : Type*}

/-- Every step of `M` is matched by a run of `N` between related states. -/
structure Simulation (M : System State Event) (N : System State' Event')
    (rel : State → State' → Prop) : Prop where
  init : ∀ s, M.init s → ∃ s', N.init s' ∧ rel s s'
  step : ∀ s e t s', rel s s' → M.step s e = some t →
    ∃ t' es', N.run s' es' = some t' ∧ rel t t'

theorem Simulation.reachable {N : System State' Event'} {rel : State → State' → Prop}
    (hsim : M.Simulation N rel) (ht : M.Reachable t) : ∃ t', N.Reachable t' ∧ rel t t' := by
  obtain ⟨s, es, hinit, hrun⟩ := ht
  obtain ⟨s', hinit', hrel⟩ := hsim.init s hinit
  have hreach : N.Reachable s' := Reachable.of_init hinit'
  clear hinit hinit'
  induction es generalizing s s' with
  | nil =>
      cases hrun
      exact ⟨s', hreach, hrel⟩
  | cons e es ih =>
      obtain ⟨u, hstep, hrest⟩ := run_cons_eq_some.mp hrun
      obtain ⟨u', es', hrun', hrel'⟩ := hsim.step s e u s' hrel hstep
      exact ih u hrest u' hrel' (hreach.run hrun')

end System

end Transition
