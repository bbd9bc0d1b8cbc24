import Mathlib.Data.List.Basic
import Mathlib.Data.List.Induction

/-!
# Properties of histories

A history is the list of what a program has done, oldest entry first.  Many
temporal properties say of every entry what must hold of the entries before it:
nothing forbidden after a stop, no use before the creation.  `Historically P`
is that form, and `historically_append_singleton` lets it be carried along a run
that appends one entry at a time.
-/

namespace Transition

variable {α : Type*}

/-- Every entry of the history stands in relation `P` to the entries before it. -/
def Historically (P : List α → α → Prop) (history : List α) : Prop :=
  ∀ earlier entry later, history = earlier ++ entry :: later → P earlier entry

variable {P : List α → α → Prop} {history : List α} {entry : α}

@[simp] theorem historically_nil : Historically P [] := by
  intro earlier entry later h
  simp at h

theorem historically_append_singleton :
    Historically P (history ++ [entry]) ↔ Historically P history ∧ P history entry := by
  constructor
  · intro h
    refine ⟨?_, h history entry [] rfl⟩
    intro earlier old later hsplit
    exact h earlier old (later ++ [entry]) (by simp [hsplit])
  · rintro ⟨hold, hnew⟩ earlier last later hsplit
    rcases List.eq_nil_or_concat' later with rfl | ⟨front, final, rfl⟩
    · obtain ⟨rfl, hlast⟩ := List.append_inj' hsplit rfl
      cases hlast
      exact hnew
    · rw [← List.cons_append, ← List.append_assoc] at hsplit
      obtain ⟨rfl, -⟩ := List.append_inj' hsplit rfl
      exact hold earlier last front rfl

theorem Historically.of_prefix {shorter : List α} (h : Historically P history)
    (hshorter : shorter <+: history) : Historically P shorter := by
  obtain ⟨rest, rfl⟩ := hshorter
  intro earlier old later hsplit
  exact h earlier old (later ++ rest) (by simp [hsplit])

end Transition
