import Mathlib.Data.List.Basic

/-!
# Machines that are fed

A feeder takes its input one item at a time and may stop, with the last item used up or
not.  A list of inputs is fed until the machine stops.

`feed_append` is the rule that matters: feeding two lists after each other is feeding both
at once, so it does not matter where the input is cut.
-/

namespace Feeding

/-- What a feeder does with one item. -/
inductive Reply (State : Type*)
  | goes (s : State)
  | stops (s : State) (consumed : Bool)

/-- A machine with a total step on each item of its input. -/
structure Feeder (State Input : Type*) where
  step : State → Input → Reply State

/-- What a feeder has come to: its state, how many items it used up, and whether it
stopped. -/
@[ext]
structure Fed (State : Type*) where
  state : State
  count : ℕ
  stopped : Bool

namespace Feeder

variable {State Input : Type*} (F : Feeder State Input)

/-- Feeds a list of items. -/
def feed : State → List Input → Fed State
  | s, [] => ⟨s, 0, false⟩
  | s, i :: is =>
      match F.step s i with
      | .goes t => { feed t is with count := (feed t is).count + 1 }
      | .stops t consumed => ⟨t, if consumed then 1 else 0, true⟩

variable {F} {s t u : State} {i : Input} {is js : List Input} {consumed : Bool}

@[simp] theorem feed_nil : F.feed s [] = ⟨s, 0, false⟩ := rfl

theorem feed_cons_goes (h : F.step s i = .goes t) :
    F.feed s (i :: is) = { F.feed t is with count := (F.feed t is).count + 1 } := by
  rw [feed, h]

theorem feed_cons_stops (h : F.step s i = .stops t consumed) :
    F.feed s (i :: is) = ⟨t, if consumed then 1 else 0, true⟩ := by
  rw [feed, h]

/-- A machine that has not stopped used up everything. -/
theorem feed_count (h : (F.feed s is).stopped = false) : (F.feed s is).count = is.length := by
  induction is generalizing s with
  | nil => rfl
  | cons i is ih =>
      cases hstep : F.step s i with
      | goes t =>
          rw [feed_cons_goes hstep] at h ⊢
          exact congrArg (· + 1) (ih h)
      | stops t consumed =>
          rw [feed_cons_stops hstep] at h
          exact absurd h nofun

/-- Where the input is cut does not matter. -/
theorem feed_append :
    F.feed s (is ++ js) =
      if (F.feed s is).stopped then F.feed s is
      else
        { F.feed (F.feed s is).state js with
          count := is.length + (F.feed (F.feed s is).state js).count } := by
  induction is generalizing s with
  | nil => simp
  | cons i is ih =>
      rw [List.cons_append]
      cases hstep : F.step s i with
      | goes t =>
          rw [feed_cons_goes hstep, feed_cons_goes hstep, ih]
          dsimp only
          by_cases hstopped : (F.feed t is).stopped = true
          · simp only [if_pos hstopped]
          · simp only [if_neg hstopped, List.length_cons]
            ext
            · rfl
            · dsimp only
              omega
            · rfl
      | stops t consumed =>
          rw [feed_cons_stops hstep, feed_cons_stops hstep]
          rfl

theorem feed_append_goes (h : F.feed s is = ⟨t, is.length, false⟩) :
    F.feed s (is ++ js) = { F.feed t js with count := is.length + (F.feed t js).count } := by
  rw [feed_append, h]
  rfl

theorem feed_append_stops (h : (F.feed s is).stopped = true) :
    F.feed s (is ++ js) = F.feed s is := by
  rw [feed_append, if_pos h]

theorem feed_append_goes_goes (h : F.feed s is = ⟨t, is.length, false⟩)
    (h' : F.feed t js = ⟨u, js.length, false⟩) :
    F.feed s (is ++ js) = ⟨u, (is ++ js).length, false⟩ := by
  rw [feed_append_goes h, h', List.length_append]

theorem feed_singleton_goes (h : F.step s i = .goes t) : F.feed s [i] = ⟨t, [i].length, false⟩ := by
  rw [feed_cons_goes h]
  rfl

/-- What the steps keep holds as long as the machine goes on. -/
theorem feed_invariant {P : State → Prop}
    (hstep : ∀ s i t, P s → F.step s i = .goes t → P t) (h : P s)
    (hfeed : F.feed s is = ⟨t, is.length, false⟩) : P t := by
  induction is generalizing s with
  | nil =>
      cases hfeed
      exact h
  | cons i is ih =>
      cases hi : F.step s i with
      | goes s' =>
          rw [feed_cons_goes hi] at hfeed
          obtain ⟨hstate, hcount, hstopped⟩ := Fed.mk.inj hfeed
          refine ih (hstep s i s' h hi) ?_
          ext
          · exact hstate
          · exact Nat.succ.inj hcount
          · exact hstopped
      | stops s' consumed =>
          rw [feed_cons_stops hi] at hfeed
          exact absurd (congrArg Fed.stopped hfeed) nofun

end Feeder

end Feeding
