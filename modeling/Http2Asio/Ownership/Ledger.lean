import Mathlib.Data.List.Basic

/-!
# Ownership ledgers

A program that owns objects through raw pointers is judged by what it does to
each of them: it acquires the object, makes calls on it, and releases it.  A
ledger is the list of these entries, oldest first, and `history ledger o` is the
part of it that concerns one object.

The life of an object has three stages, each a shape of its history:

* `Unborn`: no entry yet;
* `Held`: acquired once, first of all, with a list of calls since;
* `Gone`: acquired once, called, and released once, with nothing after that.

An object whose history has none of these shapes was used before it existed or
after its release, or was released twice.  The lemmas say which entry takes an
object from one stage to the next and that entries about other objects leave its
stage alone.

An object is `Settled` when nothing is left to do with it: it was never acquired, or
it is gone.  A balanced ledger is one that has settled every object.
-/

namespace Ownership

/-- One thing done to an object. -/
inductive Entry (Object Call : Type*)
  | acquire (o : Object)
  | use (o : Object) (call : Call)
  | release (o : Object)
  deriving DecidableEq

variable {Object Call : Type*}

/-- The object an entry is about. -/
def Entry.object : Entry Object Call → Object
  | .acquire o => o
  | .use o _ => o
  | .release o => o

variable [DecidableEq Object]

/-- The entries about one object. -/
def history (ledger : List (Entry Object Call)) (o : Object) : List (Entry Object Call) :=
  ledger.filter fun entry => entry.object = o

/-- Nothing has been done to the object. -/
def Unborn (ledger : List (Entry Object Call)) (o : Object) : Prop :=
  history ledger o = []

/-- The object is owned, and `calls` have been made on it since its acquisition. -/
def Held (ledger : List (Entry Object Call)) (o : Object) (calls : List Call) : Prop :=
  history ledger o = .acquire o :: calls.map (.use o)

/-- The object was acquired, called with `calls`, and released, each exactly once. -/
def Gone (ledger : List (Entry Object Call)) (o : Object) (calls : List Call) : Prop :=
  history ledger o = .acquire o :: (calls.map (.use o) ++ [.release o])

/-- Released as often as acquired: never, or once after its calls. -/
def Settled (ledger : List (Entry Object Call)) (o : Object) : Prop :=
  Unborn ledger o ∨ ∃ calls, Gone ledger o calls

variable {ledger ledger' entries : List (Entry Object Call)} {o : Object} {calls : List Call}

theorem history_append :
    history (ledger ++ entries) o = history ledger o ++ history entries o :=
  List.filter_append ..

/-- Entries about other objects do not touch a history. -/
theorem history_append_of_ne (hother : ∀ entry ∈ entries, entry.object ≠ o) :
    history (ledger ++ entries) o = history ledger o := by
  have hnone : history entries o = [] := by
    rw [history, List.filter_eq_nil_iff]
    intro entry hentry
    simpa using hother entry hentry
  rw [history_append, hnone, List.append_nil]

theorem Unborn.append_of_ne (h : Unborn ledger o)
    (hother : ∀ entry ∈ entries, entry.object ≠ o) : Unborn (ledger ++ entries) o := by
  rw [Unborn, history_append_of_ne hother]
  exact h

theorem Held.append_of_ne (h : Held ledger o calls)
    (hother : ∀ entry ∈ entries, entry.object ≠ o) : Held (ledger ++ entries) o calls := by
  rw [Held, history_append_of_ne hother]
  exact h

theorem Gone.append_of_ne (h : Gone ledger o calls)
    (hother : ∀ entry ∈ entries, entry.object ≠ o) : Gone (ledger ++ entries) o calls := by
  rw [Gone, history_append_of_ne hother]
  exact h

theorem Unborn.acquire (h : Unborn ledger o) : Held (ledger ++ [.acquire o]) o [] := by
  rw [Held, history_append, show history ledger o = [] from h]
  simp [history, Entry.object]

theorem Held.use (h : Held ledger o calls) (call : Call) :
    Held (ledger ++ [.use o call]) o (calls ++ [call]) := by
  rw [Held, history_append, show history ledger o = _ from h]
  simp [history, Entry.object]

/-- The calls made on a held object are determined by the ledger. -/
theorem Held.calls_eq {calls' : List Call} (h : Held ledger o calls) (h' : Held ledger o calls') :
    calls = calls' := by
  have hmap : calls.map (Entry.use o) = calls'.map (Entry.use o) :=
    List.tail_eq_of_cons_eq (h.symm.trans h')
  exact List.map_injective_iff.mpr (fun _ _ heq => (Entry.use.inj heq).2) hmap

theorem Held.release (h : Held ledger o calls) : Gone (ledger ++ [.release o]) o calls := by
  rw [Gone, history_append, show history ledger o = _ from h]
  simp [history, Entry.object]

theorem Held.not_settled (h : Held ledger o calls) : ¬ Settled ledger o := by
  rintro (hunborn | ⟨calls', hgone⟩)
  · cases hunborn.symm.trans h
  · have hrest : calls.map (Entry.use o) = calls'.map (Entry.use o) ++ [.release o] :=
      List.tail_eq_of_cons_eq (h.symm.trans hgone)
    have hmem : (.release o : Entry Object Call) ∈ calls.map (Entry.use o) := by
      rw [hrest]
      exact List.mem_append_right _ List.mem_cons_self
    obtain ⟨call, -, heq⟩ := List.mem_map.mp hmem
    cases heq

theorem settled_congr (hsame : history ledger' o = history ledger o) :
    Settled ledger' o ↔ Settled ledger o := by
  simp only [Settled, Unborn, Gone, hsame]

end Ownership
