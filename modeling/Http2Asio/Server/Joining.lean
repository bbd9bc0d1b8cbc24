import Http2Asio.Model.IoServicePool

/-!
# Joining a pool

`join` asks the futures in the order of their places.  It takes each result once, and a
call that gets through leaves nothing running.  Two things go wrong.  The futures stay in
the list, so that a second `join`, such as the one after a blocking `run`, asks the first
one again.  And an exception of a worker leaves the loop in `get`, before the workers
behind it were waited for.

`InOrder` is the invariant: the futures that have been asked are the first ones of the list,
and their workers have ended.  So a `join` that starts again asks the first one twice, if any
was asked, and one that comes to the end of the list has waited for all.  `joinsSafely_step`
is exact: whether a step keeps `join` safe is decided by the state before it, by who was asked
already when it starts, and by who is still running when it has to rethrow.
-/

namespace Http2Asio

open Transition

/-- A future is asked for its result once, and `join` ends when all workers have. -/
def JoinAction.IsSafe : JoinAction → Prop
  | .get _ wasTaken => wasTaken = false
  | .ends running => running = 0

namespace PoolCalls

variable {s t : PoolCalls} {k : ℕ}

/-- All that `join` has done was safe. -/
def JoinsSafely (s : PoolCalls) : Prop :=
  ∀ a ∈ s.trace, a.IsSafe

/-- If the event is a `get`: no future was asked before this call of `join` began; and if
it rethrows, all workers have ended. -/
def GetsSafely (s : PoolCalls) : Event → Prop
  | .get => (s.joining = some 0 → s.taken = []) ∧
      ∀ k worker, s.joining = some k → s.pool.workers[k]? = some worker → worker.Threw →
        s.pool.running = 0
  | _ => True

/-- The futures asked are the first ones, and their workers have ended. -/
structure InOrder (s : PoolCalls) : Prop where
  taken : s.taken = List.range s.taken.length
  joining : ∀ k, s.joining = some (k + 1) → s.taken.length = k + 1
  ended : ∀ i < s.taken.length, ∃ worker, s.pool.workers[i]? = some worker ∧
    worker.status ≠ .running

/-! ## One turn of the loop -/

/-- The states that a turn of the loop may leave. -/
inductive GetEffect (s : PoolCalls) : PoolCalls → Prop
  | ends (k : ℕ) (hjoining : s.joining = some k) (hlength : s.pool.workers.length ≤ k) :
      GetEffect s s.endJoin
  | again (k : ℕ) (hjoining : s.joining = some k) (htaken : k ∈ s.taken) :
      GetEffect s (s.takeAgain k).endJoin
  | returned (k : ℕ) (worker : Worker) (hjoining : s.joining = some k)
      (hworker : s.pool.workers[k]? = some worker) (hstatus : worker.status = .returned)
      (htaken : k ∉ s.taken) : GetEffect s { s.take k with joining := some (k + 1) }
  | threw (k : ℕ) (worker : Worker) (hjoining : s.joining = some k)
      (hworker : s.pool.workers[k]? = some worker) (hstatus : worker.Threw)
      (htaken : k ∉ s.taken) : GetEffect s (s.take k).endJoin

theorem get_cases (hget : s.get = some t) : GetEffect s t := by
  obtain ⟨k, hjoining, hget⟩ := Option.bind_eq_some_iff.mp hget
  split at hget
  · next hnone =>
      cases hget
      exact .ends k hjoining (List.getElem?_eq_none_iff.mp hnone)
  · next worker hworker =>
      by_cases htaken : k ∈ s.taken
      · rw [if_pos htaken] at hget
        cases hget
        exact .again k hjoining htaken
      · rw [if_neg htaken] at hget
        cases hstatus : worker.status with
        | running =>
            rw [hstatus] at hget
            cases hget
        | returned =>
            rw [hstatus] at hget
            cases hget
            exact .returned k worker hjoining hworker hstatus htaken
        | threw exception =>
            rw [hstatus] at hget
            cases hget
            exact .threw k worker hjoining hworker ⟨exception, hstatus⟩ htaken

/-! ## The order of the futures -/

namespace InOrder

theorem mem_taken (hs : InOrder s) {i : ℕ} : i ∈ s.taken ↔ i < s.taken.length := by
  rw [hs.taken, List.mem_range, List.length_range]

/-- A future that has its result is the first one that was not asked. -/
theorem length_taken (hs : InOrder s) (hjoining : s.joining = some k) (hfresh : k ∉ s.taken) :
    s.taken.length = k := by
  cases k with
  | zero =>
      rw [hs.mem_taken] at hfresh
      omega
  | succ k => exact hs.joining k hjoining

theorem of_eq (hs : InOrder s) (hpool : t.pool = s.pool) (htaken : t.taken = s.taken)
    (hjoining : ∀ k, t.joining ≠ some (k + 1)) : InOrder t where
  taken := by
    rw [htaken]
    exact hs.taken
  joining k hk := absurd hk (hjoining k)
  ended := by
    rw [htaken, hpool]
    exact hs.ended

theorem take (hs : InOrder s) {worker : Worker} (hjoining : s.joining = some k)
    (hfresh : k ∉ s.taken) (hworker : s.pool.workers[k]? = some worker)
    (hended : worker.status ≠ .running) :
    InOrder { s.take k with joining := some (k + 1) } := by
  have hlength : s.taken.length = k := hs.length_taken hjoining hfresh
  have hlength' : (s.take k).taken.length = k + 1 := by
    rw [PoolCalls.take, List.length_append, hlength]
    rfl
  refine ⟨?_, ?_, ?_⟩
  · change s.taken ++ [k] = List.range (s.take k).taken.length
    rw [hlength', List.range_succ, hs.taken, hlength]
  · rintro k' ⟨⟩
    exact hlength'
  · intro i hi
    change i < (s.take k).taken.length at hi
    rw [hlength'] at hi
    by_cases hik : i = k
    · subst hik
      exact ⟨worker, hworker, hended⟩
    · exact hs.ended i (by omega)

theorem get (hs : InOrder s) (hget : s.get = some t) : InOrder t := by
  cases get_cases hget with
  | ends k _ _ | again k _ _ => exact hs.of_eq rfl rfl nofun
  | returned k worker hjoining hworker hstatus htaken =>
      exact hs.take hjoining htaken hworker (by rw [hstatus]; nofun)
  | threw k worker hjoining hworker hstatus htaken =>
      obtain ⟨exception, hthrew⟩ := hstatus
      have htake := hs.take hjoining htaken hworker (by rw [hthrew]; nofun)
      exact htake.of_eq rfl rfl nofun

theorem run (hs : InOrder s) (blocking : Bool) : InOrder (s.run blocking) := by
  have hrun : InOrder { s with pool := s.pool.run } := by
    refine ⟨hs.taken, hs.joining, ?_⟩
    intro i hi
    obtain ⟨worker, hworker, hended⟩ := hs.ended i hi
    obtain ⟨hlt, -⟩ := List.getElem?_eq_some_iff.mp hworker
    exact ⟨worker, (List.getElem?_append_left hlt).trans hworker, hended⟩
  cases blocking with
  | false => exact hrun
  | true => exact hrun.of_eq rfl rfl nofun

theorem finish (hs : InOrder s) (w : ℕ) {status : WorkerStatus} (hended : status ≠ .running) :
    InOrder { s with pool := s.pool.finish w status } := by
  refine ⟨hs.taken, hs.joining, ?_⟩
  intro i hi
  obtain ⟨worker, hworker, hold⟩ := hs.ended i hi
  change ∃ worker', (s.pool.workers.modify w _)[i]? = some worker' ∧ _
  by_cases hwi : w = i
  · subst hwi
    rw [List.getElem?_modify_eq, hworker]
    exact ⟨_, rfl, hended⟩
  · rw [List.getElem?_modify_ne _ _ hwi]
    exact ⟨worker, hworker, hold⟩

theorem step {e : Event} (hs : InOrder s) (hstep : s.step e = some t) : InOrder t := by
  cases e with
  | run blocking =>
      dsimp only [PoolCalls.step] at hstep
      split_ifs at hstep
      cases hstep
      exact hs.run blocking
  | stop =>
      cases hstep
      exact ⟨hs.taken, hs.joining, hs.ended⟩
  | join =>
      dsimp only [PoolCalls.step] at hstep
      split_ifs at hstep
      cases hstep
      exact hs.of_eq rfl rfl nofun
  | get => exact hs.get hstep
  | workerReturns w =>
      dsimp only [PoolCalls.step] at hstep
      split_ifs at hstep
      cases hstep
      exact hs.finish w nofun
  | workerThrows w exception =>
      dsimp only [PoolCalls.step] at hstep
      split_ifs at hstep
      cases hstep
      exact hs.finish w nofun

/-- A `join` that gets through leaves nothing running. -/
theorem running_eq_zero (hs : InOrder s) (hjoining : s.joining = some k)
    (hlength : s.pool.workers.length ≤ k) : s.pool.running = 0 := by
  apply List.countP_eq_zero.mpr
  intro worker hworker
  obtain ⟨i, hi, rfl⟩ := List.getElem_of_mem hworker
  cases k with
  | zero => omega
  | succ k =>
      obtain ⟨worker', hworker', hended⟩ := hs.ended i (by rw [hs.joining k hjoining]; omega)
      rw [List.getElem?_eq_getElem hi] at hworker'
      cases hworker'
      simpa using hended

end InOrder

/-! ## What is safe -/

theorem joinsSafely_take : (s.take k).JoinsSafely ↔ s.JoinsSafely := by
  change (∀ a ∈ s.trace ++ [.get k false], a.IsSafe) ↔ _
  rw [List.forall_mem_append, List.forall_mem_singleton]
  exact and_iff_left rfl

theorem joinsSafely_endJoin : s.endJoin.JoinsSafely ↔ s.JoinsSafely ∧ s.pool.running = 0 := by
  change (∀ a ∈ s.trace ++ [.ends s.pool.running], a.IsSafe) ↔ _
  rw [List.forall_mem_append, List.forall_mem_singleton]
  rfl

theorem not_joinsSafely_takeAgain : ¬ (s.takeAgain k).JoinsSafely := by
  intro hsafe
  have hget : JoinAction.IsSafe (.get k true) :=
    hsafe _ (List.mem_append_right _ (List.mem_singleton_self _))
  cases hget

/-- The first part of the condition, at a future that has its result. -/
theorem taken_eq_nil (hs : InOrder s) (hjoining : s.joining = some k) (hfresh : k ∉ s.taken) :
    s.joining = some 0 → s.taken = [] := by
  intro hfirst
  cases hjoining.symm.trans hfirst
  exact List.eq_nil_of_length_eq_zero (hs.length_taken hjoining hfresh)

theorem joinsSafely_get (hs : InOrder s) (hget : s.get = some t) :
    t.JoinsSafely ↔ s.JoinsSafely ∧ s.GetsSafely .get := by
  cases get_cases hget with
  | ends k hjoining hlength =>
      have hcond : s.GetsSafely .get := by
        constructor
        · intro hfirst
          -- there are no workers, and so no futures
          cases hjoining.symm.trans hfirst
          by_contra htaken
          obtain ⟨worker, hworker, -⟩ := hs.ended 0 (List.length_pos_iff.mpr htaken)
          obtain ⟨hlt, -⟩ := List.getElem?_eq_some_iff.mp hworker
          omega
        · intro k' worker hjoining' hworker _
          cases hjoining.symm.trans hjoining'
          obtain ⟨hlt, -⟩ := List.getElem?_eq_some_iff.mp hworker
          omega
      rw [joinsSafely_endJoin, and_iff_left (hs.running_eq_zero hjoining hlength),
        and_iff_left hcond]
  | again k hjoining htaken =>
      rw [joinsSafely_endJoin]
      refine iff_of_false (fun hsafe => not_joinsSafely_takeAgain hsafe.1) ?_
      rintro ⟨-, hnone, -⟩
      cases k with
      | zero =>
          rw [hnone hjoining] at htaken
          cases htaken
      | succ k =>
          -- the futures asked before are those that this call has asked
          rw [hs.mem_taken, hs.joining k hjoining] at htaken
          omega
  | returned k worker hjoining hworker hstatus htaken =>
      have hcond : s.GetsSafely .get := by
        refine ⟨taken_eq_nil hs hjoining htaken, ?_⟩
        rintro k' worker' hjoining' hworker' ⟨exception, hthrew⟩
        cases hjoining.symm.trans hjoining'
        cases hworker.symm.trans hworker'
        cases hstatus.symm.trans hthrew
      rw [and_iff_left hcond]
      exact joinsSafely_take
  | threw k worker hjoining hworker hstatus htaken =>
      rw [joinsSafely_endJoin, joinsSafely_take]
      apply and_congr_right
      intro _
      constructor
      · intro hall
        exact ⟨taken_eq_nil hs hjoining htaken, fun _ _ _ _ _ => hall⟩
      · rintro ⟨-, hrethrown⟩
        exact hrethrown k worker hjoining hworker hstatus

theorem joinsSafely_step {e : Event} (hs : InOrder s) (hstep : s.step e = some t) :
    t.JoinsSafely ↔ s.JoinsSafely ∧ s.GetsSafely e := by
  cases e with
  | get => exact joinsSafely_get hs hstep
  | stop =>
      cases hstep
      exact (and_iff_left trivial).symm
  | run blocking =>
      dsimp only [step] at hstep
      split_ifs at hstep
      cases hstep
      cases blocking <;> exact (and_iff_left trivial).symm
  | join | workerReturns _ | workerThrows _ _ =>
      dsimp only [step] at hstep
      split_ifs at hstep
      cases hstep
      exact (and_iff_left trivial).symm

end PoolCalls

section

variable {s t : PoolCalls}

theorem inOrder_invariant : poolCalls.Invariant PoolCalls.InOrder where
  init := by
    rintro _ ⟨poolSize, pool, -, rfl⟩
    exact ⟨rfl, nofun, nofun⟩
  step _ _ _ hs hstep := hs.step hstep

/-- Over any run, `join` never asks a future twice and never ends while a worker is running,
exactly if no `join` begins to ask after an earlier one has asked, and every exception that
`get` rethrows finds no worker running. -/
theorem joinsSafely_iff_meets {events : List PoolCalls.Event} (hinit : poolCalls.init s)
    (hrun : poolCalls.run s events = some t) :
    t.JoinsSafely ↔ poolCalls.Meets PoolCalls.GetsSafely s events := by
  have hstart : s.JoinsSafely := by
    obtain ⟨poolSize, pool, -, rfl⟩ := hinit
    exact List.forall_mem_nil _
  have hexact : t.JoinsSafely ↔ s.JoinsSafely ∧ poolCalls.Meets PoolCalls.GetsSafely s events :=
    System.run_iff_meets inOrder_invariant
      (fun _ _ _ hs hstep => PoolCalls.joinsSafely_step hs hstep)
      (inOrder_invariant.init s hinit) hrun
  rw [hexact, and_iff_right hstart]

end

/-- Two services, and no thread yet. -/
def twoToJoin : PoolCalls :=
  { pool := { size := 2, nextIoServiceIndex := 0, index_lt := Nat.zero_lt_two, workers := [],
              stopped := false } }

theorem twoToJoin_init : poolCalls.init twoToJoin :=
  ⟨2, _, rfl, rfl⟩

/-- One `join`, while another thread calls `stop`. -/
def joinOnce : List PoolCalls.Event :=
  [.run false, .join, .stop, .workerReturns 0, .get, .workerReturns 1, .get, .get]

theorem joinsSafely_iff_meets_joinOnce :
    ∃ t, poolCalls.run twoToJoin joinOnce = some t ∧ t.joining = none ∧ t.JoinsSafely := by
  obtain ⟨t, hrun, hjoining⟩ : ∃ t, poolCalls.run twoToJoin joinOnce = some t ∧
      t.joining = none := ⟨_, rfl, rfl⟩
  refine ⟨t, hrun, hjoining, (joinsSafely_iff_meets twoToJoin_init hrun).mpr ?_⟩
  iterate 4 refine (System.meets_cons rfl).mpr ⟨trivial, ?_⟩
  refine (System.meets_cons rfl).mpr ⟨⟨fun _ => rfl, ?_⟩, ?_⟩
  · rintro _ _ ⟨⟩ ⟨⟩ ⟨exception, hthrew⟩
    cases hthrew
  refine (System.meets_cons rfl).mpr ⟨trivial, ?_⟩
  refine (System.meets_cons rfl).mpr ⟨⟨nofun, ?_⟩, ?_⟩
  · rintro _ _ ⟨⟩ ⟨⟩ ⟨exception, hthrew⟩
    cases hthrew
  refine (System.meets_cons rfl).mpr ⟨⟨nofun, ?_⟩, trivial⟩
  -- the last turn finds no future
  rintro _ _ ⟨⟩ ⟨⟩

/-- A blocking `run` and a `join` after it. -/
def joinAfterBlocking : List PoolCalls.Event :=
  [.run true, .stop, .workerReturns 0, .workerReturns 1, .get, .get, .get, .join, .get]

/-- The first worker ends by an exception, the second is running. -/
def firstThrows : List PoolCalls.Event :=
  [.run true, .workerThrows 0 (.systemError ⟨22, "system"⟩), .get]

theorem not_joinsSafely_joinAfterBlocking :
    ∃ t u, poolCalls.init twoToJoin ∧ poolCalls.run twoToJoin joinAfterBlocking = some t ∧
      poolCalls.run twoToJoin firstThrows = some u ∧ .get 0 true ∈ t.trace ∧
      .ends 1 ∈ u.trace ∧ ¬ t.JoinsSafely ∧ ¬ u.JoinsSafely := by
  obtain ⟨t, u, hagain, hrunning, hget, hends⟩ :
      ∃ t u, poolCalls.run twoToJoin joinAfterBlocking = some t ∧
        poolCalls.run twoToJoin firstThrows = some u ∧ JoinAction.get 0 true ∈ t.trace ∧
        JoinAction.ends 1 ∈ u.trace := ⟨_, _, rfl, rfl, by decide, by decide⟩
  refine ⟨t, u, twoToJoin_init, hagain, hrunning, hget, hends, ?_, ?_⟩
  · intro hsafe
    cases hsafe _ hget
  · intro hsafe
    cases hsafe _ hends

end Http2Asio
