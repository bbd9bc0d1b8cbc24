import Mathlib.Data.List.Count
import Http2Asio.Server.Accepting

/-!
# Who runs an `io_service`

A call of `run` starts one thread more for every `io_service`, whether it has one or not,
and every `listen` that returns ends with such a call.  Before a stop a thread ends by an
exception only.  So each `io_service` has one runner at most exactly as long as `run` is
called when no thread is running.

Several servers may share a pool, so the runs are those of a `Host`: the pool, and any servers
over it.  `NoneStarted` is what all steps but `run` do to the threads, and `StartEffect` says
of each step that it starts none or is a `run` of the same pool; with `oneRunner_run` this
gives the exact condition.
-/

namespace Http2Asio

open Transition

section Modify

variable {α : Type*} [DecidableEq α] {l : List α} {f : α → α} {i : ℕ} {x : α}

/-- A modification to something other than `x` adds no `x`. -/
theorem count_modify_le (hf : ∀ a, f a ≠ x) : (l.modify i f).count x ≤ l.count x := by
  induction l generalizing i with
  | nil => rw [List.modify_nil]
  | cons a l ih =>
      cases i with
      | zero =>
          rw [List.modify_zero_cons, List.count_cons_of_ne (hf a)]
          exact List.count_le_count_cons
      | succ i =>
          rw [List.modify_succ_cons, List.count_cons, List.count_cons]
          exact Nat.add_le_add_right ih _

end Modify

namespace IoServicePool

variable {pool pool' : IoServicePool}

/-- The number of threads that are running an `io_service`. -/
def runners (pool : IoServicePool) (ioService : ℕ) : ℕ :=
  pool.workers.count ⟨ioService, .running⟩

/-- No `io_service` is run by two threads. -/
def OneRunner (pool : IoServicePool) : Prop :=
  ∀ ioService, pool.runners ioService ≤ 1

/-- No thread is running. -/
def Idle (pool : IoServicePool) : Prop :=
  ∀ worker ∈ pool.workers, worker.status ≠ .running

/-- Every thread runs an `io_service` of the pool. -/
def InRange (pool : IoServicePool) : Prop :=
  ∀ worker ∈ pool.workers, worker.ioService < pool.size

/-- The threads that `run` starts. -/
theorem count_started (size ioService : ℕ) :
    ((List.range size).map fun k => ({ ioService := k } : Worker)).count ⟨ioService, .running⟩ =
      if ioService < size then 1 else 0 := by
  have hinjective : Function.Injective fun k => ({ ioService := k } : Worker) := by
    intro k k' h
    cases h
    rfl
  have hcount := List.count_map_of_injective (List.range size) _ hinjective ioService
  calc _ = (List.range size).count ioService := hcount
    _ = if ioService < size then 1 else 0 := List.count_range

theorem runners_run (ioService : ℕ) :
    pool.run.runners ioService =
      pool.runners ioService + if ioService < pool.size then 1 else 0 := by
  rw [runners, run, List.count_append, count_started]
  rfl

/-- `run` keeps the runners apart exactly if there are none. -/
theorem oneRunner_run (hrange : pool.InRange) : pool.run.OneRunner ↔ pool.Idle := by
  constructor
  · intro hone worker hworker hrunning
    -- the thread that is running gets a second one beside it
    have hpresent : 0 < pool.runners worker.ioService := by
      apply List.count_pos_iff.mpr
      rw [← hrunning]
      exact hworker
    have htwo := hone worker.ioService
    rw [runners_run, if_pos (hrange worker hworker)] at htwo
    omega
  · intro hidle ioService
    have hnone : pool.runners ioService = 0 := by
      apply List.count_eq_zero_of_not_mem
      intro hworker
      exact hidle _ hworker rfl
    rw [runners_run, hnone]
    split_ifs <;> omega

theorem InRange.run (hrange : pool.InRange) : pool.run.InRange := by
  intro worker hworker
  rcases List.mem_append.mp hworker with hold | hnew
  · exact hrange worker hold
  · obtain ⟨k, hk, rfl⟩ := List.mem_map.mp hnew
    exact List.mem_range.mp hk

/-- From `pool` to `pool'` no thread has been started. -/
structure NoneStarted (pool pool' : IoServicePool) : Prop where
  inRange : pool.InRange → pool'.InRange
  runners : ∀ ioService, pool'.runners ioService ≤ pool.runners ioService

theorem noneStarted_of_eq (hsize : pool'.size = pool.size)
    (hworkers : pool'.workers = pool.workers) :
    NoneStarted pool pool' where
  inRange hrange := by
    rw [InRange, hsize, hworkers]
    exact hrange
  runners ioService := by
    rw [IoServicePool.runners, hworkers]
    rfl

theorem noneStarted_finish {w : ℕ} {status : WorkerStatus} (hstatus : status ≠ .running) :
    NoneStarted pool (pool.finish w status) where
  inRange hrange := forall_mem_modify (fun _ hworker => hworker) hrange
  runners ioService := by
    apply count_modify_le
    rintro worker ⟨⟩
    exact hstatus rfl

theorem NoneStarted.oneRunner (hnone : NoneStarted pool pool') (hone : pool.OneRunner) :
    pool'.OneRunner :=
  fun ioService => (hnone.runners ioService).trans (hone ioService)

end IoServicePool

namespace Server

variable {H U : Type} {hd : Handler H U} {s t : Server H} {r : Resolution}

open IoServicePool

theorem noneStarted_acceptHandler (w ioService i : ℕ) (slot : Slot H) (outcome : Accept) :
    NoneStarted s.pool (s.acceptHandler hd w ioService i slot outcome).pool := by
  have heffect := acceptHandler_cases hd s w ioService i slot outcome
  generalize s.acceptHandler hd w ioService i slot outcome = t at heffect ⊢
  cases heffect with
  | failed | starts _ _ _ _ _ _ => exact noneStarted_of_eq rfl rfl
  | throws _ _ _ => exact @noneStarted_finish s.pool w _ nofun

theorem noneStarted_step {e : Event U} (hlisten : e.isListen = false)
    (hstep : s.step hd e = some t) : NoneStarted s.pool t.pool := by
  cases step_cases hstep with
  | listen resolution => cases hlisten
  | setSslContext _ | stop | notHandler _ _ _ _ _ _ _ _ _ _ | handler _ _ _ _ _ _ _ _ _ _ _ _ =>
      exact noneStarted_of_eq rfl rfl
  | workerReturns w _ _ => exact noneStarted_finish nofun
  | accept w j k outcome a i slot _ _ _ _ =>
      exact @noneStarted_acceptHandler H U hd (s.completeAccept j k) w a.ioService i slot outcome

/-- A `listen` is a `run` after other things, unless `bind` throws. -/
theorem listen_pool : ∃ pool, pool.size = s.pool.size ∧ pool.workers = s.pool.workers ∧
    (s.Binds r → (s.listen r).2.pool = pool.run) ∧ (¬ s.Binds r → (s.listen r).2.pool = pool) := by
  obtain ⟨hadded, -⟩ := @bind_spec H s r
  by_cases hbinds : s.Binds r
  · have hstarted : (s.bind r).2.startAccepts.pool.size = s.pool.size ∧
        (s.bind r).2.startAccepts.pool.workers = s.pool.workers :=
      @startAccepts_keeps H (s.bind r).2
        (fun t => t.pool.size = s.pool.size ∧ t.pool.workers = s.pool.workers)
        (fun _ _ _ hsame => hsame) ⟨hadded.size, hadded.workers⟩
    refine ⟨_, hstarted.1, hstarted.2, ?_, fun hthrows => absurd hbinds hthrows⟩
    intro _
    rw [listen_of_binds hbinds]
  · obtain ⟨exception, hthrows⟩ := listen_of_not_binds hbinds
    refine ⟨_, hadded.size, hadded.workers, fun h => absurd h hbinds, ?_⟩
    intro _
    rw [hthrows]

end Server

namespace Host

variable {H U : Type} {hd : Handler H U} {h h' : Host H}

open IoServicePool

/-- If the event calls `run`, no thread is running. -/
def RunsIdle (h : Host H) : Event U → Prop
  | .run => h.pool.Idle
  | .server k (.listen r) => ∀ s, h.servers[k]? = some s → s.Binds r → h.pool.Idle
  | _ => True

/-- What a step does to the threads. -/
inductive StartEffect (h : Host H) (e : Event U) (h' : Host H) : Prop
  | none (hnone : NoneStarted h.pool h'.pool) (hidle : h.RunsIdle e)
  | run (pool : IoServicePool) (hsize : pool.size = h.pool.size)
      (hworkers : pool.workers = h.pool.workers) (heq : h'.pool = pool.run)
      (hidle : h.RunsIdle e ↔ h.pool.Idle)

theorem listen_starts {k : ℕ} {s t : Server H} {r : Resolution} (hserver : h.servers[k]? = some s)
    (hlisten : ({ s with pool := h.pool } : Server H).step hd (.listen r) = some t) :
    StartEffect h (.server k (.listen r) : Event U) ⟨t.pool, h.servers.set k t⟩ := by
  cases hlisten
  obtain ⟨pool, hsize, hworkers, hreturns, hthrows⟩ :=
    @Server.listen_pool H { s with pool := h.pool } r
  by_cases hbinds : s.Binds r
  · refine .run pool hsize hworkers (hreturns hbinds) ⟨?_, ?_⟩
    · intro hidle
      exact hidle s hserver hbinds
    · intro hidle _ _ _
      exact hidle
  · have hsame : NoneStarted h.pool pool := noneStarted_of_eq hsize hworkers
    refine .none ?_ ?_
    · rw [hthrows hbinds]
      exact hsame
    · intro s' hserver' hbinds'
      cases hserver.symm.trans hserver'
      exact absurd hbinds' hbinds

theorem step_starts {e : Event U} (hstep : h.step hd e = some h') : StartEffect h e h' := by
  cases e with
  | run =>
      cases hstep
      exact .run h.pool rfl rfl rfl Iff.rfl
  | getIoService =>
      cases hstep
      exact .none (noneStarted_of_eq rfl rfl) trivial
  | server k e =>
      obtain ⟨s, hserver, hstep⟩ := Option.bind_eq_some_iff.mp hstep
      obtain ⟨t, hevent, rfl⟩ := Option.map_eq_some_iff.mp hstep
      cases e with
      | listen r => exact listen_starts hserver hevent
      | _ => exact .none (Server.noneStarted_step rfl hevent) trivial

theorem inRange_step {e : Event U} (hrange : h.pool.InRange) (hstep : h.step hd e = some h') :
    h'.pool.InRange := by
  cases step_starts hstep with
  | none hnone _ => exact hnone.inRange hrange
  | run pool hsize hworkers heq _ =>
      rw [heq]
      exact ((noneStarted_of_eq hsize hworkers).inRange hrange).run

theorem oneRunner_step {e : Event U} (hrange : h.pool.InRange) (hone : h.pool.OneRunner)
    (hstep : h.step hd e = some h') : h'.pool.OneRunner ↔ h.RunsIdle e := by
  cases step_starts hstep with
  | none hnone hidle => exact iff_of_true (hnone.oneRunner hone) hidle
  | run pool hsize hworkers heq hidle =>
      have hrange' : pool.InRange := (noneStarted_of_eq hsize hworkers).inRange hrange
      rw [heq, oneRunner_run hrange', hidle, Idle, Idle, hworkers]

end Host

/-! ## Runs -/

section

variable {H U : Type} {hd : Handler H U} {h h' : Host H}

theorem noWorkers_init (hinit : (host hd).init h) : h.pool.workers = [] := by
  obtain ⟨poolSize, hmake, -⟩ := hinit
  exact (IoServicePool.make_eq_ok hmake).2

theorem inRange_invariant : (host hd).Invariant fun h => h.pool.InRange where
  init h hinit := by
    rw [IoServicePool.InRange, noWorkers_init hinit]
    exact List.forall_mem_nil _
  step h e h' hrange hstep := by
    dsimp only [host] at hstep
    split_ifs at hstep
    exact Host.inRange_step hrange hstep

/-- Over any run before a stop, no `io_service` ever has two threads running it, exactly if
each `run`, and each `listen` whose `bind` returns, happens when no thread is running. -/
theorem oneRunner_iff_meets {events : List (Host.Event U)} (hinit : (host hd).init h)
    (hrun : (host hd).run h events = some h') :
    (host hd).Always (fun h => h.pool.OneRunner) h events ↔
      (host hd).Meets Host.RunsIdle h events := by
  have hone : h.pool.OneRunner := by
    intro ioService
    rw [IoServicePool.runners, noWorkers_init hinit]
    exact Nat.zero_le 1
  refine System.always_iff_meets inRange_invariant ?_ (inRange_invariant.init h hinit) hone hrun
  intro h e h' hrange hone hstep
  dsimp only [host] at hstep
  split_ifs at hstep
  exact Host.oneRunner_step hrange hone hstep

/-- Two servers over one pool. -/
def twoServers : Host Unit :=
  { pool := newServer.pool, servers := [newServer, newServer] }

theorem twoServers_init : (host dummyHandler).init twoServers := by
  refine ⟨1, rfl, ?_⟩
  intro s hs
  simp only [twoServers, List.mem_cons, List.not_mem_nil, or_false, or_self] at hs
  rw [hs]
  rfl

/-- One server listens, and the other one tries to. -/
def oneListens : List (Host.Event Unit) :=
  [.getIoService, .server 0 (.listen oneEndpoint), .server 0 (.accept 0 0 0 .failed),
    .server 1 (.listen inUseAtListen)]

theorem oneRunner_iff_meets_oneListens :
    ∃ h, (host dummyHandler).run twoServers oneListens = some h ∧ h.pool.runners 0 = 1 ∧
      (host dummyHandler).Always (fun h => h.pool.OneRunner) twoServers oneListens := by
  obtain ⟨h, hrun, hrunners⟩ : ∃ h, (host dummyHandler).run twoServers oneListens = some h ∧
      h.pool.runners 0 = 1 := ⟨_, rfl, rfl⟩
  refine ⟨h, hrun, hrunners, (oneRunner_iff_meets twoServers_init hrun).mpr ?_⟩
  refine (System.meets_cons rfl).mpr ⟨trivial, ?_⟩
  refine (System.meets_cons rfl).mpr ⟨?_, ?_⟩
  · intro s _ _
    exact List.forall_mem_nil _
  refine (System.meets_cons rfl).mpr ⟨trivial, ?_⟩
  refine (System.meets_cons rfl).mpr ⟨?_, trivial⟩
  rintro s - ⟨-, hreturns, -⟩
  -- `listen` throws on the second endpoint
  cases hreturns ⟨.success, .success, .success, addressInUse, 0⟩
    (List.mem_cons_of_mem _ List.mem_cons_self)

/-- Both servers listen. -/
def bothListen : List (Host.Event Unit) :=
  [.server 0 (.listen oneEndpoint), .server 1 (.listen oneEndpoint)]

theorem not_oneRunner_bothListen :
    ∃ h, (host dummyHandler).init twoServers ∧
      (host dummyHandler).run twoServers bothListen = some h ∧ h.pool.runners 0 = 2 ∧
      ¬ (host dummyHandler).Always (fun h => h.pool.OneRunner) twoServers bothListen := by
  obtain ⟨h, hrun, hrunners⟩ : ∃ h, (host dummyHandler).run twoServers bothListen = some h ∧
      h.pool.runners 0 = 2 := ⟨_, rfl, rfl⟩
  refine ⟨h, twoServers_init, hrun, hrunners, ?_⟩
  intro halways
  have hone : h.pool.runners 0 ≤ 1 := halways _ h (List.prefix_refl _) hrun 0
  omega

end

end Http2Asio
