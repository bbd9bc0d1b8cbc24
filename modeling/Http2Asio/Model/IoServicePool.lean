import Mathlib.Data.Int.Notation
import Http2Asio.Transition.System

/-!
# `io_service_pool`

The pool of `io_service_pool.hpp` and `io_service_pool.cpp`.  An `io_service` is named
by its place in `io_services_list_`; a worker is one of the threads that `run` starts,
named by the place of its future in `io_service_pool_`, and runs the handlers of one
`io_service`.  The `work` objects keep a worker from returning before `stop`.

A pool has at least one `io_service`, since its constructor throws otherwise, and
`next_io_service_index_` is always the place of one: both are fields of the structure.
-/

namespace Http2Asio

open Transition

/-- `boost::system::error_code`. -/
structure ErrorCode where
  value : ℤ
  category : String
  deriving DecidableEq

namespace ErrorCode

/-- No error; what an error code is before it is first set. -/
def success : ErrorCode := ⟨0, "system"⟩

/-- The conversion to `bool`. -/
def failed (ec : ErrorCode) : Bool :=
  ec.value != 0

/-- What `<<` prints. -/
def text (ec : ErrorCode) : String :=
  ec.category ++ ":" ++ toString ec.value

end ErrorCode

/-- The exceptions that reach the repository's callers: its own `std::runtime_error`,
and the `boost::system::system_error` of a call without an error code argument. -/
inductive Exception
  | runtimeError (what : String)
  | systemError (ec : ErrorCode)
  deriving DecidableEq

/-- The exception is a `std::runtime_error`, from which `boost::system::system_error` is
derived. -/
def Exception.isRuntimeError : Exception → Bool
  | .runtimeError _ => true
  | .systemError _ => true

/-- What has become of a thread. -/
inductive WorkerStatus
  | running
  | returned
  | threw (exception : Exception)
  deriving DecidableEq

/-- A thread that runs an `io_service`. -/
structure Worker where
  ioService : ℕ
  status : WorkerStatus := .running
  deriving DecidableEq

/-- The worker has ended by an exception. -/
def Worker.Threw (worker : Worker) : Prop :=
  ∃ exception, worker.status = .threw exception

/-- `io_service_pool`. -/
structure IoServicePool where
  /-- The length of `io_services_list_`. -/
  size : ℕ
  nextIoServiceIndex : ℕ
  index_lt : nextIoServiceIndex < size
  /-- `io_service_pool_`. -/
  workers : List Worker
  /-- Every `io_service` is stopped. -/
  stopped : Bool

namespace IoServicePool

/-- The constructor. -/
def make (poolSize : ℕ) : Except Exception IoServicePool :=
  if hpositive : 0 < poolSize then
    .ok { size := poolSize, nextIoServiceIndex := 0, index_lt := hpositive, workers := [],
          stopped := false }
  else
    .error (.runtimeError "h2a::io_service_pool::io_service_pool - pool size must be > 0")

/-- `get_io_service`. -/
def getIoService (pool : IoServicePool) : ℕ × IoServicePool :=
  (pool.nextIoServiceIndex,
    { pool with
      nextIoServiceIndex := (pool.nextIoServiceIndex + 1) % pool.size
      index_lt := Nat.mod_lt _ (Nat.zero_lt_of_lt pool.index_lt) })

/-- `run`: one more thread for every `io_service`.  A blocking call waits in `join`
afterwards. -/
def run (pool : IoServicePool) : IoServicePool :=
  { pool with workers := pool.workers ++ (List.range pool.size).map fun ioService => { ioService } }

/-- `stop`. -/
def stop (pool : IoServicePool) : IoServicePool :=
  { pool with stopped := true }

/-- The `io_service` whose handlers worker number `w` can run now. -/
def runs (pool : IoServicePool) (w : ℕ) : Option ℕ :=
  if pool.stopped then none
  else
    match pool.workers[w]? with
    | some ⟨ioService, .running⟩ => some ioService
    | _ => none

/-- Worker number `w` has not ended. -/
def isRunning (pool : IoServicePool) (w : ℕ) : Bool :=
  match pool.workers[w]? with
  | some ⟨_, .running⟩ => true
  | _ => false

/-- Worker number `w` ends. -/
def finish (pool : IoServicePool) (w : ℕ) (status : WorkerStatus) : IoServicePool :=
  { pool with workers := pool.workers.modify w fun worker => { worker with status := status } }

/-- The number of workers that have not ended. -/
def running (pool : IoServicePool) : ℕ :=
  pool.workers.countP fun worker => worker.status = .running

/-! ## Workers -/

variable {pool : IoServicePool} {w ioService : ℕ}

theorem isRunning_iff :
    pool.isRunning w = true ↔ ∃ ioService, pool.workers[w]? = some ⟨ioService, .running⟩ := by
  unfold isRunning
  split
  · next found hworker => exact iff_of_true rfl ⟨found, hworker⟩
  · next hother =>
      refine iff_of_false (by decide) ?_
      rintro ⟨found, hworker⟩
      exact hother found hworker

theorem isRunning_of_runs (hruns : pool.runs w = some ioService) : pool.isRunning w = true := by
  unfold runs at hruns
  split_ifs at hruns
  split at hruns
  · next found hworker => exact isRunning_iff.mpr ⟨found, hworker⟩
  · cases hruns

/-- The end of a worker, seen from its place in the list. -/
theorem finish_split (hrunning : pool.isRunning w = true) :
    ∃ before ioService after, pool.workers = before ++ ⟨ioService, .running⟩ :: after ∧
      ∀ status, (pool.finish w status).workers = before ++ ⟨ioService, status⟩ :: after := by
  obtain ⟨ioService, hworker⟩ := isRunning_iff.mp hrunning
  obtain ⟨hlt, hget⟩ := List.getElem?_eq_some_iff.mp hworker
  refine ⟨pool.workers.take w, ioService, pool.workers.drop (w + 1), ?_, ?_⟩
  · rw [← hget, List.getElem_cons_drop, List.take_append_drop]
  · intro status
    rw [finish, List.modify_eq_take_cons_drop hlt, hget]

/-! ## Round robin -/

/-- The next draw is draw number `k`, counted from draw number 0 of a new pool. -/
def Drawn (pool : IoServicePool) (k : ℕ) : Prop :=
  pool.nextIoServiceIndex = k % pool.size

theorem make_eq_ok {poolSize : ℕ} (hmake : make poolSize = .ok pool) :
    pool.size = poolSize ∧ pool.workers = [] := by
  unfold make at hmake
  split_ifs at hmake with hpositive
  cases hmake
  exact ⟨rfl, rfl⟩

theorem drawn_make {poolSize : ℕ} (hmake : make poolSize = .ok pool) : pool.Drawn 0 := by
  unfold make at hmake
  split_ifs at hmake with hpositive
  cases hmake
  exact (Nat.zero_mod poolSize).symm

/-- `get_io_service` hands out the services in turn. -/
theorem Drawn.getIoService {k : ℕ} (hdrawn : pool.Drawn k) :
    pool.getIoService.1 = k % pool.size ∧ pool.getIoService.2.Drawn (k + 1) := by
  refine ⟨hdrawn, ?_⟩
  calc (pool.nextIoServiceIndex + 1) % pool.size
      = (k % pool.size + 1) % pool.size := by rw [hdrawn]
    _ = (k + 1) % pool.size := Nat.mod_add_mod k pool.size 1

end IoServicePool

/-! ## Joining

A worker's future holds its result, or its exception, until `get` takes it.  What `get`
does to a future that has none is left undefined by the language; here it throws, as is
recommended there. -/

/-- What `join` does: it asks a future, whose result may have been taken before, or it ends,
by returning or throwing, with some workers still running. -/
inductive JoinAction
  | get (k : ℕ) (wasTaken : Bool)
  | ends (running : ℕ)
  deriving DecidableEq

/-- A pool with the state of its futures and of the call of `join` in progress. -/
structure PoolCalls where
  pool : IoServicePool
  /-- The places of the futures that `get` has been called on. -/
  taken : List ℕ := []
  /-- The place of the future that `join` is at. -/
  joining : Option ℕ := none
  trace : List JoinAction := []

namespace PoolCalls

/-- `join`. -/
def join (s : PoolCalls) : PoolCalls :=
  { s with joining := some 0 }

/-- `run`. -/
def run (s : PoolCalls) (blocking : Bool) : PoolCalls :=
  let s := { s with pool := s.pool.run }
  if blocking then s.join else s

/-- `stop`. -/
def stop (s : PoolCalls) : PoolCalls :=
  { s with pool := s.pool.stop }

/-- The call of `join` ends. -/
def endJoin (s : PoolCalls) : PoolCalls :=
  { s with joining := none, trace := s.trace ++ [.ends s.pool.running] }

/-- `get` on future number `k`, which has its result. -/
def take (s : PoolCalls) (k : ℕ) : PoolCalls :=
  { s with taken := s.taken ++ [k], trace := s.trace ++ [.get k false] }

/-- `get` on future number `k`, which has no result any more. -/
def takeAgain (s : PoolCalls) (k : ℕ) : PoolCalls :=
  { s with trace := s.trace ++ [.get k true] }

/-- The loop of `join`, up to the next future; `none` while it waits for the worker. -/
def get (s : PoolCalls) : Option PoolCalls :=
  s.joining.bind fun k =>
  match s.pool.workers[k]? with
  | none => some s.endJoin
  | some worker =>
      if k ∈ s.taken then some (s.takeAgain k).endJoin
      else
        match worker.status with
        | .running => none
        | .returned => some { s.take k with joining := some (k + 1) }
        | .threw _ => some (s.take k).endJoin

/-- What can happen to a pool.  While one thread is in `join`, another one may call `stop`. -/
inductive Event
  | run (blocking : Bool)
  | stop
  | join
  | get
  | workerReturns (w : ℕ)
  | workerThrows (w : ℕ) (exception : Exception)

/-- One step; `none` when the event cannot happen. -/
def step (s : PoolCalls) : Event → Option PoolCalls
  | .run blocking => if s.joining = none then some (s.run blocking) else none
  | .stop => some s.stop
  | .join => if s.joining = none then some s.join else none
  | .get => s.get
  | .workerReturns w =>
      if s.pool.stopped ∧ s.pool.isRunning w then
        some { s with pool := s.pool.finish w .returned }
      else none
  | .workerThrows w exception =>
      if s.pool.isRunning w then some { s with pool := s.pool.finish w (.threw exception) }
      else none

end PoolCalls

/-- A new pool of any size and the calls of `run`, `stop` and `join` on it. -/
def poolCalls : System PoolCalls PoolCalls.Event where
  init s := ∃ poolSize pool, IoServicePool.make poolSize = .ok pool ∧ s = { pool := pool }
  step := PoolCalls.step

end Http2Asio
