import Mathlib.Algebra.Order.Monoid.Unbundled.WithTop
import Mathlib.Data.Int.Order.Basic
import Mathlib.Data.List.Basic

/-!
# Boost.Asio, as a connection sees it

Sockets and timers are library objects outside the repository; this file follows
their documentation.  An asynchronous operation is *pending* from its start until
it completes, and then *queued* until its completion handler is called.  Which
operation completes when, with what outcome, and in which order queued handlers are
called is up to the caller of these functions, so that every order is possible.

* Closing a socket completes its pending operations with an error and leaves queued
  handlers as they are.
* Setting the expiry of a timer, or cancelling it, completes its pending waits; their
  handlers are still called.
-/

namespace Http2Asio

/-- What a completion handler is called with: an error code, or none and a number of
bytes. -/
inductive Completion
  | failure
  | success (bytes : ℕ)
  deriving DecidableEq

/-- The number of bytes transferred. -/
def Completion.bytes : Completion → ℕ
  | .failure => 0
  | .success bytes => bytes

/-- An asynchronous operation whose handler has not been called yet: the size of its
buffer and, once it is queued, its outcome. -/
structure Operation where
  size : ℕ
  outcome : Option Completion
  deriving DecidableEq

namespace Operation

/-- Completion of the pending operation number `i`, with at most the bytes that its
buffer holds. -/
def complete (i : ℕ) (completion : Completion) (ops : List Operation) : Option (List Operation) :=
  match ops[i]? with
  | some ⟨size, none⟩ =>
      if completion.bytes ≤ size then some (ops.set i ⟨size, some completion⟩) else none
  | _ => none

/-- The queued operation number `i` leaves, and its handler is to be called. -/
def dequeue (i : ℕ) (ops : List Operation) : Option (Completion × List Operation) :=
  match ops[i]? with
  | some ⟨_, some completion⟩ => some (completion, ops.eraseIdx i)
  | _ => none

/-- A pending operation completes with an error. -/
def abort (op : Operation) : Operation :=
  { op with outcome := op.outcome.or (some .failure) }

variable {i : ℕ} {completion : Completion} {ops ops' : List Operation}

theorem eq_singleton_of_getElem? {op : Operation} (hlength : ops.length ≤ 1)
    (hop : ops[i]? = some op) : ops = [op] ∧ i = 0 := by
  obtain ⟨hi, -⟩ := List.getElem?_eq_some_iff.mp hop
  have hzero : i = 0 := by omega
  subst hzero
  obtain ⟨only, rfl⟩ := List.length_eq_one_iff.mp (by omega : ops.length = 1)
  cases hop
  exact ⟨rfl, rfl⟩

/-- Completion, when at most one operation is in flight. -/
theorem complete_eq_some (hlength : ops.length ≤ 1)
    (hcomplete : complete i completion ops = some ops') :
    ∃ size, completion.bytes ≤ size ∧ ops = [⟨size, none⟩] ∧
      ops' = [⟨size, some completion⟩] := by
  unfold complete at hcomplete
  split at hcomplete
  · next size hop =>
      obtain ⟨rfl, rfl⟩ := eq_singleton_of_getElem? hlength hop
      split_ifs at hcomplete with hfits
      cases hcomplete
      exact ⟨size, hfits, rfl, rfl⟩
  · cases hcomplete

/-- The call of a handler, when at most one operation is in flight. -/
theorem dequeue_eq_some (hlength : ops.length ≤ 1)
    (hdequeue : dequeue i ops = some (completion, ops')) :
    ∃ size, ops = [⟨size, some completion⟩] ∧ ops' = [] := by
  unfold dequeue at hdequeue
  split at hdequeue
  · next size found hop =>
      obtain ⟨rfl, rfl⟩ := eq_singleton_of_getElem? hlength hop
      cases hdequeue
      exact ⟨size, rfl, rfl⟩
  · cases hdequeue

end Operation

/-- The state of a socket, plain or TLS. -/
structure Socket where
  isOpen : Bool := true
  reads : List Operation := []
  writes : List Operation := []
  handshakes : List Operation := []
  deriving DecidableEq

namespace Socket

/-- `async_read_some` into a buffer of `size` bytes.  On a closed socket it fails, or,
over TLS, finds bytes that were decrypted before; the outcome is left open. -/
def asyncReadSome (socket : Socket) (size : ℕ) : Socket :=
  { socket with reads := socket.reads ++ [⟨size, none⟩] }

/-- `async_write_some` of `size` bytes. -/
def asyncWriteSome (socket : Socket) (size : ℕ) : Socket :=
  let outcome := if socket.isOpen then none else some .failure
  { socket with writes := socket.writes ++ [⟨size, outcome⟩] }

/-- `async_handshake`. -/
def asyncHandshake (socket : Socket) : Socket :=
  let outcome := if socket.isOpen then none else some .failure
  { socket with handshakes := socket.handshakes ++ [⟨0, outcome⟩] }

/-- `close`. -/
def close (socket : Socket) : Socket :=
  { isOpen := false
    reads := socket.reads.map Operation.abort
    writes := socket.writes.map Operation.abort
    handshakes := socket.handshakes.map Operation.abort }

end Socket

/-- `deadline_timer`.  Nothing reads the expiry before it is first set. -/
structure DeadlineTimer where
  expiresAt : WithTop ℤ := ⊤
  /-- Waits that have not completed. -/
  pending : ℕ := 0
  /-- Waits whose handler is queued. -/
  queued : ℕ := 0

namespace DeadlineTimer

/-- `cancel`. -/
def cancel (timer : DeadlineTimer) : DeadlineTimer :=
  { timer with pending := 0, queued := timer.queued + timer.pending }

/-- `expires_at`. -/
def setExpiresAt (timer : DeadlineTimer) (time : WithTop ℤ) : DeadlineTimer :=
  { timer.cancel with expiresAt := time }

/-- `expires_from_now`. -/
def expiresFromNow (timer : DeadlineTimer) (now : ℤ) (duration : WithTop ℤ) : DeadlineTimer :=
  timer.setExpiresAt (now + duration)

/-- Whether `expires_at` is not later than `now`; `⊤` is `pos_infin`. -/
def expired (timer : DeadlineTimer) (now : ℤ) : Bool :=
  match timer.expiresAt with
  | ⊤ => false
  | (expiry : ℤ) => decide (expiry ≤ now)

/-- `async_wait`. -/
def asyncWait (timer : DeadlineTimer) : DeadlineTimer :=
  { timer with pending := timer.pending + 1 }

/-- The waits whose handler has still to be called. -/
def outstanding (timer : DeadlineTimer) : ℕ :=
  timer.pending + timer.queued

variable {timer : DeadlineTimer} {now : ℤ}

@[simp] theorem outstanding_cancel : timer.cancel.outstanding = timer.outstanding := by
  change 0 + (timer.queued + timer.pending) = timer.pending + timer.queued
  omega

@[simp] theorem outstanding_setExpiresAt (time : WithTop ℤ) :
    (timer.setExpiresAt time).outstanding = timer.outstanding :=
  outstanding_cancel

@[simp] theorem outstanding_expiresFromNow (duration : WithTop ℤ) :
    (timer.expiresFromNow now duration).outstanding = timer.outstanding :=
  outstanding_cancel

@[simp] theorem outstanding_asyncWait : timer.asyncWait.outstanding = timer.outstanding + 1 := by
  change timer.pending + 1 + timer.queued = timer.pending + timer.queued + 1
  omega

end DeadlineTimer

end Http2Asio
