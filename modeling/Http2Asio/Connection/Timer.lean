import Http2Asio.Connection.Exclusive

/-!
# The timer of a connection

`start_read_timeout` or `start_handshake_timeout` starts the first wait.  From then on
`timeout_handler` starts the next one, unless it finds the connection stopped or stops
it itself.  Each read and each write sets the expiry anew, which cancels the wait and
queues its handler early, and a wait may expire just before; the handler tells these
apart by the expiry that is in force when it runs.

So the number of waits whose handler has still to be called changes in `timeout_handler`
only (`step_sameWaits`), where it stays or goes down by one (`timeoutHandler_cases`).
-/

namespace Http2Asio

open Transition

namespace Connection

variable {H U : Type} {hd : Handler H U} {c d e : Connection H}

/-- The number of waits that the connection has started. -/
def waits (c : Connection H) : ℕ :=
  c.trace.countP Action.isAsyncWait

theorem waits_log_of_not_wait {action : Action H} (hwait : action.isAsyncWait = false) :
    (c.log action).waits = c.waits := by
  rw [waits, trace_log, List.countP_append, List.countP_singleton, hwait]
  rfl

theorem waits_log_asyncWait : (c.log .asyncWait).waits = c.waits + 1 := by
  rw [waits, trace_log, List.countP_append]
  rfl

/-- No wait has started and no handler of a wait has been called from `c` to `d`. -/
structure SameWaits (c d : Connection H) : Prop where
  outstanding : d.deadline.outstanding = c.deadline.outstanding
  waits : d.waits = c.waits
  stopped : c.stopped = true → d.stopped = true

theorem SameWaits.trans (hcd : SameWaits c d) (hde : SameWaits d e) : SameWaits c e where
  outstanding := hde.outstanding.trans hcd.outstanding
  waits := hde.waits.trans hcd.waits
  stopped hstopped := hde.stopped (hcd.stopped hstopped)

theorem sameWaits_stop (reason : StopReason) : SameWaits c (c.stop reason) := by
  rcases stop_cases c reason with ⟨-, heq⟩ | ⟨-, heq⟩
  · rw [heq]
    exact ⟨rfl, rfl, id⟩
  · rw [heq]
    -- the pending wait is cancelled, so its handler is queued
    exact ⟨DeadlineTimer.outstanding_cancel, waits_log_of_not_wait rfl, fun _ => rfl⟩

theorem sameWaits_steady (hd : Handler H U) (c : Connection H) : Steady hd (SameWaits c) where
  frame {d e} hsame _ hstopped htrace houtstanding :=
    hsame.trans ⟨houtstanding, by rw [waits, waits, htrace], fun h => hstopped.trans h⟩
  log hsame _ _ hwait := hsame.trans ⟨rfl, waits_log_of_not_wait hwait, id⟩
  stop hsame reason := hsame.trans (sameWaits_stop reason)
  start hsame := hsame.trans ⟨rfl, rfl, id⟩
  onRead hsame _ _ := hsame.trans ⟨rfl, rfl, id⟩
  onWrite hsame _ := hsame.trans ⟨rfl, rfl, id⟩
  shouldStop hsame _ _ := hsame.trans ⟨rfl, rfl, id⟩
  submit hsame _ _ _ := hsame.trans ⟨rfl, rfl, id⟩

theorem step_sameWaits {event : Event U} (hother : event ≠ .timerHandler)
    (hstep : c.step hd event = some d) : SameWaits c d :=
  (sameWaits_steady hd c).step ⟨rfl, rfl, id⟩ hother hstep

/-- What the call of the handler of a wait may do. -/
inductive TimeoutEffect (c d : Connection H) : Prop
  /-- The connection was stopped before. -/
  | ignored (hc : c.stopped = true) (hd : d.stopped = true)
      (houtstanding : d.deadline.outstanding + 1 = c.deadline.outstanding)
      (hwaits : d.waits = c.waits)
  | timedOut (hc : c.stopped = false) (hexpired : c.deadline.expired c.now = true)
      (hd : d.stopped = true) (houtstanding : d.deadline.outstanding + 1 = c.deadline.outstanding)
      (hwaits : d.waits = c.waits)
  /-- The wait was cancelled, or has expired and was overtaken. -/
  | again (hc : c.stopped = false) (hexpired : c.deadline.expired c.now = false)
      (hd : d.stopped = false) (houtstanding : d.deadline.outstanding = c.deadline.outstanding)
      (hwaits : d.waits = c.waits + 1)

theorem timeoutHandler_cases (hstep : c.step hd .timerHandler = some d) : TimeoutEffect c d := by
  dsimp only [step] at hstep
  split_ifs at hstep with hqueued
  obtain rfl := (Option.some.inj hstep).symm
  -- the handler that is called is not outstanding any more
  let called : DeadlineTimer := { c.deadline with queued := c.deadline.queued - 1 }
  have hcalled : called.outstanding + 1 = c.deadline.outstanding := by
    change c.deadline.pending + (c.deadline.queued - 1) + 1 = c.deadline.pending + c.deadline.queued
    omega
  unfold timeoutHandler
  split_ifs with hstopped hexpired
  · exact .ignored hstopped hstopped hcalled rfl
  · obtain ⟨hstop, hwaits, -⟩ := @sameWaits_stop H { c with deadline := called } .timeout
    refine .timedOut (by simpa using hstopped) hexpired (stopped_stop .timeout) ?_ hwaits
    calc (DeadlineTimer.setExpiresAt _ ⊤).outstanding + 1
        = called.outstanding + 1 := by rw [DeadlineTimer.outstanding_setExpiresAt, hstop]
      _ = c.deadline.outstanding := hcalled
  · have hrunning : c.stopped = false := by simpa using hstopped
    refine .again hrunning (Bool.of_not_eq_true hexpired) hrunning ?_ waits_log_asyncWait
    calc called.asyncWait.outstanding
        = called.outstanding + 1 := DeadlineTimer.outstanding_asyncWait
      _ = c.deadline.outstanding := hcalled

/-! ## The chain of waits -/

/-- A connection that is not stopped has one handler to be called, a stopped one at most
one. -/
structure Chain (c : Connection H) : Prop where
  one : c.stopped = false → c.deadline.outstanding = 1
  atMostOne : c.deadline.outstanding ≤ 1

theorem Chain.sameWaits (hc : Chain c) (hsame : SameWaits c d) : Chain d where
  one hd := by
    rw [hsame.outstanding]
    apply hc.one
    by_contra hstopped
    rw [hsame.stopped (by simpa using hstopped)] at hd
    cases hd
  atMostOne := hsame.outstanding.le.trans hc.atMostOne

theorem Chain.step {event : Event U} (hc : Chain c) (hstep : c.step hd event = some d) :
    Chain d := by
  by_cases htimer : event = .timerHandler
  · subst htimer
    have hatMostOne := hc.atMostOne
    cases timeoutHandler_cases hstep with
    | ignored _ hstopped houtstanding _ | timedOut _ _ hstopped houtstanding _ =>
        refine ⟨fun hd => ?_, by omega⟩
        rw [hstopped] at hd
        cases hd
    | again hrunning _ _ houtstanding _ =>
        exact ⟨fun _ => houtstanding.trans (hc.one hrunning), houtstanding.le.trans hatMostOne⟩
  · exact hc.sameWaits (step_sameWaits htimer hstep)

end Connection

section

variable {H U : Type} {hd : Handler H U} {c : Connection H}

end

end Http2Asio
