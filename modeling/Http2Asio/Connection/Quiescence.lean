import Http2Asio.Transition.History
import Http2Asio.Connection.Exclusive

/-!
# Quiescence after `stop`

`stop` closes the socket and cancels the timer, but handlers that are already queued
with a successful outcome still run, and only `timeout_handler` looks at `stopped_`.
`Quiet` says that nothing active, a call of the handler or the start of an asynchronous
operation, comes after the stop in the trace of a connection.

`KeepsQuiet` is the exact condition on one step, and `quiet_iff_meets` the exact
condition on a run.  A step breaks quiescence in one of two ways: a successful handler
or a write signal that goes through arrives after the stop; or the stop happens inside
the read handler, in `write_data`, and the read handler does not notice, because the
`should_stop` that follows says no.
-/

namespace Http2Asio

open Transition

/-- A call of the handler's `start`, `on_read` or `on_write`, or the start of an
asynchronous read, write or wait. -/
def Action.Active {H : Type} : Action H → Prop
  | .handlerStart => True
  | .onRead _ _ => True
  | .onWrite _ => True
  | .asyncRead => True
  | .asyncWrite _ => True
  | .asyncWait => True
  | _ => False

/-- Whether `write_data`, when it is not already writing, stops the connection. -/
def Handler.stopsWrite {H U : Type} (hd : Handler H U) (buffer : List UInt8) (h : H) : Bool :=
  let r := hd.onWrite buffer h
  !r.ok || (r.length = 0 && (hd.shouldStop r.handler).1)

/-- The handler after such a `write_data`. -/
def Handler.afterWrite {H U : Type} (hd : Handler H U) (buffer : List UInt8) (h : H) : H :=
  let r := hd.onWrite buffer h
  if r.ok && r.length = 0 then (hd.shouldStop r.handler).2 else r.handler

namespace Connection

variable {H U : Type} {hd : Handler H U} {c : Connection H}

/-- Nothing active comes after the stop. -/
def Quiet (c : Connection H) : Prop :=
  Historically (fun earlier action => (∃ a ∈ earlier, a.IsStop) → ¬ action.Active) c.trace

/-- The trace has a stop if and only if `stopped_` is set. -/
def StopLogged (c : Connection H) : Prop :=
  c.stopped = true ↔ ∃ a ∈ c.trace, a.IsStop

/-- In the read handler `on_read` succeeds, `write_data` stops the connection, and then
`should_stop` says no. -/
def StopUnnoticed (hd : Handler H U) (c : Connection H) (bytesReceived : ℕ) : Prop :=
  ∃ h, c.handler = some h ∧ c.writing = false ∧
    (hd.onRead (c.readBuffer.take bytesReceived) h).1 = true ∧
    hd.stopsWrite c.writeBuffer (hd.onRead (c.readBuffer.take bytesReceived) h).2 = true ∧
    (hd.shouldStop (hd.afterWrite c.writeBuffer
      (hd.onRead (c.readBuffer.take bytesReceived) h).2)).1 = false

/-- The condition on a step. -/
def KeepsQuiet (hd : Handler H U) (c : Connection H) : Event U → Prop
  | .readHandler i => ∀ n reads, Operation.dequeue i c.socket.reads = some (.success n, reads) →
      c.stopped = false ∧ ¬ StopUnnoticed hd c n
  | .writeHandler i => ∀ n writes, Operation.dequeue i c.socket.writes = some (.success n, writes) →
      c.stopped = false
  | .handshakeHandler i tlsH2Negotiated => ∀ n handshakes,
      Operation.dequeue i c.socket.handshakes = some (.success n, handshakes) →
      tlsH2Negotiated = true → c.stopped = false
  | .signal u => ∀ h, c.handler = some h → hd.signals (hd.submit u h) = true →
      c.writing = false → c.stopped = false
  | _ => True

/-! ## The trace -/

theorem quiet_log_of_not_active {action : Action H} (haction : ¬ action.Active) :
    (c.log action).Quiet ↔ c.Quiet := by
  unfold Quiet
  rw [trace_log, historically_append_singleton]
  exact and_iff_left fun _ => haction

theorem quiet_log_of_active (hlogged : c.StopLogged) {action : Action H}
    (haction : action.Active) : (c.log action).Quiet ↔ c.Quiet ∧ c.stopped = false := by
  unfold Quiet
  rw [trace_log, historically_append_singleton]
  refine and_congr_right fun _ => ?_
  have hiff : c.stopped = true ↔ ∃ a ∈ c.trace, a.IsStop := hlogged
  rw [← Bool.not_eq_true, hiff]
  exact ⟨fun h hstop => h hstop haction, fun h hstop => absurd hstop h⟩

theorem StopLogged.log (hlogged : c.StopLogged) {action : Action H} (haction : ¬ action.IsStop) :
    (c.log action).StopLogged := by
  have hiff : c.stopped = true ↔ ∃ a ∈ c.trace, a.IsStop := hlogged
  unfold StopLogged
  rw [stopped_log, trace_log, hiff]
  simp [or_and_right, exists_or, haction]

@[simp] theorem quiet_stop (reason : StopReason) : (c.stop reason).Quiet ↔ c.Quiet := by
  rcases stop_cases c reason with ⟨-, heq⟩ | ⟨-, heq⟩
  · rw [heq]
  · rw [heq]
    exact quiet_log_of_not_active id

theorem StopLogged.stop (hlogged : c.StopLogged) (reason : StopReason) :
    (c.stop reason).StopLogged := by
  rcases stop_cases c reason with ⟨-, heq⟩ | ⟨-, heq⟩
  · rw [heq]
    exact hlogged
  · rw [heq]
    simp [StopLogged, Action.IsStop]

theorem stopLogged_kept (hd : Handler H U) : Kept hd StopLogged where
  frame hlogged _ hstopped htrace := by
    rw [StopLogged, hstopped, htrace]
    exact hlogged
  log hlogged _ haction := hlogged.log haction
  stop hlogged reason := hlogged.stop reason
  start hlogged := hlogged
  onRead hlogged _ _ := hlogged
  onWrite hlogged _ := hlogged
  shouldStop hlogged _ _ := hlogged
  submit hlogged _ _ _ := hlogged

theorem quiet_readData (hlogged : c.StopLogged) :
    c.readData.Quiet ↔ c.Quiet ∧ c.stopped = false := by
  have hlog : (c.log .asyncRead).Quiet ↔ c.Quiet ∧ c.stopped = false :=
    quiet_log_of_active hlogged trivial
  exact hlog

theorem quiet_callOnWrite (hlogged : c.StopLogged) (h : H) :
    (c.callOnWrite hd h).Quiet ↔ c.Quiet ∧ c.stopped = false := by
  have hlog : (c.log (.onWrite c.socket.writes.length)).Quiet ↔ c.Quiet ∧ c.stopped = false :=
    quiet_log_of_active hlogged trivial
  exact hlog

theorem quiet_beginWrite (hlogged : c.StopLogged) (length : ℕ) :
    (c.beginWrite length).Quiet ↔ c.Quiet ∧ c.stopped = false := by
  have hlog : (c.log (.asyncWrite (c.writeBuffer.take (min length writeBufferSize)))).Quiet ↔
      c.Quiet ∧ c.stopped = false := quiet_log_of_active hlogged trivial
  exact hlog

/-! ## `write_data` -/

theorem quiet_writeData (hlogged : c.StopLogged) {h : H} (hhandler : c.handler = some h) :
    (c.writeData hd).Quiet ↔ c.Quiet ∧ (c.writing = false → c.stopped = false) := by
  have heffect := writeData_cases hd c
  generalize c.writeData hd = d at heffect
  have hcall : ∀ h, (c.callOnWrite hd h).Quiet ↔ c.Quiet ∧ c.stopped = false :=
    quiet_callOnWrite hlogged
  cases heffect with
  | skip hskip =>
      rcases hskip with hwriting | hnone
      · simp [hwriting]
      · rw [hhandler] at hnone
        cases hnone
  | failed h hwriting _ _ => simp [hwriting, hcall]
  | idle h hwriting _ _ _ _ =>
      have hidle : ((c.callOnWrite hd h).callShouldStop hd
          (hd.onWrite c.writeBuffer h).handler).Quiet ↔ c.Quiet ∧ c.stopped = false := hcall h
      simp [hwriting, hidle]
  | done h hwriting _ _ _ _ =>
      have hidle : ((c.callOnWrite hd h).callShouldStop hd
          (hd.onWrite c.writeBuffer h).handler).Quiet ↔ c.Quiet ∧ c.stopped = false := hcall h
      simp [hwriting, hidle]
  | begin h hwriting _ _ _ =>
      have hstopped : (c.callOnWrite hd h).stopped = c.stopped := rfl
      rw [quiet_beginWrite ((stopLogged_kept hd).steady.callOnWrite hlogged h), hcall, hstopped]
      simp [hwriting]

section

variable {h : H} (hhandler : c.handler = some h)
include hhandler

theorem stopped_writeData :
    (c.writeData hd).stopped = (c.stopped || (!c.writing && hd.stopsWrite c.writeBuffer h)) := by
  have heffect := writeData_cases hd c
  generalize c.writeData hd = d at heffect
  unfold Handler.stopsWrite
  cases heffect with
  | skip hskip => simp_all
  | failed h' hwriting hh' hok =>
      cases hhandler.symm.trans hh'
      simp [hwriting, hok]
  | idle h' hwriting hh' hok hlength hanswer =>
      cases hhandler.symm.trans hh'
      simp [hwriting, hok, hlength, hanswer, callOnWrite, callShouldStop]
  | done h' hwriting hh' hok hlength hanswer =>
      cases hhandler.symm.trans hh'
      simp [hwriting, hok, hlength, hanswer]
  | begin h' hwriting hh' hok hlength =>
      cases hhandler.symm.trans hh'
      simp [hwriting, hok, hlength, callOnWrite, beginWrite]

theorem handler_writeData (hwriting : c.writing = false) :
    (c.writeData hd).handler = some (hd.afterWrite c.writeBuffer h) := by
  have heffect := writeData_cases hd c
  generalize c.writeData hd = d at heffect
  unfold Handler.afterWrite
  cases heffect with
  | skip hskip => simp_all
  | failed h' _ hh' hok =>
      cases hhandler.symm.trans hh'
      simp [hok, callOnWrite]
  | idle h' _ hh' hok hlength hanswer =>
      cases hhandler.symm.trans hh'
      simp [hok, hlength, callShouldStop]
  | done h' _ hh' hok hlength hanswer =>
      cases hhandler.symm.trans hh'
      simp [hok, hlength, callShouldStop]
  | begin h' _ hh' hok hlength =>
      cases hhandler.symm.trans hh'
      simp [hok, hlength, callOnWrite, beginWrite]

/-- Only a `write_data` that does not stop leaves a write. -/
theorem stopsWrite_eq_false (hwriting : c.writing = false)
    (hwriting' : (c.writeData hd).writing = true) : hd.stopsWrite c.writeBuffer h = false := by
  have heffect := writeData_cases hd c
  generalize c.writeData hd = d at heffect hwriting'
  cases heffect with
  | skip _ => simp_all
  | failed h' _ _ _ => simp [callOnWrite, hwriting] at hwriting'
  | idle h' _ _ _ _ _ => simp [callOnWrite, callShouldStop, hwriting] at hwriting'
  | done h' _ _ _ _ _ => simp [callOnWrite, callShouldStop, hwriting] at hwriting'
  | begin h' _ hh' hok hlength =>
      cases hhandler.symm.trans hh'
      simp [Handler.stopsWrite, hok, hlength]

end

/-! ## The handlers -/

theorem quiet_callOnRead (hlogged : c.StopLogged) (n : ℕ) (h : H) :
    (c.callOnRead hd n h).Quiet ↔ c.Quiet ∧ c.stopped = false := by
  have hcompleted : (c.log (.readCompleted (.success n))).Quiet ↔ c.Quiet :=
    quiet_log_of_not_active id
  have hlog : ((c.log (.readCompleted (.success n))).log
      (.onRead c.socket.reads.length (c.readBuffer.take n))).Quiet ↔
      (c.log (.readCompleted (.success n))).Quiet ∧ c.stopped = false :=
    quiet_log_of_active (hlogged.log id) trivial
  rw [hcompleted] at hlog
  exact hlog

theorem stopUnnoticed_iff {h : H} (hhandler : c.handler = some h) (n : ℕ) :
    StopUnnoticed hd c n ↔ c.writing = false ∧
      (hd.onRead (c.readBuffer.take n) h).1 = true ∧
      hd.stopsWrite c.writeBuffer (hd.onRead (c.readBuffer.take n) h).2 = true ∧
      (hd.shouldStop (hd.afterWrite c.writeBuffer
        (hd.onRead (c.readBuffer.take n) h).2)).1 = false := by
  unfold StopUnnoticed
  simp [hhandler]

/-- A successful read on a connection with handler `h`. -/
theorem quiet_readHandler (hlogged : c.StopLogged) {h : H} (hhandler : c.handler = some h) (n : ℕ) :
    (c.readHandler hd (.success n)).Quiet ↔
      c.Quiet ∧ c.stopped = false ∧ ¬ StopUnnoticed hd c n := by
  rw [stopUnnoticed_iff hhandler]
  have hlogged' : (c.callOnRead hd n h).StopLogged :=
    (stopLogged_kept hd).steady.callOnRead hlogged n h
  have hhandler' : (c.callOnRead hd n h).handler = some (hd.onRead (c.readBuffer.take n) h).2 := rfl
  have hread : (c.callOnRead hd n h).Quiet ↔ c.Quiet ∧ c.stopped = false :=
    quiet_callOnRead hlogged n h
  have hwrite : ((c.callOnRead hd n h).writeData hd).Quiet ↔ c.Quiet ∧ c.stopped = false := by
    have hstopped : (c.callOnRead hd n h).stopped = c.stopped := rfl
    rw [quiet_writeData hlogged' hhandler', hread, hstopped]
    tauto
  have hstopped : ((c.callOnRead hd n h).writeData hd).stopped = (c.stopped || (!c.writing &&
      hd.stopsWrite c.writeBuffer (hd.onRead (c.readBuffer.take n) h).2)) :=
    stopped_writeData hhandler'
  -- the handler that the last `should_stop` asks
  have hasks : ∀ h'', ((c.callOnRead hd n h).writeData hd).writing = false →
      ((c.callOnRead hd n h).writeData hd).handler = some h'' →
      c.writing = false ∧
        h'' = hd.afterWrite c.writeBuffer (hd.onRead (c.readBuffer.take n) h).2 := by
    intro h'' hwriting hh''
    have hidle : c.writing = false := by
      by_contra hne
      have hbusy : (c.callOnRead hd n h).writing = true := Bool.eq_true_of_not_eq_false hne
      rw [writeData_of_writing hbusy, hbusy] at hwriting
      cases hwriting
    have hsome := @handler_writeData H U hd (c.callOnRead hd n h) _ hhandler' hidle
    rw [hh''] at hsome
    exact ⟨hidle, Option.some.inj hsome⟩
  have heffect := readHandler_cases hd c (.success n)
  generalize c.readHandler hd (.success n) = d at heffect
  cases heffect with
  | noHandler _ hnone => exact absurd (hhandler.symm.trans hnone) (by simp)
  | refused _ h' hh' hok =>
      cases hhandler.symm.trans hh'
      simp [hread, hok]
  | writing _ h' hh' hok hwriting =>
      cases hhandler.symm.trans hh'
      have hgoes : c.writing = false →
          hd.stopsWrite c.writeBuffer (hd.onRead (c.readBuffer.take n) h).2 = false :=
        fun hidle => @stopsWrite_eq_false H U hd (c.callOnRead hd n h) _ hhandler' hidle hwriting
      rw [quiet_readData ((stopLogged_kept hd).steady.writeData hlogged'), hwrite, hstopped]
      cases hidle : c.writing with
      | true => simp
      | false => simp [hgoes hidle]
  | goOn _ h' h'' hh' hok hwriting hh'' hanswer =>
      cases hhandler.symm.trans hh'
      obtain ⟨hidle, hafter⟩ := hasks h'' hwriting hh''
      have hasked : (((c.callOnRead hd n h).writeData hd).callShouldStop hd h'').StopLogged :=
        (stopLogged_kept hd).steady.writeData hlogged'
      have hquiet : (((c.callOnRead hd n h).writeData hd).callShouldStop hd h'').Quiet ↔
          c.Quiet ∧ c.stopped = false := hwrite
      have hsame : (((c.callOnRead hd n h).writeData hd).callShouldStop hd h'').stopped =
          ((c.callOnRead hd n h).writeData hd).stopped := rfl
      rw [quiet_readData hasked, hquiet, hsame, hstopped, ← hafter]
      simp [hidle, hok, hanswer]
      tauto
  | done _ h' h'' hh' hok hwriting hh'' hanswer =>
      cases hhandler.symm.trans hh'
      obtain ⟨-, hafter⟩ := hasks h'' hwriting hh''
      have hquiet : (((c.callOnRead hd n h).writeData hd).callShouldStop hd h'').Quiet ↔
          c.Quiet ∧ c.stopped = false := hwrite
      rw [quiet_stop, hquiet, ← hafter]
      simp [hanswer]

theorem quiet_writeHandler (hlogged : c.StopLogged) {h : H} (hhandler : c.handler = some h)
    (n : ℕ) : (c.writeHandler hd (.success n)).Quiet ↔ c.Quiet ∧ c.stopped = false := by
  have hcompleted : (c.log (.writeCompleted (.success n))).Quiet ↔ c.Quiet :=
    quiet_log_of_not_active id
  have hclear : ({ c.log (.writeCompleted (.success n)) with writing := false } :
      Connection H).StopLogged := hlogged.log id
  have hquiet : ({ c.log (.writeCompleted (.success n)) with writing := false } :
      Connection H).Quiet ↔ c.Quiet := hcompleted
  unfold writeHandler
  dsimp only
  rw [quiet_writeData hclear hhandler, hquiet]
  simp

theorem quiet_start (hlogged : c.StopLogged) :
    (c.start hd).Quiet ↔ c.Quiet ∧ c.stopped = false := by
  have hstarted : ({ c.log .handlerStart with handler := some (hd.start hd.make).2 } :
    Connection H).StopLogged := hlogged.log id
  have hquiet : ({ c.log .handlerStart with handler := some (hd.start hd.make).2 } :
      Connection H).Quiet ↔ c.Quiet ∧ c.stopped = false := quiet_log_of_active hlogged trivial
  unfold Connection.start
  dsimp only
  split_ifs
  · rw [quiet_stop, hquiet]
  · rw [quiet_readData hstarted, hquiet]
    simp

theorem quiet_handshakeHandler (hlogged : c.StopLogged) (n : ℕ) (tlsH2Negotiated : Bool) :
    (c.handshakeHandler hd (.success n) tlsH2Negotiated).Quiet ↔
      c.Quiet ∧ (tlsH2Negotiated = true → c.stopped = false) := by
  unfold handshakeHandler
  cases tlsH2Negotiated with
  | false => simp
  | true => simpa using quiet_start hlogged

/-- `timeout_handler` is the one handler that tests `stopped_`. -/
theorem quiet_timeoutHandler (hlogged : c.StopLogged) : c.timeoutHandler.Quiet ↔ c.Quiet := by
  unfold timeoutHandler
  split_ifs with hstopped
  · rfl
  · exact quiet_stop .timeout
  · have hquiet := @quiet_log_of_active H c hlogged .asyncWait trivial
    have hrunning : c.stopped = false := by simpa using hstopped
    have hwait : (c.log .asyncWait).Quiet ↔ c.Quiet := by
      rw [hquiet]
      simp [hrunning]
    exact hwait

theorem quiet_signal (hlogged : c.StopLogged) (h : H) :
    (c.signal hd h).Quiet ↔
      c.Quiet ∧ (hd.signals h = true → c.writing = false → c.stopped = false) := by
  have hset : ({ c with handler := some h } : Connection H).StopLogged := hlogged
  have hsignalled : ({ c with handler := some h }.log .signalled : Connection H).StopLogged :=
    hset.log id
  have hquiet : ({ c with handler := some h }.log .signalled : Connection H).Quiet ↔ c.Quiet :=
    quiet_log_of_not_active id
  unfold signal
  dsimp only
  split_ifs with hsignals
  · rw [quiet_writeData hsignalled rfl, hquiet]
    simp [hsignals]
  · rw [hquiet]
    simp [hsignals]

/-! ## The steps -/

/-- The condition is exact, step by step. -/
theorem quiet_step {d : Connection H} {e : Event U} (hc : c.Exclusive) (hlogged : c.StopLogged)
    (hstep : c.step hd e = some d) : d.Quiet ↔ c.Quiet ∧ KeepsQuiet hd c e := by
  cases hc.step_cases hstep with
  | readHandler i size completion hreads hdequeue =>
      -- to take the operation off its queue changes nothing that was asked for
      have hset : (c.setReads []).StopLogged := hlogged
      have hquiet : (c.setReads []).Quiet ↔ c.Quiet := Iff.rfl
      have hcondition : KeepsQuiet hd c (.readHandler i) ↔ ∀ n, completion = .success n →
          c.stopped = false ∧ ¬ StopUnnoticed hd c n := by
        simp [KeepsQuiet, hdequeue]
      rw [hcondition]
      cases completion with
      | failure =>
          have hcompleted : ((c.setReads []).log (.readCompleted .failure)).Quiet ↔ c.Quiet :=
            quiet_log_of_not_active id
          simpa [readHandler] using hcompleted
      | success n =>
          -- a read in flight was started by a handler
          have hsome : c.handler ≠ none := hc.handler_ne_none_of_reads (by simp [hreads])
          obtain ⟨h, hhandler⟩ := Option.ne_none_iff_exists'.mp hsome
          have hhandler' : (c.setReads []).handler = some h := hhandler
          have hunnoticed : StopUnnoticed hd (c.setReads []) n ↔ StopUnnoticed hd c n := Iff.rfl
          have hstopped : (c.setReads []).stopped = c.stopped := rfl
          rw [quiet_readHandler hset hhandler', hquiet, hstopped, hunnoticed]
          simp
  | writeHandler i size completion hwrites hdequeue =>
      have hset : (c.setWrites []).StopLogged := hlogged
      have hquiet : (c.setWrites []).Quiet ↔ c.Quiet := Iff.rfl
      have hcondition : KeepsQuiet hd c (.writeHandler i) ↔ ∀ n, completion = .success n →
          c.stopped = false := by
        simp [KeepsQuiet, hdequeue]
      rw [hcondition]
      cases completion with
      | failure =>
          have hcompleted : ((c.setWrites []).log (.writeCompleted .failure)).Quiet ↔ c.Quiet :=
            quiet_log_of_not_active id
          simpa [writeHandler] using hcompleted
      | success n =>
          have hsome : c.handler ≠ none := hc.handler_ne_none_of_writes (by simp [hwrites])
          obtain ⟨h, hhandler⟩ := Option.ne_none_iff_exists'.mp hsome
          have hhandler' : (c.setWrites []).handler = some h := hhandler
          have hstopped : (c.setWrites []).stopped = c.stopped := rfl
          rw [quiet_writeHandler hset hhandler', hquiet, hstopped]
          simp
  | handshakeHandler i size completion tlsH2Negotiated hhandshakes hdequeue =>
      have hset : (c.setHandshakes []).StopLogged := hlogged
      have hquiet : (c.setHandshakes []).Quiet ↔ c.Quiet := Iff.rfl
      have hcondition : KeepsQuiet hd c (.handshakeHandler i tlsH2Negotiated) ↔
          ∀ n, completion = .success n → tlsH2Negotiated = true → c.stopped = false := by
        simp [KeepsQuiet, hdequeue]
      rw [hcondition]
      cases completion with
      | failure => simp [handshakeHandler, hquiet]
      | success n =>
          have hstopped : (c.setHandshakes []).stopped = c.stopped := rfl
          rw [quiet_handshakeHandler hset, hquiet, hstopped]
          simp
  | timerHandler deadline =>
      have hset : ({ c with deadline := deadline } : Connection H).StopLogged := hlogged
      have hquiet : ({ c with deadline := deadline } : Connection H).Quiet ↔ c.Quiet := Iff.rfl
      rw [quiet_timeoutHandler hset, hquiet]
      simp [KeepsQuiet]
  | signal u h hhandler =>
      rw [quiet_signal hlogged]
      simp [KeepsQuiet, hhandler]
  | stop =>
      rw [quiet_stop]
      simp [KeepsQuiet]
  -- the events outside of the code
  | tick _ | readReady _ _ _ _ _ | readFailed _ _ _ | writeReady _ _ _ _ _ _ | writeFailed _ _ _
  | handshakeReady _ _ _ | handshakeFailed _ _ _ | timerExpired => exact (and_iff_left trivial).symm

/-- Until the handler starts, the trace is the timer's. -/
theorem stopLogged_init (timeouts : Timeouts) (now : ℤ) :
    ({ timeouts, now } : Connection H).StopLogged := by
  simp [StopLogged]

theorem quiet_init (timeouts : Timeouts) (now : ℤ) : ({ timeouts, now } : Connection H).Quiet :=
  historically_nil

end Connection

section

variable {H U : Type} (hd : Handler H U)

theorem quiet_of_init {c : Connection H} (hinit : (connection hd).init c) : c.Quiet := by
  obtain ⟨timeouts, now, rfl | rfl⟩ := hinit
  · have hlogged := @Connection.stopLogged_init H timeouts now
    have htimer : ({ timeouts, now } : Connection H).startReadTimeout.Quiet :=
      (@Connection.quiet_log_of_active H _ hlogged .asyncWait trivial).mpr
        ⟨Connection.quiet_init timeouts now, rfl⟩
    have hlogged' : ({ timeouts, now } : Connection H).startReadTimeout.StopLogged := hlogged.log id
    exact (Connection.quiet_start hlogged').mpr ⟨htimer, rfl⟩
  · have hlogged := @Connection.stopLogged_init H timeouts now
    exact (@Connection.quiet_log_of_active H _ hlogged .asyncWait trivial).mpr
      ⟨Connection.quiet_init timeouts now, rfl⟩

theorem stopLogged_invariant :
    (connection hd).Invariant fun c => c.Exclusive ∧ c.StopLogged :=
  (exclusive_invariant hd).and
    ((Connection.stopLogged_kept hd).invariant Connection.stopLogged_init)

/-- **Quiescence after a stop**, exactly: a run of a connection, plain or TLS, ends with
nothing active after the stop if and only if each of its steps meets `KeepsQuiet`.  The
trace only grows, so this decides it for every state on the way as well. -/
theorem quiet_iff_meets {c d : Connection H} {es : List (Connection.Event U)}
    (hinit : (connection hd).init c) (hrun : (connection hd).run c es = some d) :
    d.Quiet ↔ (connection hd).Meets (Connection.KeepsQuiet hd) c es := by
  have hinvariant : c.Exclusive ∧ c.StopLogged := (stopLogged_invariant hd).init c hinit
  have hstep : ∀ s e t, s.Exclusive ∧ s.StopLogged → (connection hd).step s e = some t →
      (t.Quiet ↔ s.Quiet ∧ Connection.KeepsQuiet hd s e) := by
    intro s e t hs hst
    exact Connection.quiet_step hs.1 hs.2 hst
  rw [System.run_iff_meets (stopLogged_invariant hd) hstep hinvariant hrun]
  exact and_iff_right (quiet_of_init hd hinit)

end

/-- A read has completed when the timer stops the connection. -/
def lateRead : List (Connection.Event Unit) :=
  [.timerHandler, .tick 5000, .timerExpired, .readReady 0 [1], .timerHandler, .readHandler 0]

/-- The handler of that read passes its byte to `on_read`, after the stop. -/
theorem not_quiet_lateRead :
    ¬ ∀ c : Connection Unit, (connection dummyHandler).Reachable c → c.Quiet := by
  intro hquiet
  have hrun : ∃ c, (connection dummyHandler).run (Connection.accept dummyHandler ⟨5000, 5000⟩ 0)
      lateRead = some c ∧ c.trace = [.asyncWait, .handlerStart, .asyncRead, .asyncWait,
        .stop .timeout 0 (some ()), .readCompleted (.success 1)] ++ .onRead 0 [1] ::
        [.onWrite 0, .asyncRead] := ⟨_, rfl, rfl⟩
  obtain ⟨c, hrun, htrace⟩ := hrun
  have hreach : (connection dummyHandler).Reachable c := ⟨_, _, ⟨_, _, Or.inl rfl⟩, hrun⟩
  exact hquiet c hreach _ _ _ htrace ⟨.stop .timeout 0 (some ()), by simp, trivial⟩ trivial

/-- The same timer, with the read still pending: the stop aborts it, and its handler runs. -/
def pendingRead : List (Connection.Event Unit) :=
  [.timerHandler, .tick 5000, .timerExpired, .timerHandler, .readHandler 0]

theorem quiet_iff_meets_pendingRead :
    ∃ c : Connection Unit, (connection dummyHandler).run
        (Connection.accept dummyHandler ⟨5000, 5000⟩ 0) pendingRead = some c ∧
      c.trace = [.asyncWait, .handlerStart, .asyncRead, .asyncWait, .stop .timeout 0 (some ()),
        .readCompleted .failure] ∧ c.Quiet := by
  obtain ⟨c, hrun, htrace⟩ : ∃ c, (connection dummyHandler).run
      (Connection.accept dummyHandler ⟨5000, 5000⟩ 0) pendingRead = some c ∧
      c.trace = [.asyncWait, .handlerStart, .asyncRead, .asyncWait, .stop .timeout 0 (some ()),
        .readCompleted .failure] := ⟨_, rfl, rfl⟩
  refine ⟨c, hrun, htrace, (quiet_iff_meets dummyHandler ⟨_, _, Or.inl rfl⟩ hrun).mpr ?_⟩
  refine (System.meets_cons rfl).mpr ⟨trivial, ?_⟩
  refine (System.meets_cons rfl).mpr ⟨trivial, ?_⟩
  refine (System.meets_cons rfl).mpr ⟨trivial, ?_⟩
  refine (System.meets_cons rfl).mpr ⟨trivial, ?_⟩
  refine (System.meets_cons rfl).mpr ⟨?_, trivial⟩
  -- the read handler comes with a failure
  rintro n reads ⟨⟩

end Http2Asio
