import Http2Asio.Model.Connection

/-!
# What the functions of a connection do

`stop` does nothing or stops (`stop_cases`).  `write_data` does nothing, or calls
`on_write` and then stops, stays idle or begins a write (`writeData_cases`).  The
handlers are sequences of these with the two asynchronous starts, so the invariants of
a connection are proved function by function in the same order.

With at most one operation of each kind in flight, the number in an event names that one or
nothing, and `step_cases` says once what each event can do, guards included.

Two kinds of properties need no case analysis of their own.  A property that every call of
the handler, every stop and every entry of the trace keeps is kept by every step (`Kept`); one
that may also depend on the number of waits is kept by every step but that of the timer
(`Steady`).  What the handlers do in between is put together here, once.
-/

namespace Http2Asio

/-- The stop. -/
def Action.IsStop {H : Type} : Action H → Prop
  | .stop _ _ _ => True
  | _ => False

/-- The start of a wait. -/
def Action.isAsyncWait {H : Type} : Action H → Bool
  | .asyncWait => true
  | _ => false

namespace Connection

variable {H U : Type} {hd : Handler H U} {c : Connection H}

section Log

variable (action : Action H)

@[simp] theorem handler_log : (c.log action).handler = c.handler := rfl
@[simp] theorem writing_log : (c.log action).writing = c.writing := rfl
@[simp] theorem stopped_log : (c.log action).stopped = c.stopped := rfl
@[simp] theorem socket_log : (c.log action).socket = c.socket := rfl
@[simp] theorem writeBuffer_log : (c.log action).writeBuffer = c.writeBuffer := rfl
@[simp] theorem readBuffer_log : (c.log action).readBuffer = c.readBuffer := rfl
@[simp] theorem wire_log : (c.log action).wire = c.wire := rfl
@[simp] theorem trace_log : (c.log action).trace = c.trace ++ [action] := rfl

end Log

theorem stop_cases (c : Connection H) (reason : StopReason) :
    c.stopped = true ∧ c.stop reason = c ∨
      c.stopped = false ∧ c.stop reason =
        { c.log (.stop reason c.socket.writes.length c.handler) with
          stopped := true, socket := c.socket.close, deadline := c.deadline.cancel } := by
  unfold stop
  split_ifs with hstopped
  · exact Or.inl ⟨hstopped, rfl⟩
  · exact Or.inr ⟨by simpa using hstopped, rfl⟩

@[simp] theorem stopped_stop (reason : StopReason) : (c.stop reason).stopped = true := by
  rcases stop_cases c reason with ⟨hstopped, heq⟩ | ⟨-, heq⟩
  · rw [heq, hstopped]
  · rw [heq]

@[simp] theorem handler_stop (reason : StopReason) : (c.stop reason).handler = c.handler := by
  rcases stop_cases c reason with ⟨-, heq⟩ | ⟨-, heq⟩ <;> rw [heq]; rfl

@[simp] theorem writing_stop (reason : StopReason) : (c.stop reason).writing = c.writing := by
  rcases stop_cases c reason with ⟨-, heq⟩ | ⟨-, heq⟩ <;> rw [heq]; rfl

@[simp] theorem writeBuffer_stop (reason : StopReason) :
    (c.stop reason).writeBuffer = c.writeBuffer := by
  rcases stop_cases c reason with ⟨-, heq⟩ | ⟨-, heq⟩ <;> rw [heq]; rfl

@[simp] theorem wire_stop (reason : StopReason) : (c.stop reason).wire = c.wire := by
  rcases stop_cases c reason with ⟨-, heq⟩ | ⟨-, heq⟩ <;> rw [heq]; rfl

theorem writeData_of_writing (hwriting : c.writing = true) : c.writeData hd = c := by
  rw [writeData, if_pos hwriting]

/-- The call of `on_write` inside `write_data`. -/
def callOnWrite (hd : Handler H U) (c : Connection H) (h : H) : Connection H :=
  let r := hd.onWrite c.writeBuffer h
  { c.log (.onWrite c.socket.writes.length) with
    writeBuffer := r.buffer
    handler := some r.handler }

/-- The call of `should_stop`, when the handler is `h`. -/
def callShouldStop (hd : Handler H U) (c : Connection H) (h : H) : Connection H :=
  { c with handler := some (hd.shouldStop h).2 }

theorem askShouldStop_eq {h : H} (hhandler : c.handler = some h) :
    c.askShouldStop hd = ((hd.shouldStop h).1, c.callShouldStop hd h) := by
  unfold askShouldStop
  rw [hhandler]
  rfl

/-- The states that `write_data` may leave. -/
inductive WriteDataEffect (hd : Handler H U) (c : Connection H) : Connection H → Prop
  | skip (hskip : c.writing = true ∨ c.handler = none) : WriteDataEffect hd c c
  | failed (h : H) (hwriting : c.writing = false) (hhandler : c.handler = some h)
      (hok : (hd.onWrite c.writeBuffer h).ok = false) :
      WriteDataEffect hd c ((c.callOnWrite hd h).stop .onWrite)
  | idle (h : H) (hwriting : c.writing = false) (hhandler : c.handler = some h)
      (hok : (hd.onWrite c.writeBuffer h).ok = true)
      (hlength : (hd.onWrite c.writeBuffer h).length = 0)
      (hanswer : (hd.shouldStop (hd.onWrite c.writeBuffer h).handler).1 = false) :
      WriteDataEffect hd c
        ((c.callOnWrite hd h).callShouldStop hd (hd.onWrite c.writeBuffer h).handler)
  | done (h : H) (hwriting : c.writing = false) (hhandler : c.handler = some h)
      (hok : (hd.onWrite c.writeBuffer h).ok = true)
      (hlength : (hd.onWrite c.writeBuffer h).length = 0)
      (hanswer : (hd.shouldStop (hd.onWrite c.writeBuffer h).handler).1 = true) :
      WriteDataEffect hd c
        (((c.callOnWrite hd h).callShouldStop hd (hd.onWrite c.writeBuffer h).handler).stop
          .writeShouldStop)
  | begin (h : H) (hwriting : c.writing = false) (hhandler : c.handler = some h)
      (hok : (hd.onWrite c.writeBuffer h).ok = true)
      (hlength : (hd.onWrite c.writeBuffer h).length ≠ 0) :
      WriteDataEffect hd c
        ((c.callOnWrite hd h).beginWrite (hd.onWrite c.writeBuffer h).length)

theorem writeData_cases (hd : Handler H U) (c : Connection H) :
    WriteDataEffect hd c (c.writeData hd) := by
  unfold writeData
  by_cases hwriting : c.writing = true
  · rw [if_pos hwriting]
    exact .skip (Or.inl hwriting)
  · rw [if_neg hwriting]
    have hwriting' : c.writing = false := by simpa using hwriting
    cases hhandler : c.handler with
    | none => exact .skip (Or.inr hhandler)
    | some h =>
        show WriteDataEffect hd c
          (let r := hd.onWrite c.writeBuffer h
          if !r.ok then (c.callOnWrite hd h).stop .onWrite
          else if r.length = 0 then
            let asked := (c.callOnWrite hd h).askShouldStop hd
            if asked.1 then asked.2.stop .writeShouldStop else asked.2
          else (c.callOnWrite hd h).beginWrite r.length)
        rw [askShouldStop_eq rfl]
        cases hok : (hd.onWrite c.writeBuffer h).ok with
        | false => simpa [hok] using WriteDataEffect.failed h hwriting' hhandler hok
        | true =>
            by_cases hlength : (hd.onWrite c.writeBuffer h).length = 0
            · cases hanswer : (hd.shouldStop (hd.onWrite c.writeBuffer h).handler).1 with
              | false =>
                  simpa [hok, hlength, hanswer] using
                    WriteDataEffect.idle h hwriting' hhandler hok hlength hanswer
              | true =>
                  simpa [hok, hlength, hanswer] using
                    WriteDataEffect.done h hwriting' hhandler hok hlength hanswer
            · simpa [hok, hlength] using
                WriteDataEffect.begin h hwriting' hhandler hok hlength

theorem handler_writeData_ne_none (hhandler : c.handler ≠ none) :
    (c.writeData hd).handler ≠ none := by
  have heffect := writeData_cases hd c
  generalize c.writeData hd = d at heffect
  cases heffect with
  | skip _ => exact hhandler
  | failed h _ _ _ => simp [callOnWrite]
  | idle h _ _ _ _ _ => simp [callShouldStop]
  | done h _ _ _ _ _ => simp [callShouldStop]
  | begin h _ _ _ _ => simp [beginWrite, callOnWrite, log]

/-- The call of `on_read` inside the read handler. -/
def callOnRead (hd : Handler H U) (c : Connection H) (bytesReceived : ℕ) (h : H) : Connection H :=
  let bytes := c.readBuffer.take bytesReceived
  { (c.log (.readCompleted (.success bytesReceived))).log (.onRead c.socket.reads.length bytes) with
    handler := some (hd.onRead bytes h).2 }

/-- The states that the read handler may leave. -/
inductive ReadHandlerEffect (hd : Handler H U) (c : Connection H) :
    Completion → Connection H → Prop
  | failed :
      ReadHandlerEffect hd c .failure ((c.log (.readCompleted .failure)).stop .readError)
  | noHandler (n : ℕ) (hhandler : c.handler = none) :
      ReadHandlerEffect hd c (.success n) (c.log (.readCompleted (.success n)))
  | refused (n : ℕ) (h : H) (hhandler : c.handler = some h)
      (hok : (hd.onRead (c.readBuffer.take n) h).1 = false) :
      ReadHandlerEffect hd c (.success n) ((c.callOnRead hd n h).stop .onRead)
  | writing (n : ℕ) (h : H) (hhandler : c.handler = some h)
      (hok : (hd.onRead (c.readBuffer.take n) h).1 = true)
      (hwriting : ((c.callOnRead hd n h).writeData hd).writing = true) :
      ReadHandlerEffect hd c (.success n) ((c.callOnRead hd n h).writeData hd).readData
  | goOn (n : ℕ) (h h' : H) (hhandler : c.handler = some h)
      (hok : (hd.onRead (c.readBuffer.take n) h).1 = true)
      (hwriting : ((c.callOnRead hd n h).writeData hd).writing = false)
      (hhandler' : ((c.callOnRead hd n h).writeData hd).handler = some h')
      (hanswer : (hd.shouldStop h').1 = false) :
      ReadHandlerEffect hd c (.success n)
        (((c.callOnRead hd n h).writeData hd).callShouldStop hd h').readData
  | done (n : ℕ) (h h' : H) (hhandler : c.handler = some h)
      (hok : (hd.onRead (c.readBuffer.take n) h).1 = true)
      (hwriting : ((c.callOnRead hd n h).writeData hd).writing = false)
      (hhandler' : ((c.callOnRead hd n h).writeData hd).handler = some h')
      (hanswer : (hd.shouldStop h').1 = true) :
      ReadHandlerEffect hd c (.success n)
        ((((c.callOnRead hd n h).writeData hd).callShouldStop hd h').stop .readShouldStop)

theorem readHandler_cases (hd : Handler H U) (c : Connection H) (completion : Completion) :
    ReadHandlerEffect hd c completion (c.readHandler hd completion) := by
  cases completion with
  | failure => exact .failed
  | success n =>
      cases hhandler : c.handler with
      | none =>
          have heq : c.readHandler hd (.success n) = c.log (.readCompleted (.success n)) := by
            simp [readHandler, log, hhandler]
          rw [heq]
          exact .noHandler n hhandler
      | some h =>
          have heq : c.readHandler hd (.success n) =
              if !(hd.onRead (c.readBuffer.take n) h).1 then (c.callOnRead hd n h).stop .onRead
              else
                let d := (c.callOnRead hd n h).writeData hd
                if d.writing then d.readData
                else
                  let asked := d.askShouldStop hd
                  if asked.1 then asked.2.stop .readShouldStop else asked.2.readData := by
            simp only [readHandler, log, hhandler]
            rfl
          rw [heq]
          cases hok : (hd.onRead (c.readBuffer.take n) h).1 with
          | false => simpa using ReadHandlerEffect.refused n h hhandler hok
          | true =>
              cases hwriting : ((c.callOnRead hd n h).writeData hd).writing with
              | true => simpa [hwriting] using ReadHandlerEffect.writing n h hhandler hok hwriting
              | false =>
                  have hsome : ((c.callOnRead hd n h).writeData hd).handler ≠ none :=
                    handler_writeData_ne_none (by simp [callOnRead])
                  obtain ⟨h', hhandler'⟩ := Option.ne_none_iff_exists'.mp hsome
                  cases hanswer : (hd.shouldStop h').1 with
                  | false =>
                      simpa [hwriting, askShouldStop_eq hhandler', hanswer] using
                        ReadHandlerEffect.goOn n h h' hhandler hok hwriting hhandler' hanswer
                  | true =>
                      simpa [hwriting, askShouldStop_eq hhandler', hanswer] using
                        ReadHandlerEffect.done n h h' hhandler hok hwriting hhandler' hanswer

theorem signal_of_signals {h : H} (hthrough : hd.signals h = true) :
    c.signal hd h = ({ c with handler := some h }.log .signalled).writeData hd := by
  unfold signal
  rw [if_pos hthrough]

/-! ## The steps, with at most one operation of each kind in flight -/

/-- The states that a step may leave. -/
inductive StepEffect (hd : Handler H U) (c : Connection H) : Event U → Connection H → Prop
  | tick (ticks : ℕ) : StepEffect hd c (.tick ticks) { c with now := c.now + ticks }
  | readReady (i : ℕ) (bytes : List UInt8) (size : ℕ) (hbytes : bytes ≠ [])
      (hreads : c.socket.reads = [⟨size, none⟩]) :
      StepEffect hd c (.readReady i bytes)
        ((c.receive bytes).setReads [⟨size, some (.success bytes.length)⟩])
  | readFailed (i size : ℕ) (hreads : c.socket.reads = [⟨size, none⟩]) :
      StepEffect hd c (.readFailed i) (c.setReads [⟨size, some .failure⟩])
  | readHandler (i size : ℕ) (completion : Completion)
      (hreads : c.socket.reads = [⟨size, some completion⟩])
      (hdequeue : Operation.dequeue i c.socket.reads = some (completion, [])) :
      StepEffect hd c (.readHandler i) ((c.setReads []).readHandler hd completion)
  | writeReady (i bytesSent size : ℕ) (hpositive : 0 < bytesSent) (hsize : bytesSent ≤ size)
      (hwrites : c.socket.writes = [⟨size, none⟩]) :
      StepEffect hd c (.writeReady i bytesSent)
        ((c.send bytesSent).setWrites [⟨size, some (.success bytesSent)⟩])
  | writeFailed (i size : ℕ) (hwrites : c.socket.writes = [⟨size, none⟩]) :
      StepEffect hd c (.writeFailed i) (c.setWrites [⟨size, some .failure⟩])
  | writeHandler (i size : ℕ) (completion : Completion)
      (hwrites : c.socket.writes = [⟨size, some completion⟩])
      (hdequeue : Operation.dequeue i c.socket.writes = some (completion, [])) :
      StepEffect hd c (.writeHandler i) ((c.setWrites []).writeHandler hd completion)
  | handshakeReady (i size : ℕ) (hhandshakes : c.socket.handshakes = [⟨size, none⟩]) :
      StepEffect hd c (.handshakeReady i) (c.setHandshakes [⟨size, some (.success 0)⟩])
  | handshakeFailed (i size : ℕ) (hhandshakes : c.socket.handshakes = [⟨size, none⟩]) :
      StepEffect hd c (.handshakeFailed i) (c.setHandshakes [⟨size, some .failure⟩])
  | handshakeHandler (i size : ℕ) (completion : Completion) (tlsH2Negotiated : Bool)
      (hhandshakes : c.socket.handshakes = [⟨size, some completion⟩])
      (hdequeue : Operation.dequeue i c.socket.handshakes = some (completion, [])) :
      StepEffect hd c (.handshakeHandler i tlsH2Negotiated)
        ((c.setHandshakes []).handshakeHandler hd completion tlsH2Negotiated)
  | timerExpired : StepEffect hd c .timerExpired { c with deadline := c.deadline.cancel }
  | timerHandler (deadline : DeadlineTimer) :
      StepEffect hd c .timerHandler ({ c with deadline := deadline } : Connection H).timeoutHandler
  | signal (u : U) (h : H) (hhandler : c.handler = some h) :
      StepEffect hd c (.signal u) (c.signal hd (hd.submit u h))
  | stop : StepEffect hd c .stop (c.stop .external)

theorem step_cases (hreads : c.socket.reads.length ≤ 1) (hwrites : c.socket.writes.length ≤ 1)
    (hhandshakes : c.socket.handshakes.length ≤ 1) {e : Event U} {d : Connection H}
    (hstep : c.step hd e = some d) : StepEffect hd c e d := by
  cases e with
  | tick ticks =>
      cases hstep
      exact .tick ticks
  | readReady i bytes =>
      dsimp only [step] at hstep
      split_ifs at hstep with hbytes
      obtain ⟨reads, hcomplete, rfl⟩ := Option.map_eq_some_iff.mp hstep
      -- with at most one read in flight, the number can only name that one
      obtain ⟨size, -, hshape, rfl⟩ := Operation.complete_eq_some hreads hcomplete
      exact .readReady i bytes size hbytes hshape
  | readFailed i =>
      obtain ⟨reads, hcomplete, rfl⟩ := Option.map_eq_some_iff.mp hstep
      obtain ⟨size, -, hshape, rfl⟩ := Operation.complete_eq_some hreads hcomplete
      exact .readFailed i size hshape
  | readHandler i =>
      obtain ⟨⟨completion, reads⟩, hdequeue, rfl⟩ := Option.map_eq_some_iff.mp hstep
      obtain ⟨size, hshape, rfl⟩ := Operation.dequeue_eq_some hreads hdequeue
      exact .readHandler i size completion hshape hdequeue
  | writeReady i bytesSent =>
      dsimp only [step] at hstep
      split_ifs at hstep with hzero
      obtain ⟨writes, hcomplete, rfl⟩ := Option.map_eq_some_iff.mp hstep
      obtain ⟨size, hsize, hshape, rfl⟩ := Operation.complete_eq_some hwrites hcomplete
      exact .writeReady i bytesSent size (Nat.pos_of_ne_zero hzero) hsize hshape
  | writeFailed i =>
      obtain ⟨writes, hcomplete, rfl⟩ := Option.map_eq_some_iff.mp hstep
      obtain ⟨size, -, hshape, rfl⟩ := Operation.complete_eq_some hwrites hcomplete
      exact .writeFailed i size hshape
  | writeHandler i =>
      obtain ⟨⟨completion, writes⟩, hdequeue, rfl⟩ := Option.map_eq_some_iff.mp hstep
      obtain ⟨size, hshape, rfl⟩ := Operation.dequeue_eq_some hwrites hdequeue
      exact .writeHandler i size completion hshape hdequeue
  | handshakeReady i =>
      obtain ⟨handshakes, hcomplete, rfl⟩ := Option.map_eq_some_iff.mp hstep
      obtain ⟨size, -, hshape, rfl⟩ := Operation.complete_eq_some hhandshakes hcomplete
      exact .handshakeReady i size hshape
  | handshakeFailed i =>
      obtain ⟨handshakes, hcomplete, rfl⟩ := Option.map_eq_some_iff.mp hstep
      obtain ⟨size, -, hshape, rfl⟩ := Operation.complete_eq_some hhandshakes hcomplete
      exact .handshakeFailed i size hshape
  | handshakeHandler i tlsH2Negotiated =>
      obtain ⟨⟨completion, handshakes⟩, hdequeue, rfl⟩ := Option.map_eq_some_iff.mp hstep
      obtain ⟨size, hshape, rfl⟩ := Operation.dequeue_eq_some hhandshakes hdequeue
      exact .handshakeHandler i size completion tlsH2Negotiated hshape hdequeue
  | timerExpired =>
      dsimp only [step] at hstep
      split_ifs at hstep with hexpired
      cases hstep
      exact .timerExpired
  | timerHandler =>
      dsimp only [step] at hstep
      split_ifs at hstep with hqueued
      cases hstep
      exact .timerHandler _
  | signal u =>
      obtain ⟨h, hhandler, rfl⟩ := Option.map_eq_some_iff.mp hstep
      exact .signal u h hhandler
  | stop =>
      cases hstep
      exact .stop

/-! ## What all functions keep -/

/-- `P` is kept by each call of the handler, by `stop`, by every other entry of the trace
but the start of a wait, and by what leaves the number of outstanding waits as it is. -/
structure Steady (hd : Handler H U) (P : Connection H → Prop) : Prop where
  frame {c d : Connection H} (hc : P c) (hhandler : d.handler = c.handler)
    (hstopped : d.stopped = c.stopped) (htrace : d.trace = c.trace)
    (houtstanding : d.deadline.outstanding = c.deadline.outstanding) : P d
  log {c : Connection H} (hc : P c) {action : Action H} (hstop : ¬ action.IsStop)
    (hwait : action.isAsyncWait = false) : P (c.log action)
  stop {c : Connection H} (hc : P c) (reason : StopReason) : P (c.stop reason)
  start {c : Connection H} (hc : P c) : P { c with handler := some (hd.start hd.make).2 }
  onRead {c : Connection H} (hc : P c) (bytes : List UInt8) (h : H) :
    P { c with handler := some (hd.onRead bytes h).2 }
  onWrite {c : Connection H} (hc : P c) (h : H) :
    P { c with handler := some (hd.onWrite c.writeBuffer h).handler }
  shouldStop {c : Connection H} (hc : P c) {h : H} (hhandler : c.handler = some h) :
    P { c with handler := some (hd.shouldStop h).2 }
  submit {c : Connection H} (hc : P c) {h : H} (hhandler : c.handler = some h) (u : U) :
    P { c with handler := some (hd.submit u h) }

namespace Steady

variable {P : Connection H → Prop} (hP : Steady hd P)
include hP

theorem callOnWrite (hc : P c) (h : H) : P (c.callOnWrite hd h) := by
  have hlog : P (c.log (.onWrite c.socket.writes.length)) := hP.log hc id rfl
  exact hP.frame (hP.onWrite hlog h) rfl rfl rfl rfl

theorem readData (hc : P c) : P c.readData := by
  have hlog : P (c.log .asyncRead) := hP.log hc id rfl
  exact hP.frame hlog rfl rfl rfl (DeadlineTimer.outstanding_expiresFromNow _)

theorem beginWrite (hc : P c) (length : ℕ) : P (c.beginWrite length) := by
  have hlog : P (c.log (.asyncWrite (c.writeBuffer.take (min length writeBufferSize)))) :=
    hP.log hc id rfl
  exact hP.frame hlog rfl rfl rfl (DeadlineTimer.outstanding_expiresFromNow _)

theorem writeData (hc : P c) : P (c.writeData hd) := by
  have heffect := writeData_cases hd c
  generalize c.writeData hd = d at heffect
  cases heffect with
  | skip _ => exact hc
  | failed h _ _ _ => exact hP.stop (hP.callOnWrite hc h) .onWrite
  | idle h _ _ _ _ _ => exact hP.shouldStop (hP.callOnWrite hc h) rfl
  | done h _ _ _ _ _ => exact hP.stop (hP.shouldStop (hP.callOnWrite hc h) rfl) .writeShouldStop
  | begin h _ _ _ _ => exact hP.beginWrite (hP.callOnWrite hc h) _

theorem callOnRead (hc : P c) (n : ℕ) (h : H) : P (c.callOnRead hd n h) := by
  have hcompleted : P (c.log (.readCompleted (.success n))) := hP.log hc id rfl
  exact hP.onRead (hP.log hcompleted id rfl) _ h

theorem readHandler (hc : P c) (completion : Completion) : P (c.readHandler hd completion) := by
  have heffect := readHandler_cases hd c completion
  generalize c.readHandler hd completion = d at heffect
  have hwrite : ∀ n h, P ((c.callOnRead hd n h).writeData hd) :=
    fun n h => hP.writeData (hP.callOnRead hc n h)
  cases heffect with
  | failed => exact hP.stop (hP.log hc id rfl) .readError
  | noHandler n _ => exact hP.log hc id rfl
  | refused n h _ _ => exact hP.stop (hP.callOnRead hc n h) .onRead
  | writing n h _ _ _ => exact hP.readData (hwrite n h)
  | goOn n h h' _ _ _ hhandler' _ => exact hP.readData (hP.shouldStop (hwrite n h) hhandler')
  | done n h h' _ _ _ hhandler' _ =>
      exact hP.stop (hP.shouldStop (hwrite n h) hhandler') .readShouldStop

theorem writeHandler (hc : P c) (completion : Completion) : P (c.writeHandler hd completion) := by
  have hcompleted : P (c.log (.writeCompleted completion)) := hP.log hc id rfl
  cases completion with
  | failure => exact hP.stop hcompleted .writeError
  | success n =>
      apply hP.writeData
      exact hP.frame hcompleted rfl rfl rfl rfl

theorem startHandler (hc : P c) : P (c.start hd) := by
  have hlog : P (c.log .handlerStart) := hP.log hc id rfl
  have hstarted := hP.start hlog
  unfold Connection.start
  dsimp only
  split_ifs
  · exact hP.stop hstarted .start
  · exact hP.readData hstarted

theorem handshakeHandler (hc : P c) (completion : Completion) (tlsH2Negotiated : Bool) :
    P (c.handshakeHandler hd completion tlsH2Negotiated) := by
  unfold Connection.handshakeHandler
  cases completion with
  | failure => exact hP.stop hc .handshakeError
  | success n =>
      dsimp only
      split_ifs
      · exact hP.stop hc .notNegotiated
      · exact hP.startHandler hc

theorem signal (hc : P c) {h : H} (hhandler : c.handler = some h) (u : U) :
    P (c.signal hd (hd.submit u h)) := by
  have hsignalled : P ({ c with handler := some (hd.submit u h) }.log .signalled) :=
    hP.log (hP.submit hc hhandler u) id rfl
  unfold Connection.signal
  dsimp only
  split_ifs
  · exact hP.writeData hsignalled
  · exact hsignalled

/-- Only `timeout_handler` uses up a wait or starts one. -/
theorem step {e : Event U} {d : Connection H} (hc : P c) (hother : e ≠ .timerHandler)
    (hstep : c.step hd e = some d) : P d := by
  cases e with
  -- what happens outside leaves the handler, the stop, the trace and the waits as they are
  | tick ticks =>
      cases hstep
      exact hP.frame hc rfl rfl rfl rfl
  | readReady i bytes =>
      dsimp only [Connection.step] at hstep
      split_ifs at hstep
      obtain ⟨reads, -, rfl⟩ := Option.map_eq_some_iff.mp hstep
      exact hP.frame hc rfl rfl rfl rfl
  | writeReady i bytesSent =>
      dsimp only [Connection.step] at hstep
      split_ifs at hstep
      obtain ⟨writes, -, rfl⟩ := Option.map_eq_some_iff.mp hstep
      exact hP.frame hc rfl rfl rfl rfl
  | readFailed i | writeFailed i | handshakeReady i | handshakeFailed i =>
      obtain ⟨operations, -, rfl⟩ := Option.map_eq_some_iff.mp hstep
      exact hP.frame hc rfl rfl rfl rfl
  | readHandler i =>
      obtain ⟨⟨completion, reads⟩, -, rfl⟩ := Option.map_eq_some_iff.mp hstep
      apply hP.readHandler
      exact hP.frame hc rfl rfl rfl rfl
  | writeHandler i =>
      obtain ⟨⟨completion, writes⟩, -, rfl⟩ := Option.map_eq_some_iff.mp hstep
      apply hP.writeHandler
      exact hP.frame hc rfl rfl rfl rfl
  | handshakeHandler i tlsH2Negotiated =>
      obtain ⟨⟨completion, handshakes⟩, -, rfl⟩ := Option.map_eq_some_iff.mp hstep
      apply hP.handshakeHandler
      exact hP.frame hc rfl rfl rfl rfl
  | timerExpired =>
      dsimp only [Connection.step] at hstep
      split_ifs at hstep
      cases hstep
      exact hP.frame hc rfl rfl rfl DeadlineTimer.outstanding_cancel
  | timerHandler => exact absurd rfl hother
  | signal u =>
      obtain ⟨h, hhandler, rfl⟩ := Option.map_eq_some_iff.mp hstep
      exact hP.signal hc hhandler u
  | stop =>
      cases hstep
      exact hP.stop hc .external

end Steady

/-- `P` is about the handler, `stopped_` and the trace, and is kept by each call of the
handler, by `stop`, and by every other entry of the trace. -/
structure Kept (hd : Handler H U) (P : Connection H → Prop) : Prop where
  frame {c d : Connection H} (hc : P c) (hhandler : d.handler = c.handler)
    (hstopped : d.stopped = c.stopped) (htrace : d.trace = c.trace) : P d
  log {c : Connection H} (hc : P c) {action : Action H} (haction : ¬ action.IsStop) :
    P (c.log action)
  stop {c : Connection H} (hc : P c) (reason : StopReason) : P (c.stop reason)
  start {c : Connection H} (hc : P c) : P { c with handler := some (hd.start hd.make).2 }
  onRead {c : Connection H} (hc : P c) (bytes : List UInt8) (h : H) :
    P { c with handler := some (hd.onRead bytes h).2 }
  onWrite {c : Connection H} (hc : P c) (h : H) :
    P { c with handler := some (hd.onWrite c.writeBuffer h).handler }
  shouldStop {c : Connection H} (hc : P c) {h : H} (hhandler : c.handler = some h) :
    P { c with handler := some (hd.shouldStop h).2 }
  submit {c : Connection H} (hc : P c) {h : H} (hhandler : c.handler = some h) (u : U) :
    P { c with handler := some (hd.submit u h) }

namespace Kept

variable {P : Connection H → Prop} (hP : Kept hd P)
include hP

theorem steady : Steady hd P :=
  { hP with
    frame := fun hc hhandler hstopped htrace _ => hP.frame hc hhandler hstopped htrace
    log := by
      intro c hc action hstop _
      exact hP.log hc hstop }

theorem timeoutHandler (hc : P c) : P c.timeoutHandler := by
  unfold Connection.timeoutHandler
  split_ifs
  · exact hc
  · exact hP.frame (hP.stop hc .timeout) rfl rfl rfl
  · have hlog : P (c.log .asyncWait) := hP.log hc id
    exact hP.frame hlog rfl rfl rfl

/-- What is kept by the calls is kept by every step. -/
theorem step {e : Event U} {d : Connection H} (hc : P c) (hstep : c.step hd e = some d) : P d := by
  by_cases htimer : e = .timerHandler
  · subst htimer
    dsimp only [Connection.step] at hstep
    split_ifs at hstep
    cases hstep
    apply hP.timeoutHandler
    exact hP.frame hc rfl rfl rfl
  · exact hP.steady.step hc htimer hstep

/-- What is kept by the calls and holds of a new object is an invariant. -/
theorem invariant (hnew : ∀ timeouts now, P { timeouts, now }) : (connection hd).Invariant P where
  init := by
    rintro _ ⟨timeouts, now, rfl | rfl⟩
    · have hlog : P (({ timeouts, now } : Connection H).log .asyncWait) :=
        hP.log (hnew timeouts now) id
      apply hP.steady.startHandler
      exact hP.frame hlog rfl rfl rfl
    · have hlog : P (({ timeouts, now } : Connection H).log .asyncWait) :=
        hP.log (hnew timeouts now) id
      exact hP.frame hlog rfl rfl rfl
  step _ _ _ hc hstep := hP.step hc hstep

end Kept

end Connection

end Http2Asio
