import Http2Asio.Connection.Effects

/-!
# Exclusive use of the I/O buffers

A connection has one read buffer and one write buffer and no lock.  `Exclusive` is the
invariant that makes this work: at most one operation of each kind is in flight, a
write in flight shows in `writing_`, and the buffers are handed to the handler only
when no operation uses them.  It also accounts for the bytes read: those passed to
`on_read`, followed by those in the read buffer whose handler is still queued, are
those that the successful reads have delivered.

The invariant holds between the steps.  Inside the read handler it is interrupted: the
handler has left the queue and its bytes are not yet passed on, until `callOnRead`
restores it.
-/

namespace Http2Asio

/-- The bytes an action passes to `on_read`. -/
def Action.delivers {H : Type} : Action H → List UInt8
  | .onRead _ bytes => bytes
  | _ => []

/-- The buffer an action uses has no operation in flight. -/
def Action.Alone {H : Type} : Action H → Prop
  | .onRead readsInFlight _ => readsInFlight = 0
  | .onWrite writesInFlight => writesInFlight = 0
  | _ => True

/-- The bytes of a successful read whose handler is queued. -/
def Operation.delivers (buffer : List UInt8) (op : Operation) : List UInt8 :=
  match op.outcome with
  | some (.success n) => buffer.take n
  | _ => []

theorem Operation.delivers_abort (buffer : List UInt8) (op : Operation) :
    op.abort.delivers buffer = op.delivers buffer := by
  obtain ⟨size, outcome⟩ := op
  cases outcome <;> rfl

namespace Connection

variable {H U : Type} {hd : Handler H U} {c : Connection H}

/-- The bytes passed to `on_read` so far. -/
def delivered (c : Connection H) : List UInt8 :=
  c.trace.flatMap Action.delivers

/-- The bytes read and not yet passed to `on_read`. -/
def undelivered (c : Connection H) : List UInt8 :=
  c.socket.reads.flatMap fun op => op.delivers c.readBuffer

/-- The invariant. -/
structure Exclusive (c : Connection H) : Prop where
  reads_le : c.socket.reads.length ≤ 1
  writes_le : c.socket.writes.length ≤ 1
  handshakes_le : c.socket.handshakes.length ≤ 1
  writing : c.socket.writes ≠ [] → c.writing = true
  early : c.handler = none → c.socket.reads = [] ∧ c.socket.writes = []
  late : c.handler ≠ none → c.socket.handshakes = []
  alone : ∀ action ∈ c.trace, action.Alone
  account : c.delivered ++ c.undelivered = c.received

theorem delivered_log (action : Action H) :
    (c.log action).delivered = c.delivered ++ action.delivers := by
  simp [delivered, log]

theorem forall_mem_log {P : Action H → Prop} {action : Action H} (hold : ∀ a ∈ c.trace, P a)
    (hnew : P action) : ∀ a ∈ (c.log action).trace, P a := by
  intro a ha
  rcases List.mem_append.mp ha with ha | ha
  · exact hold a ha
  · rw [List.mem_singleton.mp ha]
    exact hnew

namespace Exclusive

theorem log (hc : c.Exclusive) {action : Action H} (halone : action.Alone)
    (hdelivers : action.delivers = []) : (c.log action).Exclusive where
  reads_le := hc.reads_le
  writes_le := hc.writes_le
  handshakes_le := hc.handshakes_le
  writing := hc.writing
  early := hc.early
  late := hc.late
  alone := forall_mem_log hc.alone halone
  account := by
    rw [delivered_log, hdelivers, List.append_nil]
    exact hc.account

theorem stop (hc : c.Exclusive) (reason : StopReason) : (c.stop reason).Exclusive := by
  rcases stop_cases c reason with ⟨-, heq⟩ | ⟨-, heq⟩
  · rw [heq]
    exact hc
  · rw [heq]
    have hlog : (c.log (.stop reason c.socket.writes.length c.handler)).Exclusive :=
      hc.log trivial rfl
    refine ⟨?_, ?_, ?_, ?_, ?_, ?_, hlog.alone, ?_⟩
    · simpa [Socket.close] using hc.reads_le
    · simpa [Socket.close] using hc.writes_le
    · simpa [Socket.close] using hc.handshakes_le
    · simpa [Socket.close] using hc.writing
    · simpa [Socket.close] using hc.early
    · simpa [Socket.close] using hc.late
    · rw [← hlog.account]
      simp [undelivered, delivered, Connection.log, Socket.close, Operation.delivers_abort,
        List.flatMap_map]

theorem handler_ne_none_of_reads (hc : c.Exclusive) (hreads : c.socket.reads ≠ []) :
    c.handler ≠ none := fun hnone => hreads (hc.early hnone).1

theorem handler_ne_none_of_writes (hc : c.Exclusive) (hwrites : c.socket.writes ≠ []) :
    c.handler ≠ none := fun hnone => hwrites (hc.early hnone).2

theorem setHandler (hc : c.Exclusive) (hhandler : c.handler ≠ none) (h : H) :
    ({ c with handler := some h } : Connection H).Exclusive where
  reads_le := hc.reads_le
  writes_le := hc.writes_le
  handshakes_le := hc.handshakes_le
  writing := hc.writing
  early := by simp
  late := fun _ => hc.late hhandler
  alone := hc.alone
  account := hc.account

theorem readData (hc : c.Exclusive) (hreads : c.socket.reads = []) (hhandler : c.handler ≠ none) :
    c.readData.Exclusive := by
  refine ⟨?_, hc.writes_le, hc.handshakes_le, hc.writing, ?_, hc.late, ?_, ?_⟩
  · simp [Connection.readData, Connection.log, Socket.asyncReadSome, hreads]
  · intro hnone
    exact absurd hnone hhandler
  · exact forall_mem_log hc.alone trivial
  · have hundelivered : c.undelivered = [] := by simp [undelivered, hreads]
    have hundelivered' : c.readData.undelivered = [] := by
      simp [undelivered, Connection.readData, Socket.asyncReadSome, hreads, Operation.delivers]
    have hdelivered : c.readData.delivered = c.delivered := by
      simp [delivered, Connection.readData, Action.delivers]
    rw [hdelivered, hundelivered', ← hundelivered]
    exact hc.account

theorem writes_eq_nil (hc : c.Exclusive) (hwriting : c.writing = false) : c.socket.writes = [] := by
  by_contra hne
  have hbusy : c.writing = true := hc.writing hne
  rw [hwriting] at hbusy
  cases hbusy

theorem beginWrite (hc : c.Exclusive) (hwriting : c.writing = false) (hhandler : c.handler ≠ none)
    (length : ℕ) : (c.beginWrite length).Exclusive := by
  have hwrites : c.socket.writes = [] := hc.writes_eq_nil hwriting
  refine ⟨hc.reads_le, ?_, hc.handshakes_le, fun _ => rfl, ?_, hc.late, ?_, ?_⟩
  · simp [Connection.beginWrite, Connection.log, Socket.asyncWriteSome, hwrites]
  · intro hnone
    exact absurd hnone hhandler
  · exact forall_mem_log hc.alone trivial
  · have hdelivered : (c.beginWrite length).delivered = c.delivered := by
      simp [delivered, Connection.beginWrite, Action.delivers]
    rw [hdelivered]
    exact hc.account

theorem callOnWrite (hc : c.Exclusive) (hwriting : c.writing = false) (hhandler : c.handler ≠ none)
    (h : H) : (c.callOnWrite hd h).Exclusive := by
  have halone : (Action.onWrite c.socket.writes.length : Action H).Alone := by
    rw [hc.writes_eq_nil hwriting]
    rfl
  have hlog : (c.log (.onWrite c.socket.writes.length)).Exclusive := hc.log halone rfl
  have hset := hlog.setHandler hhandler (hd.onWrite c.writeBuffer h).handler
  exact ⟨hset.reads_le, hset.writes_le, hset.handshakes_le, hset.writing, hset.early, hset.late,
    hset.alone, hset.account⟩

theorem writeData (hc : c.Exclusive) : (c.writeData hd).Exclusive := by
  have heffect := writeData_cases hd c
  generalize c.writeData hd = d at heffect
  cases heffect with
  | skip _ => exact hc
  | failed h hwriting hhandler _ =>
      have hsome : c.handler ≠ none := by simp [hhandler]
      exact (hc.callOnWrite hwriting hsome h).stop _
  | idle h hwriting hhandler _ _ _ =>
      have hsome : c.handler ≠ none := by simp [hhandler]
      exact (hc.callOnWrite hwriting hsome h).setHandler (by simp [Connection.callOnWrite]) _
  | done h hwriting hhandler _ _ _ =>
      have hsome : c.handler ≠ none := by simp [hhandler]
      have hcall : (c.callOnWrite hd h).Exclusive := hc.callOnWrite hwriting hsome h
      exact (hcall.setHandler (by simp [Connection.callOnWrite]) _).stop _
  | begin h hwriting hhandler _ _ =>
      have hsome : c.handler ≠ none := by simp [hhandler]
      have hcalled : (c.callOnWrite hd h).Exclusive := hc.callOnWrite hwriting hsome h
      exact hcalled.beginWrite hwriting (by simp [Connection.callOnWrite]) _

end Exclusive

@[simp] theorem reads_stop_eq_nil (reason : StopReason) :
    (c.stop reason).socket.reads = [] ↔ c.socket.reads = [] := by
  rcases stop_cases c reason with ⟨-, heq⟩ | ⟨-, heq⟩
  · rw [heq]
  · rw [heq]
    simp [Socket.close]

/-- `write_data` starts no read. -/
theorem reads_writeData_eq_nil (hreads : c.socket.reads = []) :
    (c.writeData hd).socket.reads = [] := by
  have heffect := writeData_cases hd c
  generalize c.writeData hd = d at heffect
  cases heffect with
  | skip _ => exact hreads
  | failed h _ _ _ => exact (reads_stop_eq_nil _).mpr hreads
  | idle h _ _ _ _ _ => exact hreads
  | done h _ _ _ _ _ => exact (reads_stop_eq_nil _).mpr hreads
  | begin h _ _ _ _ => exact hreads

/-! ## The handlers -/

namespace Exclusive

/-- In the read handler, its operation gone and its bytes passed on. -/
theorem callOnRead (hc : c.Exclusive) {size n : ℕ}
    (hreads : c.socket.reads = [⟨size, some (.success n)⟩]) {h : H}
    (hhandler : c.handler = some h) : ((c.setReads []).callOnRead hd n h).Exclusive := by
  refine ⟨by simp [Connection.callOnRead, setReads], hc.writes_le, hc.handshakes_le, hc.writing,
    by simp [Connection.callOnRead], ?_, ?_, ?_⟩
  · intro _
    exact hc.late (by simp [hhandler])
  · exact forall_mem_log (forall_mem_log hc.alone trivial) rfl
  · have hundelivered : c.undelivered = c.readBuffer.take n := by
      simp [undelivered, hreads, Operation.delivers]
    have haccount := hc.account
    rw [hundelivered] at haccount
    show _ = c.received
    rw [← haccount]
    simp [delivered, undelivered, Connection.callOnRead, setReads, Action.delivers]

theorem readHandler (hc : c.Exclusive) {size : ℕ} {completion : Completion}
    (hreads : c.socket.reads = [⟨size, some completion⟩]) :
    ((c.setReads []).readHandler hd completion).Exclusive := by
  have hhandler : c.handler ≠ none := hc.handler_ne_none_of_reads (by simp [hreads])
  have heffect := readHandler_cases hd (c.setReads []) completion
  generalize (c.setReads []).readHandler hd completion = d at heffect
  cases heffect with
  | failed =>
      have hc' : (c.setReads []).Exclusive := by
        refine ⟨by simp [setReads], hc.writes_le, hc.handshakes_le, hc.writing, ?_, hc.late,
          hc.alone, ?_⟩
        · intro hnone
          exact ⟨rfl, (hc.early hnone).2⟩
        · have hundelivered : c.undelivered = [] := by
            simp [undelivered, hreads, Operation.delivers]
          have haccount := hc.account
          rw [hundelivered] at haccount
          exact haccount
      have hlog : ((c.setReads []).log (.readCompleted .failure)).Exclusive := hc'.log trivial rfl
      exact hlog.stop _
  | noHandler n hnone => exact absurd hnone hhandler
  | refused n h hh _ => exact (hc.callOnRead hreads hh).stop _
  | writing n h hh _ _ =>
      have hcall : ((c.setReads []).callOnRead hd n h).Exclusive := hc.callOnRead hreads hh
      refine hcall.writeData.readData (reads_writeData_eq_nil rfl) ?_
      exact handler_writeData_ne_none (by simp [Connection.callOnRead])
  | goOn n h h' hh _ _ hh' _ =>
      have hcall : ((c.setReads []).callOnRead hd n h).Exclusive := hc.callOnRead hreads hh
      have hset := (@writeData H U hd _ hcall).setHandler (by simp [hh']) (hd.shouldStop h').2
      exact hset.readData (reads_writeData_eq_nil rfl) (by simp)
  | done n h h' hh _ _ hh' _ =>
      have hcall : ((c.setReads []).callOnRead hd n h).Exclusive := hc.callOnRead hreads hh
      have hset := (@writeData H U hd _ hcall).setHandler (by simp [hh']) (hd.shouldStop h').2
      exact hset.stop _

theorem setWrites_nil (hc : c.Exclusive) : (c.setWrites []).Exclusive where
  reads_le := hc.reads_le
  writes_le := by simp [setWrites]
  handshakes_le := hc.handshakes_le
  writing := by simp [setWrites]
  early := fun hnone => ⟨(hc.early hnone).1, rfl⟩
  late := hc.late
  alone := hc.alone
  account := hc.account

theorem clearWriting (hc : c.Exclusive) (hwrites : c.socket.writes = []) :
    ({ c with writing := false } : Connection H).Exclusive :=
  ⟨hc.reads_le, hc.writes_le, hc.handshakes_le, fun hne => absurd hwrites hne, hc.early, hc.late,
    hc.alone, hc.account⟩

theorem writeHandler (hc : c.Exclusive) (completion : Completion) :
    ((c.setWrites []).writeHandler hd completion).Exclusive := by
  have hlog : ((c.setWrites []).log (.writeCompleted completion)).Exclusive :=
    hc.setWrites_nil.log trivial rfl
  cases completion with
  | failure => exact hlog.stop _
  | success n => exact (hlog.clearWriting rfl).writeData

/-- A connection is started with no operation in flight. -/
theorem start (hc : c.Exclusive) (hhandler : c.handler = none)
    (hhandshakes : c.socket.handshakes = []) : (c.start hd).Exclusive := by
  have hreads : c.socket.reads = [] := (hc.early hhandler).1
  have hlog : (c.log .handlerStart).Exclusive := hc.log trivial rfl
  have hset : ({ c.log .handlerStart with handler := some (hd.start hd.make).2 } :
      Connection H).Exclusive :=
    ⟨hlog.reads_le, hlog.writes_le, hlog.handshakes_le, hlog.writing, by simp,
      fun _ => hhandshakes, hlog.alone, hlog.account⟩
  unfold Connection.start
  dsimp only
  split_ifs with hok
  · exact hset.stop _
  · exact hset.readData hreads (by simp)

theorem setDeadline (hc : c.Exclusive) (deadline : DeadlineTimer) :
    ({ c with deadline := deadline } : Connection H).Exclusive :=
  ⟨hc.reads_le, hc.writes_le, hc.handshakes_le, hc.writing, hc.early, hc.late, hc.alone, hc.account⟩

theorem timeoutHandler (hc : c.Exclusive) : c.timeoutHandler.Exclusive := by
  unfold Connection.timeoutHandler
  split_ifs with hstopped hexpired
  · exact hc
  · exact (hc.stop _).setDeadline _
  · exact (hc.setDeadline _).log trivial rfl

theorem signal (hc : c.Exclusive) (hhandler : c.handler ≠ none) (h : H) :
    (c.signal hd h).Exclusive := by
  have hlog : ({ c with handler := some h } : Connection H).log .signalled |>.Exclusive :=
    (hc.setHandler hhandler h).log trivial rfl
  unfold Connection.signal
  dsimp only
  split_ifs with hsignals
  · exact hlog.writeData
  · exact hlog

end Exclusive

theorem exclusive_init (timeouts : Timeouts) (now : ℤ) :
    ({ timeouts, now } : Connection H).Exclusive := by
  constructor <;> simp [delivered, undelivered]

theorem exclusive_accept (timeouts : Timeouts) (now : ℤ) : (accept hd timeouts now).Exclusive := by
  have htimer : ({ timeouts, now } : Connection H).startReadTimeout.Exclusive :=
    ((exclusive_init timeouts now).setDeadline _).log trivial rfl
  exact htimer.start rfl rfl

theorem exclusive_acceptTls (timeouts : Timeouts) (now : ℤ) :
    (acceptTls timeouts now : Connection H).Exclusive := by
  have htimer : ({ timeouts, now } : Connection H).startHandshakeTimeout.Exclusive :=
    ((exclusive_init timeouts now).setDeadline _).log trivial rfl
  exact ⟨htimer.reads_le, htimer.writes_le, Nat.le_refl 1,
    htimer.writing, htimer.early, fun hne => absurd rfl hne, htimer.alone, htimer.account⟩

/-! ## The steps -/

/-- A completion, or its failure, queues the handler of the operation in flight. -/
theorem Exclusive.setReads (hc : c.Exclusive) {size : ℕ} {completion : Completion}
    (hreads : c.socket.reads = [⟨size, none⟩])
    (hnothing : (⟨size, some completion⟩ : Operation).delivers c.readBuffer = []) :
    (c.setReads [⟨size, some completion⟩]).Exclusive := by
  refine ⟨Nat.le_refl 1, hc.writes_le, hc.handshakes_le, hc.writing, ?_, hc.late, hc.alone, ?_⟩
  · intro hnone
    exact absurd hnone (hc.handler_ne_none_of_reads (by simp [hreads]))
  · have hundelivered : c.undelivered = [] := by simp [undelivered, hreads, Operation.delivers]
    have hundelivered' : (c.setReads [⟨size, some completion⟩]).undelivered = [] := by
      simp [undelivered, Connection.setReads, hnothing]
    rw [hundelivered', ← hundelivered]
    exact hc.account

theorem Exclusive.receive (hc : c.Exclusive) {size : ℕ} {bytes : List UInt8}
    (hreads : c.socket.reads = [⟨size, none⟩]) :
    ((c.receive bytes).setReads [⟨size, some (.success bytes.length)⟩]).Exclusive := by
  refine ⟨Nat.le_refl 1, hc.writes_le, hc.handshakes_le, hc.writing, ?_, hc.late, hc.alone, ?_⟩
  · intro hnone
    exact absurd hnone (hc.handler_ne_none_of_reads (by simp [hreads]))
  · have haccount := hc.account
    have hundelivered : c.undelivered = [] := by simp [undelivered, hreads, Operation.delivers]
    rw [hundelivered, List.append_nil] at haccount
    have hcopy : (copyN bytes 0 c.readBuffer).take bytes.length = bytes := by
      simpa using @take_copyN bytes c.readBuffer 0 (Nat.zero_le _)
    have hdelivers : (⟨size, some (.success bytes.length)⟩ : Operation).delivers
        (copyN bytes 0 c.readBuffer) = bytes := hcopy
    show c.delivered ++ _ = c.received ++ bytes
    simp [undelivered, Connection.setReads, Connection.receive, hdelivers, haccount]

theorem Exclusive.setWrites (hc : c.Exclusive) {size : ℕ} {completion : Completion}
    (hwrites : c.socket.writes = [⟨size, none⟩]) :
    (c.setWrites [⟨size, some completion⟩]).Exclusive := by
  have hwriting : c.writing = true := hc.writing (by simp [hwrites])
  refine ⟨hc.reads_le, Nat.le_refl 1, hc.handshakes_le, fun _ => hwriting, ?_, hc.late, hc.alone,
    hc.account⟩
  intro hnone
  exact absurd hnone (hc.handler_ne_none_of_writes (by simp [hwrites]))

theorem Exclusive.setHandshakes (hc : c.Exclusive) {handshakes : List Operation}
    (hlength : handshakes.length ≤ c.socket.handshakes.length) :
    (c.setHandshakes handshakes).Exclusive := by
  refine ⟨hc.reads_le, hc.writes_le, hlength.trans hc.handshakes_le, hc.writing, hc.early, ?_,
    hc.alone, hc.account⟩
  intro hhandler
  have hlength' : handshakes.length ≤ c.socket.handshakes.length := hlength
  rw [hc.late hhandler] at hlength'
  exact List.length_eq_zero_iff.mp (Nat.le_zero.mp hlength')

theorem Exclusive.handshakeHandler (hc : c.Exclusive) {size : ℕ} {completion : Completion}
    (hhandshakes : c.socket.handshakes = [⟨size, some completion⟩]) (tlsH2Negotiated : Bool) :
    ((c.setHandshakes []).handshakeHandler hd completion tlsH2Negotiated).Exclusive := by
  have hhandler : c.handler = none := by
    by_contra hsome
    have hempty := hc.late hsome
    rw [hhandshakes] at hempty
    cases hempty
  have hset : (c.setHandshakes []).Exclusive := hc.setHandshakes (by simp)
  unfold Connection.handshakeHandler
  cases completion with
  | failure => exact hset.stop _
  | success n =>
      dsimp only
      split_ifs
      · exact hset.stop _
      · exact hset.start hhandler rfl

theorem Exclusive.step_cases (hc : c.Exclusive) {e : Event U} {d : Connection H}
    (hstep : c.step hd e = some d) : StepEffect hd c e d :=
  Connection.step_cases hc.reads_le hc.writes_le hc.handshakes_le hstep

theorem Exclusive.step {d : Connection H} {e : Event U} (hc : c.Exclusive)
    (hstep : c.step hd e = some d) : d.Exclusive := by
  cases hc.step_cases hstep with
  | tick ticks =>
      exact ⟨hc.reads_le, hc.writes_le, hc.handshakes_le, hc.writing, hc.early, hc.late, hc.alone,
        hc.account⟩
  | readReady i bytes size _ hreads => exact hc.receive hreads
  | readFailed i size hreads => exact hc.setReads hreads rfl
  | readHandler i size completion hreads _ => exact hc.readHandler hreads
  | writeReady i bytesSent size _ _ hwrites =>
      have hset : (c.setWrites [⟨size, some (.success bytesSent)⟩]).Exclusive :=
        hc.setWrites hwrites
      exact ⟨hset.reads_le, hset.writes_le, hset.handshakes_le, hset.writing, hset.early,
        hset.late, hset.alone, hset.account⟩
  | writeFailed i size hwrites => exact hc.setWrites hwrites
  | writeHandler i size completion hwrites _ => exact hc.writeHandler completion
  | handshakeReady i size hhandshakes => exact hc.setHandshakes (by simp [hhandshakes])
  | handshakeFailed i size hhandshakes => exact hc.setHandshakes (by simp [hhandshakes])
  | handshakeHandler i size completion tlsH2Negotiated hhandshakes _ =>
      exact hc.handshakeHandler hhandshakes tlsH2Negotiated
  | timerExpired => exact hc.setDeadline _
  | timerHandler deadline => exact (hc.setDeadline deadline).timeoutHandler
  | signal u h hhandler => exact hc.signal (by simp [hhandler]) _
  | stop => exact hc.stop _

/-! ## The write buffer -/

theorem writeBuffer_readHandler (hwriting : c.writing = true) (completion : Completion) :
    (c.readHandler hd completion).writeBuffer = c.writeBuffer := by
  have heffect := readHandler_cases hd c completion
  generalize c.readHandler hd completion = d at heffect
  have hskip : ∀ n h, (c.callOnRead hd n h).writeData hd = c.callOnRead hd n h := fun n h =>
    writeData_of_writing hwriting
  cases heffect with
  | failed => simp
  | noHandler n _ => rfl
  | refused n h _ _ => simp [callOnRead]
  | writing n h _ _ _ => rw [hskip]; rfl
  | goOn n h h' _ _ _ _ _ => rw [hskip]; rfl
  | done n h h' _ _ _ _ _ => rw [hskip]; simp [callShouldStop, callOnRead]

theorem writeBuffer_start (c : Connection H) : (c.start hd).writeBuffer = c.writeBuffer := by
  unfold start
  dsimp only
  split_ifs
  · simp
  · rfl

theorem writeBuffer_handshakeHandler (c : Connection H) (completion : Completion)
    (tlsH2Negotiated : Bool) :
    (c.handshakeHandler hd completion tlsH2Negotiated).writeBuffer = c.writeBuffer := by
  unfold handshakeHandler
  cases completion with
  | failure => simp
  | success n =>
      dsimp only
      split_ifs
      · simp
      · exact writeBuffer_start c

theorem writeBuffer_timeoutHandler (c : Connection H) :
    c.timeoutHandler.writeBuffer = c.writeBuffer := by
  unfold timeoutHandler
  split_ifs
  · rfl
  · simp
  · rfl

theorem writeBuffer_signal (hwriting : c.writing = true) (h : H) :
    (c.signal hd h).writeBuffer = c.writeBuffer := by
  have hskip := @writeData_of_writing H U hd ({ c with handler := some h }.log .signalled) hwriting
  unfold signal
  dsimp only
  split_ifs
  · rw [hskip]
    rfl
  · rfl

/-- While `writing_` is set, only the write handler touches the write buffer. -/
theorem writeBuffer_step {d : Connection H} {e : Event U} (hc : c.Exclusive)
    (hwriting : c.writing = true) (hstep : c.step hd e = some d)
    (hevent : ∀ i, e ≠ .writeHandler i) : d.writeBuffer = c.writeBuffer := by
  cases hc.step_cases hstep with
  | tick ticks => rfl
  | readReady i bytes size _ _ => rfl
  | readFailed i size _ => rfl
  | readHandler i size completion _ _ =>
      have hwriting' : (c.setReads []).writing = true := hwriting
      exact writeBuffer_readHandler hwriting' completion
  | writeReady i bytesSent size _ _ _ => rfl
  | writeFailed i size _ => rfl
  | writeHandler i size completion _ _ => exact absurd rfl (hevent i)
  | handshakeReady i size _ => rfl
  | handshakeFailed i size _ => rfl
  | handshakeHandler i size completion tlsH2Negotiated _ _ =>
      exact writeBuffer_handshakeHandler (c.setHandshakes []) completion tlsH2Negotiated
  | timerExpired => rfl
  | timerHandler deadline => exact writeBuffer_timeoutHandler _
  | signal u h _ => exact writeBuffer_signal hwriting _
  | stop => simp

end Connection

section

variable {H U : Type}

theorem exclusive_invariant (hd : Handler H U) :
    (connection hd).Invariant Connection.Exclusive where
  init := by
    rintro _ ⟨timeouts, now, rfl | rfl⟩
    · exact Connection.exclusive_accept timeouts now
    · exact Connection.exclusive_acceptTls timeouts now
  step _ _ _ hc hstep := hc.step hstep

/-- **Exclusive use of the I/O buffers**, in every state a connection can reach, for
every handler: at most one read and one write are in flight; a write in flight shows in
`writing_`; no call of `on_write` or `on_read` was ever made with an operation in flight
on its buffer, and the write buffer keeps its bytes until the handler of the write runs;
and the bytes passed to `on_read`, with those whose handler is still queued, are the
bytes that the successful reads have delivered. -/
theorem exclusive_buffers (hd : Handler H U) {c : Connection H} (hc : (connection hd).Reachable c) :
    c.socket.reads.length ≤ 1 ∧ c.socket.writes.length ≤ 1 ∧
      (c.socket.writes ≠ [] → c.writing = true) ∧
      (∀ writesInFlight, .onWrite writesInFlight ∈ c.trace → writesInFlight = 0) ∧
      (∀ e d, c.step hd e = some d → c.socket.writes ≠ [] → (∀ i, e ≠ .writeHandler i) →
        d.writeBuffer = c.writeBuffer) ∧
      (∀ readsInFlight bytes, .onRead readsInFlight bytes ∈ c.trace → readsInFlight = 0) ∧
      c.delivered ++ c.undelivered = c.received := by
  have hexclusive : c.Exclusive := (exclusive_invariant hd).reachable hc
  refine ⟨hexclusive.reads_le, hexclusive.writes_le, hexclusive.writing, ?_, ?_, ?_,
    hexclusive.account⟩
  · intro writesInFlight hmem
    exact hexclusive.alone _ hmem
  · intro e d hstep hwrites hevent
    exact Connection.writeBuffer_step hexclusive (hexclusive.writing hwrites) hstep hevent
  · intro readsInFlight bytes hmem
    exact hexclusive.alone _ hmem

/-- The handler of `dummy_server` in the tests. -/
def dummyHandler : Handler Unit Unit where
  make := ()
  start _ := (true, ())
  onRead _ _ := (true, ())
  onWrite buffer _ := ⟨true, 0, buffer, ()⟩
  shouldStop _ := (false, ())
  submit _ _ := ()
  signals _ := true

/-- A handler that sends back what it has read. -/
def returningHandler : Handler (List UInt8) Unit where
  make := []
  start h := (true, h)
  onRead bytes h := (true, h ++ bytes)
  onWrite buffer h := ⟨true, h.length, copyN h 0 buffer, []⟩
  shouldStop h := (false, h)
  submit _ h := h
  signals _ := true

/-- Two bytes are read, and the write of them is in flight when the third is read, a signal
comes, and the handler of the fourth byte is queued. -/
def readsWhileWriting : List (Connection.Event Unit) :=
  [.readReady 0 [1, 2], .readHandler 0, .readReady 0 [3], .readHandler 0, .signal (),
    .readReady 0 [4]]

theorem exclusive_buffers_readsWhileWriting :
    ∃ c : Connection (List UInt8), (connection returningHandler).run
        (Connection.accept returningHandler ⟨⊤, ⊤⟩ 0) readsWhileWriting = some c ∧
      c.socket.reads.length = 1 ∧ c.socket.writes.length = 1 ∧ c.writing = true ∧
      c.writeBuffer = [1, 2] ∧ c.delivered = [1, 2, 3] ∧ c.received = [1, 2, 3, 4] ∧
      c.delivered ++ c.undelivered = c.received := by
  obtain ⟨c, hrun, hreads, hwrites, hbuffer, hdelivered, hreceived⟩ :
      ∃ c : Connection (List UInt8), (connection returningHandler).run
          (Connection.accept returningHandler ⟨⊤, ⊤⟩ 0) readsWhileWriting = some c ∧
        c.socket.reads.length = 1 ∧ c.socket.writes.length = 1 ∧ c.writeBuffer = [1, 2] ∧
        c.delivered = [1, 2, 3] ∧ c.received = [1, 2, 3, 4] :=
    ⟨_, rfl, rfl, rfl, rfl, rfl, rfl⟩
  obtain ⟨-, -, hwriting, -, -, -, haccount⟩ :=
    exclusive_buffers returningHandler ⟨_, _, ⟨_, _, Or.inl rfl⟩, hrun⟩
  have hinFlight : c.writing = true := hwriting (List.ne_nil_of_length_eq_add_one hwrites)
  exact ⟨c, hrun, hreads, hwrites, hinFlight, hbuffer, hdelivered, hreceived, haccount⟩

end

end Http2Asio
