import Http2Asio.Connection.Flow

/-!
# The bytes on the wire

`write_data` gives a buffer to `async_write_some` and, when that completes, goes on with
the next one.  It does not look at `bytes_sent`: after a short write the rest of the
buffer is gone.  As long as no write is short, what was sent, followed by the write in
flight, is what was handed out, so the wire carries a prefix of what nghttp2 has
returned (`wire_prefix`).  `not_wire_prefix_shortWrite` is a run with one short write.

After a stop nothing is sent any more: the socket is closed, and its pending write has
failed.

`Wired` is the invariant of the connection alone: with the write in flight, what was sent is
what was handed out.  A stop breaks it, so only its first half is kept from there (`Closed`).
`Wired.step` says what a step adds to the wire: nothing, unless it is the completion of a
write, and then all of what was in flight.  `OnWire` puts the account of `Flow.lean` beside it,
where what was handed out is a beginning of what nghttp2 has returned.  No assumption about
pending output is needed for this, so the account is used with every predicate for it.
-/

namespace Http2Asio

open Transition

/-- The bytes that a write in flight has not sent. -/
def Operation.unsent (buffer : List UInt8) (op : Operation) : List UInt8 :=
  match op.outcome with
  | some (.success _) => []
  | _ => buffer.take op.size

namespace Connection

section Generic

variable {H U : Type} {hd : Handler H U} {w : List UInt8} {c d : Connection H}

/-- The bytes of the write buffer in flight. -/
def unsent (c : Connection H) : List UInt8 :=
  c.socket.writes.flatMap fun op => op.unsent c.writeBuffer

/-- After a stop no write can succeed any more. -/
structure Closed (w : List UInt8) (c : Connection H) : Prop where
  wire : c.wire = w
  closed : c.stopped = true → c.socket.isOpen = false
  failed : c.stopped = true → ∀ op ∈ c.socket.writes, op.outcome ≠ none

/-- The invariant: `w` is on the wire, and with the write in flight it is what was
handed to `async_write_some`. -/
structure Wired (w : List UInt8) (c : Connection H) : Prop extends Closed w c where
  sent : c.stopped = false → w ++ c.unsent = handed c.trace

/-- The condition on a step: a successful write has sent everything. -/
def FullWrite (c : Connection H) : Event U → Prop
  | .writeReady _ bytesSent => ∀ op ∈ c.socket.writes, bytesSent = op.size
  | _ => True

theorem Closed.of_eq (hc : Closed w c) (hwire : d.wire = c.wire) (hstopped : d.stopped = c.stopped)
    (hopen : d.socket.isOpen = c.socket.isOpen) (hwrites : d.socket.writes = c.socket.writes) :
    Closed w d := by
  refine ⟨?_, ?_, ?_⟩
  · rw [hwire]
    exact hc.wire
  · rw [hstopped, hopen]
    exact hc.closed
  · rw [hstopped, hwrites]
    exact hc.failed

theorem Wired.of_eq (hc : Wired w c) (hwire : d.wire = c.wire) (hstopped : d.stopped = c.stopped)
    (hopen : d.socket.isOpen = c.socket.isOpen) (hwrites : d.socket.writes = c.socket.writes)
    (hbuffer : d.writeBuffer = c.writeBuffer) (hhanded : handed d.trace = handed c.trace) :
    Wired w d := by
  refine ⟨hc.toClosed.of_eq hwire hstopped hopen hwrites, ?_⟩
  unfold unsent
  rw [hstopped, hwrites, hbuffer, hhanded]
  exact hc.sent

theorem handed_log {action : Action H} (haction : action.hands = []) :
    handed (c.log action).trace = handed c.trace := by
  rw [trace_log, handed_append, haction, List.append_nil]

theorem Wired.log (hc : Wired w c) {action : Action H} (haction : action.hands = []) :
    Wired w (c.log action) :=
  hc.of_eq rfl rfl rfl rfl rfl (handed_log haction)

theorem outcome_abort_ne_none (op : Operation) : op.abort.outcome ≠ none := by
  obtain ⟨size, outcome⟩ := op
  cases outcome <;> simp [Operation.abort]

/-- A stop closes the socket, which is all that is asked of a stopped connection. -/
theorem Closed.stop (hc : Closed w c) (reason : StopReason) : Wired w (c.stop reason) := by
  rcases stop_cases c reason with ⟨hstopped, heq⟩ | ⟨-, heq⟩
  · rw [heq]
    refine ⟨hc, ?_⟩
    intro hrun
    rw [hstopped] at hrun
    cases hrun
  · rw [heq]
    refine ⟨⟨hc.wire, fun _ => rfl, ?_⟩, ?_⟩
    · intro _ op hop
      obtain ⟨op', -, rfl⟩ := List.mem_map.mp hop
      exact outcome_abort_ne_none op'
    · intro hrun
      cases hrun

theorem Wired.readData (hc : Wired w c) : Wired w c.readData := by
  have hlog : Wired w (c.log .asyncRead) := hc.log rfl
  exact hlog.of_eq rfl rfl rfl rfl rfl rfl

/-- With no write in flight the buffer is free to change. -/
theorem Wired.callOnWrite (hc : Wired w c) (hwrites : c.socket.writes = []) (h : H) :
    Wired w (c.callOnWrite hd h) := by
  refine ⟨hc.toClosed.of_eq rfl rfl rfl rfl, ?_⟩
  intro hrun
  have hsent := hc.sent hrun
  have hunsent : c.unsent = [] := by simp [unsent, hwrites]
  have hunsent' : (c.callOnWrite hd h).unsent = [] := by
    simp [unsent, Connection.callOnWrite, hwrites]
  have hhanded : handed (c.callOnWrite hd h).trace = handed c.trace := handed_log rfl
  rw [hunsent', hhanded, ← hsent, hunsent]

theorem Wired.beginWrite (hc : Wired w c) (hwrites : c.socket.writes = []) (length : ℕ) :
    Wired w (c.beginWrite length) := by
  refine ⟨⟨hc.wire, hc.closed, ?_⟩, ?_⟩
  · intro hstopped op hop
    have hclosed : c.socket.isOpen = false := hc.closed hstopped
    simp [Connection.beginWrite, Socket.asyncWriteSome, hwrites, hclosed] at hop
    rw [hop]
    simp
  · intro hrun
    have hsent := hc.sent hrun
    have hunsent : c.unsent = [] := by simp [unsent, hwrites]
    have hunsent' : (c.beginWrite length).unsent =
        c.writeBuffer.take (min length writeBufferSize) := by
      simp only [unsent, Connection.beginWrite, Socket.asyncWriteSome, hwrites, Operation.unsent]
      cases c.socket.isOpen <;> simp
    have hhanded : handed (c.beginWrite length).trace =
        handed c.trace ++ c.writeBuffer.take (min length writeBufferSize) :=
      handed_append c.trace (.asyncWrite _)
    rw [hunsent, List.append_nil] at hsent
    rw [hunsent', hhanded, hsent]

theorem Wired.writeData (hc : Wired w c) (hexclusive : c.Exclusive) : Wired w (c.writeData hd) := by
  have heffect := writeData_cases hd c
  generalize c.writeData hd = d at heffect
  cases heffect with
  | skip _ => exact hc
  | failed h hwriting _ _ =>
      have hwrites : c.socket.writes = [] := hexclusive.writes_eq_nil hwriting
      exact (hc.callOnWrite hwrites h).toClosed.stop _
  | idle h hwriting _ _ _ _ =>
      have hwrites : c.socket.writes = [] := hexclusive.writes_eq_nil hwriting
      have hcall : Wired w (c.callOnWrite hd h) := hc.callOnWrite hwrites h
      exact hcall.of_eq rfl rfl rfl rfl rfl rfl
  | done h hwriting _ _ _ _ =>
      have hwrites : c.socket.writes = [] := hexclusive.writes_eq_nil hwriting
      have hcall : Wired w (c.callOnWrite hd h) := hc.callOnWrite hwrites h
      have hasked : Closed w ((c.callOnWrite hd h).callShouldStop hd
          (hd.onWrite c.writeBuffer h).handler) := hcall.toClosed.of_eq rfl rfl rfl rfl
      exact hasked.stop _
  | begin h hwriting _ _ _ =>
      have hwrites : c.socket.writes = [] := hexclusive.writes_eq_nil hwriting
      exact (hc.callOnWrite hwrites h).beginWrite hwrites _

/-! ## The handlers -/

theorem Wired.callOnRead (hc : Wired w c) (n : ℕ) (h : H) : Wired w (c.callOnRead hd n h) := by
  have hpassed : Wired w ((c.log (.readCompleted (.success n))).log
      (.onRead c.socket.reads.length (c.readBuffer.take n))) := (hc.log rfl).log rfl
  exact hpassed.of_eq rfl rfl rfl rfl rfl rfl

theorem Wired.readHandler (hc : Wired w c) (hexclusive : c.Exclusive) {size : ℕ}
    {completion : Completion} (hreads : c.socket.reads = [⟨size, some completion⟩]) :
    Wired w ((c.setReads []).readHandler hd completion) := by
  have hset : Wired w (c.setReads []) := hc.of_eq rfl rfl rfl rfl rfl rfl
  have heffect := readHandler_cases hd (c.setReads []) completion
  generalize (c.setReads []).readHandler hd completion = d at heffect
  have hwrite : ∀ n h, completion = .success n → (c.setReads []).handler = some h →
      Wired w (((c.setReads []).callOnRead hd n h).writeData hd) := by
    rintro n h rfl hhandler
    exact (hset.callOnRead n h).writeData (hexclusive.callOnRead hreads hhandler)
  cases heffect with
  | failed =>
      have hlog : Wired w ((c.setReads []).log (.readCompleted .failure)) := hset.log rfl
      exact hlog.toClosed.stop _
  | noHandler n _ => exact hset.log rfl
  | refused n h _ _ => exact (hset.callOnRead n h).toClosed.stop _
  | writing n h hhandler _ _ => exact (hwrite n h rfl hhandler).readData
  | goOn n h h' hhandler _ _ _ _ =>
      have hasked :
          Wired w ((((c.setReads []).callOnRead hd n h).writeData hd).callShouldStop hd h') :=
        (hwrite n h rfl hhandler).of_eq rfl rfl rfl rfl rfl rfl
      exact hasked.readData
  | done n h h' hhandler _ _ _ _ =>
      have hasked :
          Closed w ((((c.setReads []).callOnRead hd n h).writeData hd).callShouldStop hd h') :=
        (hwrite n h rfl hhandler).toClosed.of_eq rfl rfl rfl rfl
      exact hasked.stop _

theorem Wired.writeHandler (hc : Wired w c) (hexclusive : c.Exclusive) {size : ℕ}
    {completion : Completion} (hwrites : c.socket.writes = [⟨size, some completion⟩]) :
    Wired w ((c.setWrites []).writeHandler hd completion) := by
  have hclosed : Closed w ((c.setWrites []).log (.writeCompleted completion)) :=
    ⟨hc.wire, hc.closed, fun _ op hop => by cases hop⟩
  cases completion with
  | failure => exact hclosed.stop _
  | success n =>
      have hlog : Wired w ((c.setWrites []).log (.writeCompleted (.success n))) := by
        refine ⟨hclosed, ?_⟩
        intro hrun
        have hsent := hc.sent hrun
        have hunsent : c.unsent = [] := by simp [unsent, hwrites, Operation.unsent]
        have hhanded : handed ((c.setWrites []).log (.writeCompleted (.success n))).trace =
            handed c.trace := handed_log rfl
        rw [hhanded, ← hsent, hunsent]
        rfl
      have hclear : Wired w
          { (c.setWrites []).log (.writeCompleted (.success n)) with writing := false } :=
        hlog.of_eq rfl rfl rfl rfl rfl rfl
      have halone : ((c.setWrites []).log (.writeCompleted (.success n))).Exclusive :=
        hexclusive.setWrites_nil.log trivial rfl
      exact hclear.writeData (halone.clearWriting rfl)

theorem Wired.start (hc : Wired w c) : Wired w (c.start hd) := by
  have hlog : Wired w (c.log .handlerStart) := hc.log rfl
  have hset : Wired w { c.log .handlerStart with handler := some (hd.start hd.make).2 } :=
    hlog.of_eq rfl rfl rfl rfl rfl rfl
  unfold Connection.start
  dsimp only
  split_ifs
  · exact hset.toClosed.stop _
  · exact hset.readData

theorem Wired.handshakeHandler (hc : Wired w c) (completion : Completion) (tlsH2Negotiated : Bool) :
    Wired w (c.handshakeHandler hd completion tlsH2Negotiated) := by
  unfold Connection.handshakeHandler
  cases completion with
  | failure => exact hc.toClosed.stop _
  | success n =>
      dsimp only
      split_ifs
      · exact hc.toClosed.stop _
      · exact hc.start

theorem Wired.timeoutHandler (hc : Wired w c) : Wired w c.timeoutHandler := by
  unfold Connection.timeoutHandler
  split_ifs
  · exact hc
  · have hstop : Wired w (c.stop .timeout) := hc.toClosed.stop .timeout
    exact hstop.of_eq rfl rfl rfl rfl rfl rfl
  · have hwait : Wired w { c with deadline := c.deadline.asyncWait } :=
      hc.of_eq rfl rfl rfl rfl rfl rfl
    exact hwait.log rfl

theorem Wired.signal (hc : Wired w c) (hexclusive : c.Exclusive) (hhandler : c.handler ≠ none)
    (h : H) : Wired w (c.signal hd h) := by
  have hset : Wired w { c with handler := some h } := hc.of_eq rfl rfl rfl rfl rfl rfl
  have hlog : Wired w ({ c with handler := some h }.log .signalled) := hset.log rfl
  have halone : ({ c with handler := some h }.log .signalled).Exclusive :=
    (hexclusive.setHandler hhandler h).log trivial rfl
  unfold Connection.signal
  dsimp only
  split_ifs
  · exact hlog.writeData halone
  · exact hlog

/-! ## The steps -/

/-- A full write puts on the wire what was in flight. -/
theorem Wired.send (hc : Wired w c) {size : ℕ} (hwrites : c.socket.writes = [⟨size, none⟩]) :
    c.stopped = false ∧
      Wired (w ++ c.writeBuffer.take size)
        ((c.send size).setWrites [⟨size, some (.success size)⟩]) := by
  have hstopped : c.stopped = false := by
    by_contra hne
    have hall := hc.failed (Bool.eq_true_of_not_eq_false hne)
    rw [hwrites] at hall
    exact hall _ (List.mem_singleton.mpr rfl) rfl
  refine ⟨hstopped, ⟨?_, ?_, ?_⟩, ?_⟩
  · show c.wire ++ _ = _
    rw [hc.wire]
  · exact hc.closed
  · intro hstop
    have hstop' : c.stopped = true := hstop
    rw [hstopped] at hstop'
    cases hstop'
  · intro _
    have hsent := hc.sent hstopped
    have hunsent : c.unsent = c.writeBuffer.take size := by
      simp [unsent, hwrites, Operation.unsent]
    have hunsent' : ((c.send size).setWrites [⟨size, some (.success size)⟩]).unsent = [] := by
      simp [unsent, setWrites, Operation.unsent]
    rw [hunsent] at hsent
    rw [hunsent', List.append_nil]
    exact hsent

theorem Wired.writeFailed (hc : Wired w c) {size : ℕ} (hwrites : c.socket.writes = [⟨size, none⟩]) :
    Wired w (c.setWrites [⟨size, some .failure⟩]) := by
  refine ⟨⟨hc.wire, hc.closed, ?_⟩, ?_⟩
  · intro _ op hop
    rw [List.mem_singleton.mp hop]
    simp
  · intro hrun
    have hsent := hc.sent hrun
    have hunsent : c.unsent = c.writeBuffer.take size := by
      simp [unsent, hwrites, Operation.unsent]
    have hunsent' : (c.setWrites [⟨size, some .failure⟩]).unsent = c.writeBuffer.take size := by
      simp [unsent, setWrites, Operation.unsent]
    rw [hunsent', ← hunsent]
    exact hsent

/-- Only a write completion adds to the wire. -/
theorem Wired.step (hc : Wired w c) (hexclusive : c.Exclusive) {e : Event U}
    (hfull : FullWrite c e) (hstep : c.step hd e = some d) :
    Wired w d ∨
      ∃ size, c.socket.writes = [⟨size, none⟩] ∧ c.stopped = false ∧ d.handler = c.handler ∧
        Wired (w ++ c.writeBuffer.take size) d := by
  cases hexclusive.step_cases hstep with
  | readHandler i size completion hreads _ => exact Or.inl (hc.readHandler hexclusive hreads)
  | writeReady i bytesSent size _ _ hwrites =>
      have hall : bytesSent = size := by
        apply hfull ⟨size, none⟩
        rw [hwrites]
        exact List.mem_singleton.mpr rfl
      subst hall
      obtain ⟨hstopped, hsend⟩ := hc.send hwrites
      exact Or.inr ⟨bytesSent, hwrites, hstopped, rfl, hsend⟩
  | writeFailed i size hwrites => exact Or.inl (hc.writeFailed hwrites)
  | writeHandler i size completion hwrites _ => exact Or.inl (hc.writeHandler hexclusive hwrites)
  | handshakeHandler i size completion tlsH2Negotiated _ _ =>
      have hset : Wired w (c.setHandshakes []) := hc.of_eq rfl rfl rfl rfl rfl rfl
      exact Or.inl (hset.handshakeHandler completion tlsH2Negotiated)
  | timerHandler deadline =>
      have hset : Wired w { c with deadline := deadline } := hc.of_eq rfl rfl rfl rfl rfl rfl
      exact Or.inl hset.timeoutHandler
  | signal u h hhandler => exact Or.inl (hc.signal hexclusive (by simp [hhandler]) _)
  | stop => exact Or.inl (hc.toClosed.stop _)
  | tick _ | readReady _ _ _ _ _ | readFailed _ _ _ | handshakeReady _ _ _
  | handshakeFailed _ _ _ | timerExpired => exact Or.inl (hc.of_eq rfl rfl rfl rfl rfl rfl)

theorem wired_init (timeouts : Timeouts) (now : ℤ) :
    Wired [] ({ timeouts, now } : Connection H) := by
  refine ⟨⟨rfl, ?_, ?_⟩, fun _ => rfl⟩
  · intro hstopped
    cases hstopped
  · intro hstopped
    cases hstopped

theorem wired_accept (timeouts : Timeouts) (now : ℤ) : Wired [] (accept hd timeouts now) := by
  have hstart : Wired [] ({ timeouts, now } : Connection H).startReadTimeout :=
    (wired_init timeouts now).of_eq rfl rfl rfl rfl rfl rfl
  exact hstart.start

theorem wired_acceptTls (timeouts : Timeouts) (now : ℤ) :
    Wired [] (acceptTls timeouts now : Connection H) :=
  (wired_init timeouts now).of_eq rfl rfl rfl rfl rfl rfl

end Generic

section

variable {G : Type} {ng : Nghttp2 G} {g : G} {w : List UInt8} {c d : Connection (Http2Session G)}

/-- The bytes nghttp2 has returned so far. -/
def returned (c : Connection (Http2Session G)) : List UInt8 :=
  match c.handler with
  | none => []
  | some s => s.sends.returned.flatten

/-- What was on the wire at some time is, from then on, a prefix of what was returned. -/
theorem Base.prefix_returned {pending : G → Prop} (hc : Base pending w c) : w <+: c.returned := by
  unfold returned
  cases hhandler : c.handler with
  | none =>
      obtain ⟨-, hw, -⟩ := hc.early hhandler
      exact hw ▸ List.nil_prefix
  | some s => exact (hc.session s hhandler).kept

theorem Settled.of_prefix {pending : G → Prop} {w' : List UInt8} (hc : Settled ng pending w c)
    (hw : w' <+: c.returned) : Settled ng pending w' c := by
  unfold returned at hw
  refine ⟨⟨⟨?_, ?_, hc.orderly⟩, hc.running⟩, hc.idle⟩
  · intro s hs
    rw [hs] at hw
    obtain ⟨hvalid, hfresh, houtside, -⟩ := hc.session s hs
    exact ⟨hvalid, hfresh, houtside, hw⟩
  · intro hnone
    rw [hnone] at hw
    obtain ⟨hhanded, -, hquiet⟩ := hc.early hnone
    exact ⟨hhanded, List.prefix_nil.mp hw, hquiet⟩

/-- While the connection runs, the write in flight continues the wire within what was
returned. -/
theorem Settled.extend {pending : G → Prop} (hc : Settled ng pending w c) (hwired : Wired w c)
    (hstopped : c.stopped = false) : w ++ c.unsent <+: c.returned := by
  rw [hwired.sent hstopped]
  unfold returned
  cases hhandler : c.handler with
  | none =>
      obtain ⟨hhanded, -, -⟩ := hc.early hhandler
      exact hhanded ▸ List.nil_prefix
  | some s =>
      have hconserved := (hc.running hstopped).conserved s hhandler
      dsimp only
      rw [← hconserved]
      exact List.prefix_append _ _

/-- The invariant of the runs without short writes.  The wire is judged against the
session alone, so no account of pending output is needed. -/
def OnWire (ng : Nghttp2 G) (c : Connection (Http2Session G)) : Prop :=
  c.Exclusive ∧ Settled ng (fun _ => False) c.wire c ∧ Wired c.wire c

theorem onWire_conditional (hN : ng.ChunksAtMost writeBufferSize) :
    (connection (http2Handler ng g)).Conditional FullWrite (OnWire ng) where
  init := by
    rintro _ ⟨timeouts, now, rfl | rfl⟩
    · have hwired := @wired_accept _ _ (http2Handler ng g) timeouts now
      have hwire : (accept (http2Handler ng g) timeouts now).wire = [] := hwired.wire
      unfold OnWire
      rw [hwire]
      exact ⟨exclusive_accept timeouts now, settled_accept timeouts now, hwired⟩
    · exact ⟨exclusive_acceptTls timeouts now, settled_acceptTls timeouts now,
        wired_acceptTls timeouts now⟩
  step := by
    rintro c e d ⟨hexclusive, hsettled, hwired⟩ hfull hstep
    have hnothing : ng.ReportsPending fun _ => False := fun _ _ h => h
    have hexclusive' : d.Exclusive := hexclusive.step hstep
    rcases hwired.step hexclusive hfull hstep with hsame | ⟨size, hwrites, hstopped, -, hmore⟩
    · have hsettled' := hsettled.step hexclusive hN hnothing hstep
      have hwire : d.wire = c.wire := hsame.wire
      unfold OnWire
      rw [hwire]
      exact ⟨hexclusive', hsettled', hsame⟩
    · -- the bytes just sent were in flight before the step
      have hunsent : c.unsent = c.writeBuffer.take size := by
        simp [unsent, hwrites, Operation.unsent]
      have hextend := hsettled.extend hwired hstopped
      rw [hunsent] at hextend
      have hsettled' := (hsettled.of_prefix hextend).step hexclusive hN hnothing hstep
      have hwire : d.wire = c.wire ++ c.writeBuffer.take size := hmore.wire
      unfold OnWire
      rw [hwire]
      exact ⟨hexclusive', hsettled', hmore⟩

end

end Connection

section

variable {G : Type} {ng : Nghttp2 G} {g : G} {c d : Connection (Http2Session G)}

/-- **Output byte-stream fidelity without short writes.**  In every run of a connection
in which every successful write sends all the bytes it was given, the bytes on the wire
are a prefix of the chunks that nghttp2 has returned. -/
theorem wire_prefix (hN : ng.ChunksAtMost writeBufferSize)
    {es : List (Connection.Event (G → G))} (hinit : (connection (http2Handler ng g)).init c)
    (hmeets : (connection (http2Handler ng g)).Meets Connection.FullWrite c es)
    (hrun : (connection (http2Handler ng g)).run c es = some d) : d.wire <+: d.returned := by
  have hconditional := @Connection.onWire_conditional G ng g hN
  have honWire : Connection.OnWire ng d :=
    hconditional.run (hconditional.init c hinit) hmeets hrun
  obtain ⟨-, hsettled, -⟩ := honWire
  exact hsettled.toBase.prefix_returned

/-- Three bytes are sent back in full. -/
def fullWrite : List (Connection.Event (List UInt8 → List UInt8)) :=
  [.readReady 0 [1, 2, 3], .readHandler 0, .writeReady 0 3]

theorem wire_prefix_fullWrite :
    ∃ c : Connection (Http2Session (List UInt8)),
      (connection (http2Handler Http2Session.echo [])).run
        (Connection.accept (http2Handler Http2Session.echo []) ⟨⊤, ⊤⟩ 0) fullWrite = some c ∧
      c.wire = [1, 2, 3] ∧ c.wire <+: c.returned := by
  obtain ⟨c, hrun, hwire⟩ :
      ∃ c, (connection (http2Handler Http2Session.echo [])).run
          (Connection.accept (http2Handler Http2Session.echo []) ⟨⊤, ⊤⟩ 0) fullWrite = some c ∧
        c.wire = [1, 2, 3] := ⟨_, rfl, rfl⟩
  refine ⟨c, hrun, hwire, ?_⟩
  refine wire_prefix (Http2Session.echo_chunksAtMost (by decide)) ⟨_, _, Or.inl rfl⟩ ?_ hrun
  refine (System.meets_cons rfl).mpr ⟨trivial, ?_⟩
  refine (System.meets_cons rfl).mpr ⟨trivial, ?_⟩
  refine (System.meets_cons rfl).mpr ⟨?_, trivial⟩
  intro op hop
  rw [List.mem_singleton.mp hop]
  rfl

/-- The same three bytes, and two more that arrive before the first write completes,
with only one byte sent. -/
def shortWrite : List (Connection.Event (List UInt8 → List UInt8)) :=
  [.readReady 0 [1, 2, 3], .readHandler 0, .readReady 0 [4, 5], .readHandler 0, .writeReady 0 1,
    .writeHandler 0, .writeReady 0 2]

/-- The second write starts where the first buffer ended, and two bytes are lost. -/
theorem not_wire_prefix_shortWrite :
    ¬ ∀ (ng : Nghttp2 (List UInt8)) (g : List UInt8) (c : Connection (Http2Session (List UInt8))),
      ng.ChunksAtMost writeBufferSize → (connection (http2Handler ng g)).Reachable c →
        c.wire <+: c.returned := by
  intro hprefix
  have hN : Http2Session.echo.ChunksAtMost writeBufferSize :=
    Http2Session.echo_chunksAtMost (by decide)
  obtain ⟨c, hrun, hwire, hreturned⟩ :
      ∃ c, (connection (http2Handler Http2Session.echo [])).run
          (Connection.accept (http2Handler Http2Session.echo []) ⟨⊤, ⊤⟩ 0) shortWrite = some c ∧
        c.wire = [1, 4, 5] ∧ c.returned = [1, 2, 3, 4, 5] := ⟨_, rfl, rfl, rfl⟩
  have hclaim := hprefix Http2Session.echo [] c hN ⟨_, _, ⟨_, _, Or.inl rfl⟩, hrun⟩
  rw [hwire, hreturned] at hclaim
  revert hclaim
  decide

end

end Http2Asio
