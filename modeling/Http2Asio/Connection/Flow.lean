import Http2Asio.Transition.History
import Http2Asio.Session.Framing
import Http2Asio.Connection.Exclusive

/-!
# The output of a connection over an `http2_session`

The bytes of nghttp2 cross two buffers, the stash of the session and the write buffer
of the connection.  `Flow` is the invariant of a connection for what crosses them.  As
long as the connection runs, the bytes handed to `async_write_some`, followed by the
stash, are the bytes nghttp2 has returned; `writing_` says whether a write is in flight;
and no write has failed.  It holds between the calls inside a handler as well, except
between `on_write` and the `async_write_some` that takes its bytes.

A handler that calls `write_data` leaves a connection `Idle`: if it is not writing then
nothing is stashed and nghttp2 has reported that nothing is pending.  This is what makes
up for a swallowed wake-up (`Settled.writes_ne_nil`), and what makes `should_stop` safe
to obey: such a stop discards no output (`orderly_stop`).
-/

namespace Http2Asio

open Transition

section Actions

variable {H : Type}

/-- The bytes an action hands to `async_write_some`. -/
def Action.hands : Action H → List UInt8
  | .asyncWrite bytes => bytes
  | _ => []

/-- The start of a write. -/
def Action.beginsWrite : Action H → Bool
  | .asyncWrite _ => true
  | _ => false

/-- The successful end of a write. -/
def Action.endsWrite : Action H → Bool
  | .writeCompleted (.success _) => true
  | _ => false

/-- A read completion or a write signal is handled. -/
def Action.Engages : Action H → Prop
  | .readCompleted _ => True
  | .signalled => True
  | _ => False

/-- An action that is neither about a write nor a stop. -/
def Action.Neutral : Action H → Prop
  | .asyncWrite _ => False
  | .writeCompleted _ => False
  | .stop _ _ _ => False
  | _ => True

/-- The bytes handed to `async_write_some`. -/
def handed (trace : List (Action H)) : List UInt8 :=
  trace.flatMap Action.hands

/-- `inFlight` writes have begun and not ended, and the others have ended well. -/
def WritesSucceed (trace : List (Action H)) (inFlight : ℕ) : Prop :=
  trace.countP Action.beginsWrite = trace.countP Action.endsWrite + inFlight ∧
    ∀ action ∈ trace, action ≠ .writeCompleted .failure

theorem handed_append (trace : List (Action H)) (action : Action H) :
    handed (trace ++ [action]) = handed trace ++ action.hands := by
  simp [handed]

theorem Action.Neutral.hands_eq {action : Action H} (h : action.Neutral) : action.hands = [] := by
  cases action <;> first | exact h.elim | rfl

theorem Action.Neutral.not_write {action : Action H} (h : action.Neutral) :
    action.beginsWrite = false ∧ action.endsWrite = false := by
  cases action <;> first | exact h.elim | exact ⟨rfl, rfl⟩

theorem WritesSucceed.append {trace : List (Action H)} {inFlight : ℕ}
    (htrace : WritesSucceed trace inFlight) {action : Action H} (h : action.Neutral) :
    WritesSucceed (trace ++ [action]) inFlight := by
  obtain ⟨hcount, hsucceed⟩ := htrace
  obtain ⟨hbegins, hends⟩ := h.not_write
  refine ⟨?_, ?_⟩
  · simp [List.countP_append, hcount, hbegins, hends]
  · intro a ha
    rcases List.mem_append.mp ha with ha | ha
    · exact hsucceed a ha
    · rw [List.mem_singleton.mp ha]
      rintro rfl
      exact h

theorem WritesSucceed.begin {trace : List (Action H)} (htrace : WritesSucceed trace 0)
    (bytes : List UInt8) : WritesSucceed (trace ++ [.asyncWrite bytes]) 1 := by
  obtain ⟨hcount, hsucceed⟩ := htrace
  refine ⟨?_, ?_⟩
  · simp [List.countP_append, hcount, Action.beginsWrite, Action.endsWrite]
  · intro a ha
    rcases List.mem_append.mp ha with ha | ha
    · exact hsucceed a ha
    · rw [List.mem_singleton.mp ha]
      simp

theorem WritesSucceed.end {trace : List (Action H)} (htrace : WritesSucceed trace 1) (n : ℕ) :
    WritesSucceed (trace ++ [.writeCompleted (.success n)]) 0 := by
  obtain ⟨hcount, hsucceed⟩ := htrace
  refine ⟨?_, ?_⟩
  · simp [List.countP_append, hcount, Action.beginsWrite, Action.endsWrite]
  · intro a ha
    rcases List.mem_append.mp ha with ha | ha
    · exact hsucceed a ha
    · rw [List.mem_singleton.mp ha]
      simp

end Actions

variable {G : Type} {ng : Nghttp2 G} {g : G} {pending : G → Prop} {w : List UInt8}

/-! ## The session between the steps -/

/-- What holds of the session between its calls; `w` has been returned before. -/
structure Http2Session.Sound (w : List UInt8) (s : Http2Session G) : Prop where
  stashValid : s.StashValid writeBufferSize
  freshReads : s.FreshReads
  outside : s.callbackInside = false
  kept : w <+: s.sends.returned.flatten

namespace Http2Session.Sound

variable {s : Http2Session G}

theorem onRead (hs : s.Sound w) (bytes : List UInt8) : (s.onRead ng bytes).2.Sound w where
  stashValid := stashValid_onRead hs.stashValid bytes
  freshReads := freshReads_onRead hs.freshReads bytes
  outside := rfl
  kept := by
    rw [sends_onRead]
    exact hs.kept

theorem packed (hs : s.Sound w) (hN : ng.ChunksAtMost writeBufferSize) (buffer : List UInt8) :
    Packed ng writeBufferSize s (s.stash ng) (s.onWrite ng writeBufferSize buffer) :=
  onWrite_packed hN hs.stashValid hs.freshReads buffer

theorem onWrite (hs : s.Sound w) (hN : ng.ChunksAtMost writeBufferSize) (buffer : List UInt8) :
    (s.onWrite ng writeBufferSize buffer).handler.Sound w := by
  have hpacked := hs.packed hN buffer
  obtain ⟨taken, hreturned, -⟩ := hpacked.conserved
  refine ⟨hpacked.stashValid, hpacked.freshReads, rfl, ?_⟩
  rw [hreturned, List.flatten_append]
  exact hs.kept.trans (List.prefix_append _ _)

theorem submit (hs : s.Sound w) (u : G → G) : Sound w { s with session := u s.session } :=
  ⟨hs.stashValid, hs.freshReads, hs.outside, hs.kept⟩

theorem start (g : G) : ((make g).start ng).2.Sound [] := by
  refine ⟨stashValid_start g, freshReads_start g, ?_, List.nil_prefix⟩
  unfold Http2Session.start
  dsimp only
  split_ifs
  · rfl
  · rfl
  · rfl

end Http2Session.Sound

namespace Connection

variable {c d : Connection (Http2Session G)}

/-! ## The invariant -/

/-- A stop for `should_stop` finds everything sent: no write in flight, no stash,
nothing pending, and all that was returned handed to writes that have ended well. -/
def Orderly (pending : G → Prop) (earlier : List (Action (Http2Session G))) :
    Action (Http2Session G) → Prop
  | .stop reason writesInFlight handler => reason.IsShouldStop →
      writesInFlight = 0 ∧ ∃ s, handler = some s ∧ s.outputData = none ∧ ¬ pending s.session ∧
        handed earlier = s.sends.returned.flatten ∧ WritesSucceed earlier 0
  | _ => True

/-- The part of the invariant that outlives a stop. -/
structure Base (pending : G → Prop) (w : List UInt8) (c : Connection (Http2Session G)) : Prop where
  session : ∀ s, c.handler = some s → s.Sound w
  early : c.handler = none → handed c.trace = [] ∧ w = [] ∧ ∀ action ∈ c.trace, ¬ action.Engages
  orderly : Historically (Orderly pending) c.trace

/-- The part that holds while the connection runs. -/
structure Running (ng : Nghttp2 G) (c : Connection (Http2Session G)) : Prop where
  conserved : ∀ s, c.handler = some s →
    handed c.trace ++ s.stash ng = s.sends.returned.flatten
  inFlight : c.writing = true → c.socket.writes.length = 1
  succeed : WritesSucceed c.trace c.socket.writes.length

/-- The invariant. -/
structure Flow (ng : Nghttp2 G) (pending : G → Prop) (w : List UInt8)
    (c : Connection (Http2Session G)) : Prop extends Base pending w c where
  running : c.stopped = false → Running ng c

/-- A running connection that is not writing has nothing left to write. -/
def Idle (pending : G → Prop) (c : Connection (Http2Session G)) : Prop :=
  c.stopped = false → c.writing = false →
    ∀ s, c.handler = some s → s.outputData = none ∧ ¬ pending s.session

/-- A read completion or a write signal has been handled. -/
def Engaged (c : Connection (Http2Session G)) : Prop :=
  ∃ action ∈ c.trace, action.Engages

theorem Flow.of_eq (hc : Flow ng pending w c) (hhandler : d.handler = c.handler)
    (htrace : d.trace = c.trace) (hstopped : d.stopped = c.stopped)
    (hwriting : d.writing = c.writing)
    (hwrites : d.socket.writes.length = c.socket.writes.length) : Flow ng pending w d := by
  refine ⟨⟨?_, ?_, ?_⟩, ?_⟩
  · rw [hhandler]
    exact hc.session
  · rw [hhandler, htrace]
    exact hc.early
  · rw [htrace]
    exact hc.orderly
  · rw [hstopped]
    intro hrun
    obtain ⟨hconserved, hinFlight, hsucceed⟩ := hc.running hrun
    refine ⟨?_, ?_, ?_⟩
    · rw [hhandler, htrace]
      exact hconserved
    · rw [hwriting, hwrites]
      exact hinFlight
    · rw [htrace, hwrites]
      exact hsucceed

theorem Base.log (hc : Base pending w c) {action : Action (Http2Session G)}
    (hhands : action.hands = []) (hengages : c.handler = none → ¬ action.Engages)
    (horderly : Orderly pending c.trace action) : Base pending w (c.log action) := by
  refine ⟨hc.session, ?_, ?_⟩
  · intro hnone
    obtain ⟨hhanded, hw, hquiet⟩ := hc.early hnone
    refine ⟨?_, hw, forall_mem_log hquiet (hengages hnone)⟩
    rw [trace_log, handed_append, hhanded, hhands]
    rfl
  · exact historically_append_singleton.mpr ⟨hc.orderly, horderly⟩

theorem orderly_of_neutral {action : Action (Http2Session G)} (hneutral : action.Neutral)
    (earlier : List (Action (Http2Session G))) : Orderly pending earlier action := by
  cases action <;> first | exact hneutral.elim | exact trivial

theorem Flow.log (hc : Flow ng pending w c) {action : Action (Http2Session G)}
    (hneutral : action.Neutral) (hengages : c.handler = none → ¬ action.Engages) :
    Flow ng pending w (c.log action) := by
  refine ⟨hc.toBase.log hneutral.hands_eq hengages (orderly_of_neutral hneutral _), ?_⟩
  intro hrun
  obtain ⟨hconserved, hinFlight, hsucceed⟩ := hc.running hrun
  refine ⟨?_, hinFlight, hsucceed.append hneutral⟩
  rw [trace_log, handed_append, hneutral.hands_eq, List.append_nil]
  exact hconserved

theorem Base.setHandler (hc : Base pending w c) {s : Http2Session G} (hs : s.Sound w) :
    Base pending w { c with handler := some s } := by
  refine ⟨?_, ?_, hc.orderly⟩
  · intro s' hs'
    cases hs'
    exact hs
  · intro hnone
    cases hnone

/-- A stop ends the running part; one for `should_stop` has to be orderly. -/
theorem Base.stop (hc : Base pending w c) {reason : StopReason}
    (horderly : c.stopped = false →
      Orderly pending c.trace (.stop reason c.socket.writes.length c.handler)) :
    Flow ng pending w (c.stop reason) := by
  rcases stop_cases c reason with ⟨hstopped, heq⟩ | ⟨hstopped, heq⟩
  · rw [heq]
    refine ⟨hc, ?_⟩
    intro hrun
    rw [hstopped] at hrun
    cases hrun
  · rw [heq]
    refine ⟨⟨hc.session, ?_, ?_⟩, ?_⟩
    · intro hnone
      obtain ⟨hhanded, hw, hquiet⟩ := hc.early hnone
      refine ⟨?_, hw, forall_mem_log hquiet id⟩
      show handed (c.trace ++ _) = []
      rw [handed_append, hhanded]
      rfl
    · exact historically_append_singleton.mpr ⟨hc.orderly, horderly hstopped⟩
    · intro hrun
      cases hrun

theorem orderly_of_not_shouldStop {earlier : List (Action (Http2Session G))} {reason : StopReason}
    (hreason : ¬ reason.IsShouldStop) (n : ℕ) (handler : Option (Http2Session G)) :
    Orderly pending earlier (.stop reason n handler) :=
  fun hshould => absurd hshould hreason

theorem Flow.stop (hc : Flow ng pending w c) {reason : StopReason}
    (hreason : ¬ reason.IsShouldStop) : Flow ng pending w (c.stop reason) :=
  hc.toBase.stop fun _ => orderly_of_not_shouldStop hreason _ _

/-- The stop for `should_stop` on a connection with nothing left to write. -/
theorem Flow.stop_shouldStop (hc : Flow ng pending w c) (hexclusive : c.Exclusive)
    (hidle : Idle pending c) (hwriting : c.writing = false) (hhandler : c.handler ≠ none)
    (reason : StopReason) : Flow ng pending w (c.stop reason) := by
  refine hc.toBase.stop ?_
  intro hstopped _
  obtain ⟨s, hs⟩ := Option.ne_none_iff_exists'.mp hhandler
  obtain ⟨hdata, hnothing⟩ := hidle hstopped hwriting s hs
  have hrunning : Running ng c := hc.running hstopped
  have hwrites : c.socket.writes.length = 0 := by rw [hexclusive.writes_eq_nil hwriting]; rfl
  refine ⟨hwrites, s, hs, hdata, hnothing, ?_, ?_⟩
  · have hconserved := hrunning.conserved s hs
    rwa [Http2Session.stash_of_none hdata, List.append_nil] at hconserved
  · have hsucceed := hrunning.succeed
    rwa [hwrites] at hsucceed

/-! ## `write_data` -/

section WriteData

variable {s : Http2Session G}

theorem callShouldStop_eq (hhandler : c.handler = some s) :
    c.callShouldStop (http2Handler ng g) s = c := by
  show { c with handler := some s } = c
  rw [← hhandler]

theorem Base.callOnWrite (hc : Base pending w c) (hN : ng.ChunksAtMost writeBufferSize)
    (hhandler : c.handler = some s) : Base pending w (c.callOnWrite (http2Handler ng g) s) := by
  have hlog : Base pending w (c.log (.onWrite c.socket.writes.length)) :=
    hc.log rfl (fun _ => id) trivial
  have hset := hlog.setHandler ((hc.session s hhandler).onWrite hN c.writeBuffer)
  exact ⟨hset.session, hset.early, hset.orderly⟩

/-- An `on_write` that leaves nothing to write only moves the stash. -/
theorem Flow.callOnWrite (hc : Flow ng pending w c) (hN : ng.ChunksAtMost writeBufferSize)
    (hhandler : c.handler = some s)
    (hlength : (s.onWrite ng writeBufferSize c.writeBuffer).length = 0) :
    Flow ng pending w (c.callOnWrite (http2Handler ng g) s) := by
  refine ⟨hc.toBase.callOnWrite hN hhandler, ?_⟩
  intro hrun
  obtain ⟨hconserved, hinFlight, hsucceed⟩ := hc.running hrun
  refine ⟨?_, hinFlight, hsucceed.append trivial⟩
  intro s' hs'
  cases hs'
  obtain ⟨taken, hreturned, hheld⟩ :=
    ((hc.session s hhandler).packed hN c.writeBuffer).conserved
  rw [hlength, List.take_zero, List.nil_append] at hheld
  have hhanded : handed (c.callOnWrite (http2Handler ng g) s).trace = handed c.trace := by
    show handed (c.trace ++ [.onWrite c.socket.writes.length]) = handed c.trace
    rw [handed_append]
    exact List.append_nil _
  calc handed (c.callOnWrite (http2Handler ng g) s).trace ++
        (s.onWrite ng writeBufferSize c.writeBuffer).handler.stash ng
      = handed c.trace ++ (s.stash ng ++ taken.flatten) := by rw [hhanded, hheld]
    _ = s.sends.returned.flatten ++ taken.flatten := by
        rw [← List.append_assoc, hconserved s hhandler]
    _ = (s.onWrite ng writeBufferSize c.writeBuffer).handler.sends.returned.flatten := by
        rw [hreturned, List.flatten_append]

/-- After such an `on_write` nothing is left. -/
theorem idle_callOnWrite (hc : Flow ng pending w c) (hN : ng.ChunksAtMost writeBufferSize)
    (hpending : ng.ReportsPending pending) (hhandler : c.handler = some s)
    (hok : (s.onWrite ng writeBufferSize c.writeBuffer).ok = true)
    (hlength : (s.onWrite ng writeBufferSize c.writeBuffer).length = 0) :
    Idle pending (c.callOnWrite (http2Handler ng g) s) := by
  intro _ _ s' hs'
  cases hs'
  have hpacked := (hc.session s hhandler).packed hN c.writeBuffer
  have hdata := hpacked.idle hok hlength
  refine ⟨hdata, ?_⟩
  obtain ⟨g', hzero, hsession⟩ := hpacked.dry hok hdata
  have hnothing := hpending g' hzero
  rw [← hsession] at hnothing
  exact hnothing

/-- The bytes of `on_write` go to `async_write_some`. -/
theorem Flow.beginWrite (hc : Flow ng pending w c) (hexclusive : c.Exclusive)
    (hN : ng.ChunksAtMost writeBufferSize) (hhandler : c.handler = some s)
    (hwriting : c.writing = false) :
    Flow ng pending w ((c.callOnWrite (http2Handler ng g) s).beginWrite
      (s.onWrite ng writeBufferSize c.writeBuffer).length) := by
  have hpacked := (hc.session s hhandler).packed hN c.writeBuffer
  have hcall : Base pending w (c.callOnWrite (http2Handler ng g) s) :=
    hc.toBase.callOnWrite hN hhandler
  have hwrites : c.socket.writes = [] := hexclusive.writes_eq_nil hwriting
  refine ⟨⟨hcall.session, ?_, ?_⟩, ?_⟩
  · intro hnone
    cases hnone
  · exact historically_append_singleton.mpr ⟨hcall.orderly, trivial⟩
  · intro hrun
    obtain ⟨hconserved, -, hsucceed⟩ := hc.running hrun
    refine ⟨?_, ?_, ?_⟩
    · intro s' hs'
      cases hs'
      obtain ⟨taken, hreturned, hheld⟩ := hpacked.conserved
      have hsize : min (s.onWrite ng writeBufferSize c.writeBuffer).length writeBufferSize =
          (s.onWrite ng writeBufferSize c.writeBuffer).length := min_eq_left hpacked.length_le
      -- what was handed out grows by what the call has written to the buffer
      show handed ((c.trace ++ [.onWrite _]) ++ [.asyncWrite _]) ++
          (s.onWrite ng writeBufferSize c.writeBuffer).handler.stash ng =
        (s.onWrite ng writeBufferSize c.writeBuffer).handler.sends.returned.flatten
      rw [handed_append, handed_append, hsize, hreturned, List.flatten_append,
        ← hconserved s hhandler]
      simp only [Action.hands, List.append_nil, List.append_assoc]
      exact congrArg (handed c.trace ++ ·) hheld.symm
    · intro _
      simp [Connection.beginWrite, Connection.callOnWrite, Socket.asyncWriteSome, hwrites]
    · have hbefore : WritesSucceed (c.trace ++ [.onWrite c.socket.writes.length]) 0 := by
        rw [hwrites] at hsucceed ⊢
        exact hsucceed.append trivial
      have hlength : (c.socket.asyncWriteSome (min
          (s.onWrite ng writeBufferSize c.writeBuffer).length writeBufferSize)).writes.length = 1
        := by simp [Socket.asyncWriteSome, hwrites]
      show WritesSucceed _ (c.socket.asyncWriteSome _).writes.length
      rw [hlength]
      exact hbefore.begin _

theorem not_isShouldStop_onWrite : ¬ StopReason.onWrite.IsShouldStop := by
  rintro (h | h) <;> cases h

theorem Flow.writeData (hc : Flow ng pending w c) (hexclusive : c.Exclusive)
    (hN : ng.ChunksAtMost writeBufferSize) (hpending : ng.ReportsPending pending) :
    Flow ng pending w (c.writeData (http2Handler ng g)) ∧
      Idle pending (c.writeData (http2Handler ng g)) := by
  have heffect := writeData_cases (http2Handler ng g) c
  have hexclusive' : (c.writeData (http2Handler ng g)).Exclusive := hexclusive.writeData
  generalize c.writeData (http2Handler ng g) = d at heffect hexclusive'
  cases heffect with
  | skip hskip =>
      refine ⟨hc, ?_⟩
      intro _ hidle s hs
      rcases hskip with hwriting | hnone
      · rw [hidle] at hwriting
        cases hwriting
      · rw [hs] at hnone
        cases hnone
  -- a stop without `should_stop`, of which `Orderly` says nothing
  | failed s hwriting hhandler hok =>
      have hcall : Base pending w (c.callOnWrite (http2Handler ng g) s) :=
        hc.toBase.callOnWrite hN hhandler
      refine ⟨hcall.stop fun _ => orderly_of_not_shouldStop not_isShouldStop_onWrite _ _, ?_⟩
      intro hrun
      simp at hrun
  | idle s hwriting hhandler hok hlength hanswer =>
      have hcall : Flow ng pending w (c.callOnWrite (http2Handler ng g) s) :=
        hc.callOnWrite hN hhandler hlength
      have hidle : Idle pending (c.callOnWrite (http2Handler ng g) s) :=
        idle_callOnWrite hc hN hpending hhandler hok hlength
      exact ⟨hcall, hidle⟩
  -- the stop is orderly because this `on_write` has just found nothing to send
  | done s hwriting hhandler hok hlength hanswer =>
      have hcall : Flow ng pending w (c.callOnWrite (http2Handler ng g) s) :=
        hc.callOnWrite hN hhandler hlength
      have hidle : Idle pending (c.callOnWrite (http2Handler ng g) s) :=
        idle_callOnWrite hc hN hpending hhandler hok hlength
      have halone : (c.callOnWrite (http2Handler ng g) s).Exclusive :=
        hexclusive.callOnWrite hwriting (by simp [hhandler]) s
      refine ⟨?_, ?_⟩
      · exact hcall.stop_shouldStop halone hidle hwriting (by simp [Connection.callOnWrite]) _
      · intro hrun
        simp at hrun
  | begin s hwriting hhandler hok hlength =>
      refine ⟨hc.beginWrite hexclusive hN hhandler hwriting, ?_⟩
      intro _ hidle
      cases hidle

end WriteData

/-! ## The handlers -/

section Handlers

variable {s : Http2Session G}

theorem Flow.readData (hc : Flow ng pending w c) : Flow ng pending w c.readData := by
  have hlog : Flow ng pending w (c.log .asyncRead) := hc.log trivial fun _ => id
  exact hlog.of_eq rfl rfl rfl rfl rfl

/-- A session that keeps the stash and the chunks returned takes the place of another. -/
theorem Flow.setHandler (hc : Flow ng pending w c) (hhandler : c.handler = some s)
    {s' : Http2Session G} (hs : s'.Sound w) (hstash : s'.stash ng = s.stash ng)
    (hsends : s'.sends = s.sends) : Flow ng pending w { c with handler := some s' } := by
  refine ⟨hc.toBase.setHandler hs, ?_⟩
  intro hrun
  obtain ⟨hconserved, hinFlight, hsucceed⟩ := hc.running hrun
  refine ⟨?_, hinFlight, hsucceed⟩
  intro s'' hs''
  cases hs''
  rw [hstash, hsends]
  exact hconserved s hhandler

theorem Flow.callOnRead (hc : Flow ng pending w c) (hhandler : c.handler = some s) (n : ℕ) :
    Flow ng pending w (c.callOnRead (http2Handler ng g) n s) := by
  have hsome : ∀ action : Action (Http2Session G), c.handler = none → ¬ action.Engages := by
    intro action hnone
    rw [hhandler] at hnone
    cases hnone
  have hcompleted : Flow ng pending w (c.log (.readCompleted (.success n))) :=
    hc.log trivial (hsome _)
  have hpassed : Flow ng pending w ((c.log (.readCompleted (.success n))).log
      (.onRead c.socket.reads.length (c.readBuffer.take n))) := hcompleted.log trivial (hsome _)
  exact hpassed.setHandler hhandler ((hc.session s hhandler).onRead _)
    (Http2Session.stash_onRead _) (Http2Session.sends_onRead _)

theorem idle_stop (reason : StopReason) : Idle pending (c.stop reason) := by
  intro hrun
  simp at hrun

theorem Flow.readHandler (hc : Flow ng pending w c) (hexclusive : c.Exclusive)
    (hN : ng.ChunksAtMost writeBufferSize) (hpending : ng.ReportsPending pending)
    {size : ℕ} {completion : Completion} (hreads : c.socket.reads = [⟨size, some completion⟩]) :
    Flow ng pending w ((c.setReads []).readHandler (http2Handler ng g) completion) ∧
      Idle pending ((c.setReads []).readHandler (http2Handler ng g) completion) := by
  have hset : Flow ng pending w (c.setReads []) := hc.of_eq rfl rfl rfl rfl rfl
  have hhandler : c.handler ≠ none := hexclusive.handler_ne_none_of_reads (by simp [hreads])
  have heffect := readHandler_cases (http2Handler ng g) (c.setReads []) completion
  generalize (c.setReads []).readHandler (http2Handler ng g) completion = d at heffect
  cases heffect with
  | failed =>
      have hlog : Flow ng pending w ((c.setReads []).log (.readCompleted .failure)) :=
        hset.log trivial fun hnone => absurd hnone hhandler
      exact ⟨hlog.stop (by simp [StopReason.IsShouldStop]), idle_stop _⟩
  | noHandler n hnone => exact absurd hnone hhandler
  | refused n s hs hok =>
      have hread : Flow ng pending w ((c.setReads []).callOnRead (http2Handler ng g) n s) :=
        hset.callOnRead hs n
      exact ⟨hread.stop (by simp [StopReason.IsShouldStop]), idle_stop _⟩
  | writing n s hs hok hwriting =>
      have hread : Flow ng pending w ((c.setReads []).callOnRead (http2Handler ng g) n s) :=
        hset.callOnRead hs n
      obtain ⟨hwrite, hidle⟩ :=
        @Flow.writeData G ng g pending w _ hread (hexclusive.callOnRead hreads hs) hN hpending
      exact ⟨hwrite.readData, hidle⟩
  | goOn n s s' hs hok hwriting hs' hanswer =>
      have hread : Flow ng pending w ((c.setReads []).callOnRead (http2Handler ng g) n s) :=
        hset.callOnRead hs n
      obtain ⟨hwrite, hidle⟩ :=
        @Flow.writeData G ng g pending w _ hread (hexclusive.callOnRead hreads hs) hN hpending
      rw [callShouldStop_eq hs']
      exact ⟨hwrite.readData, hidle⟩
  -- nothing is in flight after `write_data`, so it has found nothing to send
  | done n s s' hs hok hwriting hs' hanswer =>
      have hread : Flow ng pending w ((c.setReads []).callOnRead (http2Handler ng g) n s) :=
        hset.callOnRead hs n
      have halone : ((c.setReads []).callOnRead (http2Handler ng g) n s).Exclusive :=
        hexclusive.callOnRead hreads hs
      obtain ⟨hwrite, hidle⟩ := @Flow.writeData G ng g pending w _ hread halone hN hpending
      rw [callShouldStop_eq hs']
      refine ⟨?_, idle_stop _⟩
      exact hwrite.stop_shouldStop halone.writeData hidle hwriting (by simp [hs']) _

theorem Flow.writeHandler (hc : Flow ng pending w c) (hexclusive : c.Exclusive)
    (hN : ng.ChunksAtMost writeBufferSize) (hpending : ng.ReportsPending pending)
    {size : ℕ} {completion : Completion} (hwrites : c.socket.writes = [⟨size, some completion⟩]) :
    Flow ng pending w ((c.setWrites []).writeHandler (http2Handler ng g) completion) ∧
      Idle pending ((c.setWrites []).writeHandler (http2Handler ng g) completion) := by
  have hbase : Base pending w (c.setWrites []) := ⟨hc.session, hc.early, hc.orderly⟩
  have hlog : Base pending w ((c.setWrites []).log (.writeCompleted completion)) :=
    hbase.log rfl (fun _ => id) trivial
  cases completion with
  | failure =>
      refine ⟨hlog.stop fun _ => orderly_of_not_shouldStop ?_ _ _, idle_stop _⟩
      simp [StopReason.IsShouldStop]
  | success n =>
      have hclear : Flow ng pending w
          { (c.setWrites []).log (.writeCompleted (.success n)) with writing := false } := by
        refine ⟨⟨hlog.session, hlog.early, hlog.orderly⟩, ?_⟩
        intro hrun
        obtain ⟨hconserved, -, hsucceed⟩ := hc.running hrun
        refine ⟨?_, ?_, ?_⟩
        · show ∀ s, c.handler = some s → handed (c.trace ++ _) ++ _ = _
          rw [handed_append]
          exact fun s hs => (congrArg (· ++ _) (List.append_nil _)).trans (hconserved s hs)
        · intro hwriting
          cases hwriting
        · rw [hwrites] at hsucceed
          exact hsucceed.end n
      have halone : ((c.setWrites []).log (.writeCompleted (.success n))).Exclusive :=
        hexclusive.setWrites_nil.log trivial rfl
      exact hclear.writeData (halone.clearWriting rfl) hN hpending

theorem Flow.start (hc : Flow ng pending w c) (hhandler : c.handler = none) :
    Flow ng pending w (c.start (http2Handler ng g)) := by
  obtain ⟨hhanded, rfl, -⟩ := hc.early hhandler
  have hlog : Flow ng pending [] (c.log .handlerStart) := hc.log trivial fun _ => id
  have hset : Flow ng pending []
      { c.log .handlerStart with handler := some ((Http2Session.make g).start ng).2 } := by
    refine ⟨hlog.toBase.setHandler (.start g), ?_⟩
    intro hrun
    obtain ⟨-, hinFlight, hsucceed⟩ := hlog.running hrun
    refine ⟨?_, hinFlight, hsucceed⟩
    intro s hs
    cases hs
    have hframed := (@Http2Session.framed_init G ng writeBufferSize g).conserved
    show handed (c.trace ++ [.handlerStart]) ++ _ = _
    rw [handed_append, hhanded]
    exact hframed
  unfold Connection.start
  dsimp only
  split_ifs
  · exact hset.stop (by simp [StopReason.IsShouldStop])
  · exact hset.readData

/-- Nothing engages a connection before its handler exists. -/
theorem Base.engaged_handler (hc : Base pending w c) (hengaged : c.Engaged) : c.handler ≠ none := by
  intro hnone
  obtain ⟨-, -, hquiet⟩ := hc.early hnone
  obtain ⟨action, hmem, hengages⟩ := hengaged
  exact hquiet action hmem hengages

theorem Flow.timeoutHandler (hc : Flow ng pending w c) : Flow ng pending w c.timeoutHandler := by
  unfold Connection.timeoutHandler
  split_ifs
  · exact hc
  · have hstop : Flow ng pending w (c.stop .timeout) :=
      hc.stop (by simp [StopReason.IsShouldStop])
    exact hstop.of_eq rfl rfl rfl rfl rfl
  · have hwait : Flow ng pending w { c with deadline := c.deadline.asyncWait } :=
      hc.of_eq rfl rfl rfl rfl rfl
    exact hwait.log trivial fun _ => id

theorem Flow.handshakeHandler (hc : Flow ng pending w c) (hhandler : c.handler = none)
    (completion : Completion) (tlsH2Negotiated : Bool) :
    Flow ng pending w (c.handshakeHandler (http2Handler ng g) completion tlsH2Negotiated) := by
  unfold Connection.handshakeHandler
  cases completion with
  | failure => exact hc.stop (by simp [StopReason.IsShouldStop])
  | success n =>
      dsimp only
      split_ifs
      · exact hc.stop (by simp [StopReason.IsShouldStop])
      · exact hc.start hhandler

/-- A signal from outside always goes through, and `write_data` makes up for those that
did not. -/
theorem Flow.signal (hc : Flow ng pending w c) (hexclusive : c.Exclusive)
    (hN : ng.ChunksAtMost writeBufferSize) (hpending : ng.ReportsPending pending)
    (hhandler : c.handler = some s) (u : G → G) :
    Flow ng pending w (c.signal (http2Handler ng g) ((http2Handler ng g).submit u s)) ∧
      Idle pending (c.signal (http2Handler ng g) ((http2Handler ng g).submit u s)) := by
  have hsome : c.handler ≠ none := by simp [hhandler]
  have hsound : Http2Session.Sound w { s with session := u s.session } :=
    (hc.session s hhandler).submit u
  have hset : Flow ng pending w { c with handler := some { s with session := u s.session } } :=
    hc.setHandler hhandler hsound rfl rfl
  have hlog : Flow ng pending w
      ({ c with handler := some { s with session := u s.session } }.log .signalled) :=
    hset.log trivial fun hnone => by cases hnone
  have halone : ({ c with handler := some { s with session := u s.session } }.log
      .signalled).Exclusive := (hexclusive.setHandler hsome _).log trivial rfl
  have hthrough : (http2Handler ng g).signals { s with session := u s.session } = true := by
    show (!s.callbackInside) = true
    rw [(hc.session s hhandler).outside]
    rfl
  have heq : c.signal (http2Handler ng g) ((http2Handler ng g).submit u s) =
      ({ c with handler := some { s with session := u s.session } }.log .signalled).writeData
        (http2Handler ng g) := signal_of_signals hthrough
  rw [heq]
  exact hlog.writeData halone hN hpending

end Handlers

/-! ## The steps -/

/-- The invariant between the steps. -/
structure Settled (ng : Nghttp2 G) (pending : G → Prop) (w : List UInt8)
    (c : Connection (Http2Session G)) : Prop extends Flow ng pending w c where
  idle : c.Engaged → Idle pending c

theorem Settled.of_eq (hc : Settled ng pending w c) (hhandler : d.handler = c.handler)
    (htrace : d.trace = c.trace) (hstopped : d.stopped = c.stopped)
    (hwriting : d.writing = c.writing)
    (hwrites : d.socket.writes.length = c.socket.writes.length) : Settled ng pending w d := by
  refine ⟨hc.toFlow.of_eq hhandler htrace hstopped hwriting hwrites, ?_⟩
  unfold Engaged Idle
  rw [hhandler, htrace, hstopped, hwriting]
  exact hc.idle

/-- Output that is left is made up for by the write in flight. -/
theorem Settled.writes_ne_nil (hc : Settled ng pending w c) (hengaged : c.Engaged)
    (hstopped : c.stopped = false) {s : Http2Session G} (hhandler : c.handler = some s)
    (houtput : s.outputData ≠ none ∨ pending s.session) : c.socket.writes ≠ [] := by
  by_cases hwriting : c.writing = true
  · have hinFlight : c.socket.writes.length = 1 := (hc.running hstopped).inFlight hwriting
    intro hempty
    rw [hempty] at hinFlight
    cases hinFlight
  · -- a connection that is not writing is idle, and has no output
    have hidle : c.writing = false := Bool.eq_false_iff.mpr hwriting
    obtain ⟨hdata, hnothing⟩ := hc.idle hengaged hstopped hidle s hhandler
    rcases houtput with hstash | hmore
    · exact absurd hdata hstash
    · exact absurd hmore hnothing

theorem not_engaged_of_handler (hc : Flow ng pending w c) (hhandler : c.handler = none) :
    ¬ c.Engaged := fun hengaged => hc.toBase.engaged_handler hengaged hhandler

theorem Engaged.of_log {action : Action (Http2Session G)} (hengaged : (c.log action).Engaged)
    (haction : ¬ action.Engages) : c.Engaged := by
  obtain ⟨a, hmem, hengages⟩ := hengaged
  rcases List.mem_append.mp hmem with hmem | hmem
  · exact ⟨a, hmem, hengages⟩
  · rw [List.mem_singleton.mp hmem] at hengages
    exact absurd hengages haction

theorem Settled.timeoutHandler (hc : Settled ng pending w c) :
    Settled ng pending w c.timeoutHandler := by
  refine ⟨hc.toFlow.timeoutHandler, ?_⟩
  unfold Connection.timeoutHandler
  split_ifs
  · exact hc.idle
  · intro _
    exact @idle_stop G pending c .timeout
  · intro hengaged
    have hbefore : ({ c with deadline := c.deadline.asyncWait } :
      Connection (Http2Session G)).Engaged := hengaged.of_log id
    exact hc.idle hbefore

/-- Before the handler exists nothing is written, and `start` writes nothing. -/
theorem Settled.handshakeHandler (hc : Settled ng pending w c) (hhandler : c.handler = none)
    (completion : Completion) (tlsH2Negotiated : Bool) :
    Settled ng pending w (c.handshakeHandler (http2Handler ng g) completion tlsH2Negotiated) := by
  refine ⟨hc.toFlow.handshakeHandler hhandler completion tlsH2Negotiated, ?_⟩
  have hquiet : ¬ c.Engaged := not_engaged_of_handler hc.toFlow hhandler
  unfold Connection.handshakeHandler
  cases completion with
  | failure => exact fun _ => idle_stop _
  | success n =>
      dsimp only
      split_ifs
      · exact fun _ => idle_stop _
      · unfold Connection.start
        dsimp only
        split_ifs
        · exact fun _ => idle_stop _
        · intro hengaged
          have hstarted : ({ c.log .handlerStart with
            handler := some ((Http2Session.make g).start ng).2 } :
              Connection (Http2Session G)).Engaged := hengaged.of_log id
          have hbefore : c.Engaged := Engaged.of_log hstarted id
          exact absurd hbefore hquiet

theorem Settled.step (hc : Settled ng pending w c) (hexclusive : c.Exclusive)
    (hN : ng.ChunksAtMost writeBufferSize) (hpending : ng.ReportsPending pending)
    {e : Event (G → G)} (hstep : c.step (http2Handler ng g) e = some d) :
    Settled ng pending w d := by
  cases hexclusive.step_cases hstep with
  | readHandler i size completion hreads _ =>
      obtain ⟨hflow, hidle⟩ := @Flow.readHandler G ng g pending w c hc.toFlow hexclusive hN hpending
        size completion hreads
      exact ⟨hflow, fun _ => hidle⟩
  | writeReady i bytesSent size _ _ hwrites =>
      exact hc.of_eq rfl rfl rfl rfl (by simp [setWrites, send, hwrites])
  | writeFailed i size hwrites =>
      exact hc.of_eq rfl rfl rfl rfl (by simp [setWrites, hwrites])
  | writeHandler i size completion hwrites _ =>
      obtain ⟨hflow, hidle⟩ := @Flow.writeHandler G ng g pending w c hc.toFlow hexclusive hN
        hpending size completion hwrites
      exact ⟨hflow, fun _ => hidle⟩
  | handshakeHandler i size completion tlsH2Negotiated hhandshakes _ =>
      -- while the handshake is in flight there is no handler yet
      have hhandler : c.handler = none := by
        by_contra hsome
        have hempty := hexclusive.late hsome
        rw [hhandshakes] at hempty
        cases hempty
      have hset : Settled ng pending w (c.setHandshakes []) := hc.of_eq rfl rfl rfl rfl rfl
      exact hset.handshakeHandler hhandler completion tlsH2Negotiated
  | timerHandler deadline =>
      have hset : Settled ng pending w { c with deadline := deadline } :=
        hc.of_eq rfl rfl rfl rfl rfl
      exact hset.timeoutHandler
  | signal u s hhandler =>
      obtain ⟨hflow, hidle⟩ := @Flow.signal G ng g pending w c s hc.toFlow hexclusive hN hpending
        hhandler u
      exact ⟨hflow, fun _ => hidle⟩
  | stop => exact ⟨hc.toFlow.stop (by simp [StopReason.IsShouldStop]), fun _ => idle_stop _⟩
  | tick _ | readReady _ _ _ _ _ | readFailed _ _ _ | handshakeReady _ _ _
  | handshakeFailed _ _ _ | timerExpired => exact hc.of_eq rfl rfl rfl rfl rfl

theorem flow_init (timeouts : Timeouts) (now : ℤ) :
    Flow ng pending [] ({ timeouts, now } : Connection (Http2Session G)) := by
  refine ⟨⟨?_, ?_, historically_nil⟩, ?_⟩
  · intro s hs
    cases hs
  · intro _
    exact ⟨rfl, rfl, by simp⟩
  · intro _
    refine ⟨?_, ?_, ?_⟩
    · intro s hs
      cases hs
    · intro hwriting
      cases hwriting
    · simp [WritesSucceed]

/-- The timer is started before the handler exists. -/
theorem settled_startTimeout (timeouts : Timeouts) (now : ℤ) (deadline : DeadlineTimer) :
    Settled ng pending []
      ({ { timeouts, now : Connection (Http2Session G) } with deadline := deadline }.log
        .asyncWait) := by
  have hinit : Flow ng pending []
      ({ { timeouts, now : Connection (Http2Session G) } with deadline := deadline }) :=
    (flow_init timeouts now).of_eq rfl rfl rfl rfl rfl
  have hstart : Flow ng pending []
      ({ { timeouts, now : Connection (Http2Session G) } with deadline := deadline }.log
        .asyncWait) := hinit.log trivial fun _ => id
  exact ⟨hstart, fun hengaged => absurd hengaged (not_engaged_of_handler hstart rfl)⟩

theorem settled_acceptTls (timeouts : Timeouts) (now : ℤ) :
    Settled ng pending [] (acceptTls timeouts now : Connection (Http2Session G)) := by
  have hstart := @settled_startTimeout G ng pending timeouts now
  exact (hstart _).of_eq rfl rfl rfl rfl rfl

/-- The accept handler starts a connection the way the handshake handler does. -/
theorem settled_accept (timeouts : Timeouts) (now : ℤ) :
    Settled ng pending [] (accept (http2Handler ng g) timeouts now) := by
  have hstart := @settled_startTimeout G ng pending timeouts now
  exact (hstart _).handshakeHandler rfl (.success 0) true

end Connection

section

variable (ng g pending)

theorem settled_invariant (hN : ng.ChunksAtMost writeBufferSize)
    (hpending : ng.ReportsPending pending) :
    (connection (http2Handler ng g)).Invariant fun c =>
      c.Exclusive ∧ Connection.Settled ng pending [] c := by
  refine (exclusive_invariant _).strengthen ?_ ?_
  · rintro _ ⟨timeouts, now, rfl | rfl⟩
    · exact Connection.settled_accept timeouts now
    · exact Connection.settled_acceptTls timeouts now
  · intro c e d hc _ hsettled hstep
    exact hsettled.step hc hN hpending hstep

end

section

variable {c : Connection (Http2Session G)}

/-- **An orderly shutdown discards no output.**  Whenever a running connection is stopped
because `should_stop` returned true: no write is in flight, nothing is stashed, nothing is
pending in nghttp2, and everything nghttp2 has returned was handed to writes that have all
ended successfully. -/
theorem orderly_stop (hN : ng.ChunksAtMost writeBufferSize) (hpending : ng.ReportsPending pending)
    (hc : (connection (http2Handler ng g)).Reachable c)
    {earlier later : List (Action (Http2Session G))} {reason : StopReason}
    {writesInFlight : ℕ} {handler : Option (Http2Session G)}
    (htrace : c.trace = earlier ++ .stop reason writesInFlight handler :: later)
    (hreason : reason.IsShouldStop) :
    writesInFlight = 0 ∧ ∃ s, handler = some s ∧ s.outputData = none ∧ ¬ pending s.session ∧
      handed earlier = s.sends.returned.flatten ∧ WritesSucceed earlier 0 := by
  obtain ⟨-, hsettled⟩ := (settled_invariant ng g pending hN hpending).reachable hc
  exact hsettled.orderly earlier _ later htrace hreason

/-- Three bytes are sent back, and the library is done. -/
def answered : List (Connection.Event (List UInt8 → List UInt8)) :=
  [.readReady 0 [1, 2, 3], .readHandler 0, .writeReady 0 3, .writeHandler 0]

theorem orderly_stop_answered :
    ∃ c : Connection (Http2Session (List UInt8)),
      (connection (http2Handler Http2Session.echo [])).run
        (Connection.accept (http2Handler Http2Session.echo []) ⟨⊤, ⊤⟩ 0) answered = some c ∧
      ∃ s, c.handler = some s ∧ handed c.trace.dropLast = s.sends.returned.flatten := by
  have hN : Http2Session.echo.ChunksAtMost writeBufferSize :=
    Http2Session.echo_chunksAtMost (by decide)
  obtain ⟨c, hrun, htrace⟩ :
      ∃ c, (connection (http2Handler Http2Session.echo [])).run
          (Connection.accept (http2Handler Http2Session.echo []) ⟨⊤, ⊤⟩ 0) answered = some c ∧
        c.trace = c.trace.dropLast ++ [.stop .writeShouldStop 0 c.handler] :=
    ⟨_, rfl, rfl⟩
  obtain ⟨-, s, hs, -, -, hhanded, -⟩ := orderly_stop hN Http2Session.echo_reportsPending
    ⟨_, _, ⟨_, _, Or.inl rfl⟩, hrun⟩ htrace (Or.inr rfl)
  exact ⟨c, hrun, s, hs, hhanded⟩

end

end Http2Asio
