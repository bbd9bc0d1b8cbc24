import Http2Asio.Connection.Flow
import Http2Asio.Reentrancy.Guard

/-!
# The call stack refines the connection

The machine of `Machine.lean` and the connection of `Model/Connection.lean` are the same
code at two levels.  `finish` takes a state of the machine to the connection that is
left when every call on the stack has returned, with callbacks that do nothing; `resume`
is the same for the stack alone, one equation for each frame.

No step inside a handler changes `finish`.  For the calls and returns this is how the
functions of the connection are composed; the loop of `on_write` needs that its result
does not depend on the fuel.  For a `signal_write` inside a callback it is the guard: the
signal is swallowed, and the connection is the one of a callback that does nothing.

So whatever the callbacks do, what holds of every reachable connection holds of the
connection of the machine between two handlers; `write_in_flight` is the case in which
the signals from inside callbacks matter most.
-/

namespace Http2Asio

open Transition

namespace Http2Session

variable {G : Type} {ng : Nghttp2 G} {N : ℕ}

/-! ## The loop of `on_write` does not depend on its fuel -/

theorem onWriteLoop_of_le {fuel fuel' length : ℕ} {buffer : List UInt8} {s : Http2Session G}
    {r : WriteResult (Http2Session G)} (hloop : onWriteLoop ng N fuel length buffer s = some r)
    (hfuel : fuel ≤ fuel') : onWriteLoop ng N fuel' length buffer s = some r := by
  induction fuel generalizing fuel' length buffer s with
  | zero => cases hloop
  | succ fuel ih =>
      obtain ⟨fuel', rfl⟩ : ∃ k, fuel' = k + 1 := ⟨fuel' - 1, by omega⟩
      rw [onWriteLoop] at hloop ⊢
      split at hloop
      · exact hloop
      · dsimp only at hloop ⊢
        split_ifs at hloop ⊢ with hdry hfull
        · exact hloop
        · exact hloop
        · exact ih hloop (by omega)

/-- The rest of a round, after `mem_send` has returned. -/
def onWriteAfter (ng : Nghttp2 G) (N length : ℕ) (buffer : List UInt8) (s : Http2Session G) :
    MemSend → WriteResult (Http2Session G)
  | .error => ⟨false, length, buffer, s⟩
  | .chunk bytes =>
      let data : OutputPointer := ⟨s.sends.calls⟩
      let nread := bytes.length
      if nread = 0 then ⟨true, length, buffer, s⟩
      else if length + nread > N then
        ⟨true, length, buffer, { s with outputData := some data, outputSize := nread }⟩
      else
        onWriteFrom ng N (length + nread) (copyN (s.readOutput ng data nread) length buffer)
          (s.noteRead data)

theorem onWriteFrom_eq (length : ℕ) (buffer : List UInt8) (s : Http2Session G) :
    onWriteFrom ng N length buffer s =
      onWriteAfter ng N length buffer (s.memSend ng).2 (s.memSend ng).1 := by
  apply Option.some_injective
  rw [onWriteFrom, Option.some_get, onWriteLoop]
  split
  · next s' hsend =>
      rw [hsend]
      rfl
  · next bytes s' hsend =>
      rw [hsend]
      dsimp only [onWriteAfter]
      split_ifs with hdry hfull
      · rfl
      · rfl
      · -- one round less is left, and one round less is enough
        have henough : N - (length + bytes.length) < N := by omega
        obtain ⟨r, hr⟩ := Option.isSome_iff_exists.mp (onWriteLoop_isSome ng N N
          (length + bytes.length)
          (copyN (s'.readOutput ng ⟨s'.sends.calls⟩ bytes.length) length buffer)
          (s'.noteRead ⟨s'.sends.calls⟩) henough)
        rw [onWriteFrom, Option.some_get, hr, onWriteLoop_of_le hr (Nat.le_succ N)]

end Http2Session

namespace Reentrancy

variable {G : Type} {ng : Nghttp2 G} {g : G}

/-- The end of `on_write`: its guard is destroyed, and its result goes to the caller. -/
def setResult (c : Connection (Http2Session G)) (r : WriteResult (Http2Session G)) :
    Connection (Http2Session G) :=
  { c with writeBuffer := r.buffer, handler := some r.handler.leaveGuard }

/-- The callbacks are fired. -/
def fire (c : Connection (Http2Session G)) (callbacks : List Callback) :
    Connection (Http2Session G) :=
  { c with handler := c.handler.map fun s => s.runCallbacks callbacks }

/-- The connection when a value has been returned to the top of the stack and all calls
have returned.  A library that goes on is returned `unit`. -/
def resume (ng : Nghttp2 G) (g : G) :
    List Frame → Value → Connection (Http2Session G) → Connection (Http2Session G)
  | .readHandlerWrite :: frames, .unit, c =>
      resume ng g frames .unit (c.afterWriteData (http2Handler ng g))
  | .writeHandler :: frames, .unit, c => resume ng g frames .unit c
  | .signalWrite :: frames, .unit, c => resume ng g frames .unit c
  | .callback :: frames, .unit, c => resume ng g frames .unit c
  | .library call callbacks :: frames, .unit, c =>
      resume ng g frames (.library call) (fire c callbacks)
  | .onRead :: frames, .library (.memRecv rv), c =>
      resume ng g frames (.onRead (decide (0 ≤ rv)))
        { c with handler := c.handler.map Http2Session.leaveGuard }
  | .onWrite length :: frames, .library (.memSend result), c =>
      match c.handler with
      | none => c
      | some s =>
          let r := s.onWriteAfter ng writeBufferSize length c.writeBuffer result
          resume ng g frames (.onWrite r.ok r.length) (setResult c r)
  | .readHandler :: frames, .onRead ok, c =>
      resume ng g frames .unit (c.afterOnRead (http2Handler ng g) ok)
  | .writeData :: frames, .onWrite ok length, c =>
      resume ng g frames .unit (c.afterOnWrite (http2Handler ng g) ok length)
  | _, _, c => c

/-- The connection when the call has returned with no callback doing anything, and all
calls on the stack after it. -/
def resumeCall (ng : Nghttp2 G) (g : G) (frames : List Frame) (c : Connection (Http2Session G))
    (s : Http2Session G) : Call → Connection (Http2Session G)
  | .writeData => resume ng g frames .unit (c.writeData (http2Handler ng g))
  | .onRead bytes =>
      let (ok, s) := s.onRead ng bytes
      resume ng g frames (.onRead ok) { c with handler := some s }
  | .onWrite =>
      let r := s.onWrite ng writeBufferSize c.writeBuffer
      resume ng g frames (.onWrite r.ok r.length)
        { c with writeBuffer := r.buffer, handler := some r.handler }
  | .memRecv bytes =>
      let (rv, s) := s.memRecv ng bytes
      resume ng g frames (.library (.memRecv rv)) { c with handler := some s }
  | .memSend =>
      let (result, s) := s.memSend ng
      resume ng g frames (.library (.memSend result)) { c with handler := some s }
  | .signalWrite =>
      resume ng g frames .unit (if s.signalWrite then c.writeData (http2Handler ng g) else c)

/-- The connection when all calls of the machine have returned. -/
def finish (ng : Nghttp2 G) (g : G) (m : Machine G) : Connection (Http2Session G) :=
  match m.control, m.connection.handler with
  | .idle, _ => m.connection
  | .enter call, some s => resumeCall ng g m.stack m.connection s call
  | .enter _, none => m.connection
  | .leave value, _ => resume ng g m.stack value m.connection
  | .library, _ => resume ng g m.stack .unit m.connection
  | .user, _ => resume ng g m.stack .unit m.connection

variable {c : Connection (Http2Session G)} {s : Http2Session G} {frames : List Frame}

theorem finish_enter {call : Call} (hhandler : c.handler = some s) :
    finish ng g ⟨c, .enter call, frames⟩ = resumeCall ng g frames c s call := by
  rw [finish, hhandler]

/-! ## No step inside a handler changes the end -/

theorem fire_nil : fire c [] = c := by
  have hsame : (c.handler.map fun s => s.runCallbacks []) = c.handler := Option.map_id'
  rw [fire, hsame]

theorem writeData_of_no_handler (hhandler : c.handler = none) :
    c.writeData (http2Handler ng g) = c := by
  rw [Connection.writeData, hhandler]
  exact ite_self c

theorem writeData_of_handler (hwriting : c.writing = false) (hhandler : c.handler = some s) :
    c.writeData (http2Handler ng g) =
      ((c.callOnWrite (http2Handler ng g) s).afterOnWrite (http2Handler ng g)
        (s.onWrite ng writeBufferSize c.writeBuffer).ok
        (s.onWrite ng writeBufferSize c.writeBuffer).length) := by
  rw [Connection.writeData, hwriting, hhandler]
  rfl

/-- The loop of `on_write`, when the machine has got to a call of `mem_send`. -/
theorem resumeCall_memSend (length : ℕ) :
    resumeCall ng g (.onWrite length :: frames) c s .memSend =
      (let r := s.onWriteFrom ng writeBufferSize length c.writeBuffer
      resume ng g frames (.onWrite r.ok r.length) (setResult c r)) := by
  rw [Http2Session.onWriteFrom_eq]
  rfl

theorem resumeCall_onWrite :
    resumeCall ng g frames c s .onWrite =
      (let (length, buffer, s) := s.enterGuard.takeStash ng c.writeBuffer
      resumeCall ng g (.onWrite length :: frames)
        { c with writeBuffer := buffer, handler := some s } s .memSend) := by
  dsimp only
  rw [resumeCall_memSend]
  rfl

namespace Machine

theorem finish_step_enter {call : Call} (hhandler : c.handler = some s) :
    finish ng g (enter ng ⟨c, .enter call, frames⟩ s call) =
      finish ng g ⟨c, .enter call, frames⟩ := by
  rw [finish_enter hhandler]
  cases call with
  | onRead bytes => rfl
  | memRecv bytes => rfl
  | memSend => rfl
  | onWrite =>
      rw [resumeCall_onWrite]
      rfl
  | writeData =>
      dsimp only [enter, resumeCall]
      by_cases hwriting : c.writing = true
      · rw [if_pos hwriting, Connection.writeData_of_writing hwriting]
        rfl
      · have hclear : c.writing = false := by simpa using hwriting
        rw [if_neg hwriting, writeData_of_handler hclear hhandler]
        exact finish_enter hhandler
  | signalWrite =>
      dsimp only [enter, resumeCall]
      split_ifs with hthrough
      · exact finish_enter hhandler
      · rfl

theorem finish_afterMemSend (length : ℕ) (result : MemSend) {control : Control}
    {stack : List Frame} (hhandler : c.handler = some s) :
    finish ng g (afterMemSend ng ⟨c, control, stack⟩ s length frames result) =
      resume ng g (.onWrite length :: frames) (.library (.memSend result)) c := by
  rw [resume, hhandler]
  cases result with
  | error => rfl
  | chunk bytes =>
      dsimp only [afterMemSend, Http2Session.onWriteAfter]
      split_ifs with hdry hfull
      · rfl
      · rfl
      · exact (finish_enter rfl).trans (resumeCall_memSend _)

theorem finish_step_leave {value : Value} {m : Machine G} (hhandler : c.handler = some s)
    (hleave : leave ng g ⟨c, .leave value, frames⟩ s value frames = some m) :
    finish ng g m = resume ng g frames value c := by
  unfold leave at hleave
  split at hleave
  · cases hleave; rfl
  · cases hleave; rfl
  · cases hleave; rfl
  · cases hleave; rfl
  · cases hleave; rfl
  · cases hleave
    rw [resume, hhandler]
    rfl
  · cases hleave
    exact finish_afterMemSend _ _ hhandler
  · next ok frames =>
      cases ok with
      | false =>
          cases hleave
          rfl
      | true =>
          cases hleave
          exact finish_enter hhandler
  · cases hleave; rfl
  · cases hleave

theorem finish_step_library {m : Machine G} (hhandler : c.handler = some s)
    (hrun : runLibrary ⟨c, .library, frames⟩ s frames = some m) :
    finish ng g m = resume ng g frames .unit c := by
  unfold runLibrary at hrun
  split at hrun
  · next call callback callbacks frames =>
      cases hrun
      rw [resume, fire, hhandler]
      rfl
  · next call frames =>
      cases hrun
      rw [resume, fire_nil]
      rfl
  · cases hrun

/-- A handler called from outside leaves, in the end, the connection that it leaves in
`Model/Connection.lean`. -/
theorem finish_outside {e : Connection.Event (G → G)} {m : Machine G}
    (houtside : outside ng g ⟨c, .idle, []⟩ e = some m) :
    c.step (http2Handler ng g) e = some (finish ng g m) := by
  cases e with
  | readHandler i =>
      obtain ⟨⟨completion, reads⟩, hdequeue, rfl⟩ := Option.map_eq_some_iff.mp houtside
      have hstep : c.step (http2Handler ng g) (.readHandler i) =
          some ((c.setReads reads).readHandler (http2Handler ng g) completion) := by
        rw [Connection.step, hdequeue]
        rfl
      rw [hstep]
      cases completion with
      | failure => rfl
      | success bytesReceived =>
          cases hhandler : c.handler with
          | none =>
              have hnone : (c.setReads reads).handler = none := hhandler
              dsimp only [Connection.readHandler]
              simp only [Connection.handler_log, hnone]
              rfl
          | some s =>
              have hsome : (c.setReads reads).handler = some s := hhandler
              dsimp only [Connection.readHandler]
              simp only [Connection.handler_log, hsome]
              apply congrArg some
              symm
              apply finish_enter
              exact hhandler
  | writeHandler i =>
      obtain ⟨⟨completion, writes⟩, hdequeue, rfl⟩ := Option.map_eq_some_iff.mp houtside
      have hstep : c.step (http2Handler ng g) (.writeHandler i) =
          some ((c.setWrites writes).writeHandler (http2Handler ng g) completion) := by
        rw [Connection.step, hdequeue]
        rfl
      rw [hstep]
      cases completion with
      | failure => rfl
      | success bytesSent =>
          cases hhandler : c.handler with
          | none =>
              have hnone : (c.setWrites writes).handler = none := hhandler
              simp only [Connection.handler_log, hnone]
              apply congrArg some
              refine (writeData_of_no_handler ?_).trans ?_
              · exact hnone
              · rw [← hnone]
                rfl
          | some s =>
              have hsome : (c.setWrites writes).handler = some s := hhandler
              simp only [Connection.handler_log, hsome]
              rw [← hsome]
              apply congrArg some
              symm
              exact finish_enter hhandler
  | signal u =>
      obtain ⟨s, hhandler, rfl⟩ := Option.map_eq_some_iff.mp houtside
      have hstep : c.step (http2Handler ng g) (.signal u) =
          some (c.signal (http2Handler ng g) ((http2Handler ng g).submit u s)) := by
        rw [Connection.step, hhandler]
        rfl
      rw [hstep]
      rfl
  | tick ticks | stop =>
      cases houtside
      rfl
  | _ =>
      obtain ⟨d, hstep, rfl⟩ := Option.map_eq_some_iff.mp houtside
      exact hstep

/-- The guard is up, so the signal changes nothing. -/
theorem finish_step_signal (hshape : Shape .user frames (inside c)) :
    finish ng g ⟨c, .enter .signalWrite, .callback :: frames⟩ = resume ng g frames .unit c := by
  have hset : inside c = true := by
    generalize inside c = flag at hshape
    cases hshape
    rfl
  cases hhandler : c.handler with
  | none =>
      rw [inside, hhandler] at hset
      cases hset
  | some s =>
      have hswallowed : s.signalWrite = false := by
        rw [Http2Session.signalWrite, ← inside_of_handler hhandler, hset]
        rfl
      rw [finish_enter hhandler, resumeCall, hswallowed]
      rfl

theorem finish_step {m m' : Machine G} {move : Move G} (hguarded : Guarded m)
    (hstep : m.step ng g move = some m') :
    finish ng g m' = finish ng g m ∨
      ∃ e, (finish ng g m).step (http2Handler ng g) e = some (finish ng g m') := by
  obtain ⟨c, control, frames⟩ := m
  have hshape : Shape control frames (inside c) := hguarded
  cases move with
  | outside e =>
      right
      -- an event of the connection needs an empty stack, and is the only move that shows
      dsimp only [step] at hstep
      split at hstep
      · generalize inside c = flag at hshape
        cases hshape
        exact ⟨e, finish_outside hstep⟩
      · cases hstep
  | advance =>
      left
      dsimp only [step] at hstep
      split at hstep
      · next s call hhandler =>
          cases hstep
          exact finish_step_enter hhandler
      · next s value hhandler => exact finish_step_leave hhandler hstep
      · next s hhandler => exact finish_step_library hhandler hstep
      · cases hstep
  | signal =>
      left
      dsimp only [step] at hstep
      split at hstep
      · cases hstep
        exact finish_step_signal hshape
      · cases hstep
  | finish =>
      left
      dsimp only [step] at hstep
      split at hstep
      · cases hstep
        rfl
      · cases hstep

end Machine

/-- The machine simulates the connection: a step inside a handler is matched by no
step, and a handler called from outside by the same handler. -/
theorem simulation : (machine ng g).Simulation (connection (http2Handler ng g))
    fun m c => Guarded m ∧ finish ng g m = c where
  init m := by
    rintro ⟨c, hinit, rfl⟩
    exact ⟨c, hinit, guarded_invariant.init _ ⟨c, hinit, rfl⟩, rfl⟩
  step m move m' c := by
    rintro ⟨hguarded, rfl⟩ hstep
    have hguarded' : Guarded m' := Machine.guarded_step hguarded hstep
    rcases Machine.finish_step hguarded hstep with hsame | ⟨e, he⟩
    · exact ⟨_, [], rfl, hguarded', hsame⟩
    · exact ⟨_, [e], System.run_singleton he, hguarded', rfl⟩

/-- Between two handlers the connection of the machine is one that the connection itself
reaches. -/
theorem reachable_of_idle {m : Machine G} (hm : (machine ng g).Reachable m)
    (hidle : m.control = .idle) : (connection (http2Handler ng g)).Reachable m.connection := by
  obtain ⟨c, hreachable, -, hfinish⟩ := simulation.reachable hm
  rw [← hfinish, finish, hidle] at hreachable
  exact hreachable

/-- **No lost wake-up.**  In every state between handlers, whatever was signalled from
inside the callbacks, of a connection that is not stopped, once a read completion or a
write signal has been handled: if something is stashed, or pending in nghttp2, then a
write is in flight. -/
theorem write_in_flight {pending : G → Prop} (hN : ng.ChunksAtMost writeBufferSize)
    (hpending : ng.ReportsPending pending) {m : Machine G} (hm : (machine ng g).Reachable m)
    (hidle : m.control = .idle) (hengaged : m.connection.Engaged)
    (hstopped : m.connection.stopped = false) {s : Http2Session G}
    (hhandler : m.connection.handler = some s)
    (houtput : s.outputData ≠ none ∨ pending s.session) : m.connection.socket.writes ≠ [] := by
  have hreachable : (connection (http2Handler ng g)).Reachable m.connection :=
    reachable_of_idle hm hidle
  obtain ⟨-, hsettled⟩ := (settled_invariant ng g pending hN hpending).reachable hreachable
  exact hsettled.writes_ne_nil hengaged hstopped hhandler houtput

/-- After `signalsInside` the handler runs to its end and leaves a write in flight; then
two bytes are submitted from outside, and that signal finds `writing_` set. -/
def swallowedSignals : List (Move (List UInt8)) :=
  signalsInside ++
  -- the two rounds of `mem_send` that return bytes, and the one that returns none
  [.advance, .advance, .finish, .advance, .advance] ++
  [.advance, .advance, .finish, .advance, .advance] ++
  [.advance, .advance, .finish, .advance, .advance] ++
  -- out of `write_data` and the read handler
  [.advance, .advance, .advance] ++
  [.outside (.signal (· ++ [4, 5])), .advance, .advance, .advance, .advance]

theorem write_in_flight_swallowedSignals :
    ∃ (m : Machine (List UInt8)) (s : Http2Session (List UInt8)),
      (machine chatty []).run
        { connection := Connection.accept (http2Handler chatty []) ⟨⊤, ⊤⟩ 0 } swallowedSignals =
          some m ∧
      m.connection.handler = some s ∧ s.session = [4, 5] ∧ m.connection.socket.writes ≠ [] := by
  obtain ⟨m, s, hrun, hidle, hengaged, hstopped, hhandler, hsession⟩ :
      ∃ (m : Machine (List UInt8)) (s : Http2Session (List UInt8)),
        (machine chatty []).run
          { connection := Connection.accept (http2Handler chatty []) ⟨⊤, ⊤⟩ 0 } swallowedSignals =
          some m ∧
        m.control = .idle ∧ m.connection.trace[8]? = some .signalled ∧
        m.connection.stopped = false ∧ m.connection.handler = some s ∧ s.session = [4, 5] :=
    ⟨_, _, rfl, rfl, rfl, rfl, rfl, rfl⟩
  have hreachable : (machine chatty []).Reachable m := ⟨_, _, ⟨_, ⟨_, _, Or.inl rfl⟩, rfl⟩, hrun⟩
  have hN : chatty.ChunksAtMost writeBufferSize := Http2Session.echo_chunksAtMost (by decide)
  have hpending : chatty.ReportsPending (· ≠ []) := Http2Session.echo_reportsPending
  refine ⟨m, s, hrun, hhandler, hsession, ?_⟩
  refine write_in_flight hN hpending hreachable hidle ?_ hstopped hhandler (Or.inr ?_)
  · exact ⟨_, List.mem_of_getElem? hengaged, trivial⟩
  · rw [hsession]
    simp

end Reentrancy

end Http2Asio
