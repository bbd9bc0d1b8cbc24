import Http2Asio.Model.Connection

/-!
# The call stack of a connection over an `http2_session`

In `Model/Connection.lean` a handler runs to its end in one step, and a write signal
comes only between the steps.  The code is not like that: nghttp2 calls back while
`on_read` and `on_write` are executing, the callbacks run code of the user, and that
code may call `signal_write`, which may call `write_data` and `on_write` in turn.  This
file is the same code as a machine with an explicit call stack, one step for each call
and each return, so that such calls can be made at any depth.

A library call takes effect when it is entered; the library then fires its callbacks
one by one, and after each of them the user's code runs: it calls `signal_write` as
often as it likes and returns.  What that code submits to nghttp2 is, as in
`Model/Nghttp2.lean`, part of the state the library call returns.

A member function of the session constructs its `callback_guard` in the step that
enters its body and destroys it in the step that leaves it.
-/

namespace Http2Asio

open Transition

namespace Reentrancy

/-- A library call with its result. -/
inductive LibraryCall
  | memRecv (rv : ℤ)
  | memSend (result : MemSend)

/-- A function that has called another one and waits for it to return; `library` is
nghttp2 with the callbacks it has still to fire, `callback` the user's code waiting
for `signal_write`. -/
inductive Frame
  | readHandler
  | readHandlerWrite
  | writeHandler
  | signalWrite
  | writeData
  | onRead
  | onWrite (length : ℕ)
  | library (call : LibraryCall) (callbacks : List Callback)
  | callback

/-- A call. -/
inductive Call
  | writeData
  | onRead (bytes : List UInt8)
  | onWrite
  | memRecv (bytes : List UInt8)
  | memSend
  | signalWrite

/-- What a call returns. -/
inductive Value
  | unit
  | onRead (ok : Bool)
  | onWrite (ok : Bool) (length : ℕ)
  | library (call : LibraryCall)

/-- What the machine is about to do; in `library` and `user` the library and the user's
code go on, in `idle` no handler is running. -/
inductive Control
  | idle
  | enter (call : Call)
  | leave (value : Value)
  | library
  | user

/-- The machine; the top of the stack comes first. -/
structure Machine (G : Type) where
  connection : Connection (Http2Session G)
  control : Control := .idle
  stack : List Frame := []

/-- A step of the machine. -/
inductive Move (G : Type)
  /-- Something happens to the connection while no handler is running. -/
  | outside (e : Connection.Event (G → G))
  | advance
  /-- The user's code calls `signal_write`. -/
  | signal
  /-- The user's code returns. -/
  | finish

namespace Machine

variable {G : Type} (ng : Nghttp2 G) (g : G)

/-- The session is replaced. -/
def withSession (m : Machine G) (s : Http2Session G) : Machine G :=
  { m with connection := { m.connection with handler := some s } }

/-- Control goes on with `control` and stack `stack`. -/
def goto (m : Machine G) (control : Control) (stack : List Frame) : Machine G :=
  { m with control := control, stack := stack }

/-- The body of `on_write` from the return of `mem_send` on, up to the next call or the
end. -/
def afterMemSend (m : Machine G) (s : Http2Session G) (length : ℕ) (frames : List Frame) :
    MemSend → Machine G
  | .error => (m.withSession s.leaveGuard).goto (.leave (.onWrite false length)) frames
  | .chunk bytes =>
      let data : OutputPointer := ⟨s.sends.calls⟩
      let nread := bytes.length
      if nread = 0 then
        (m.withSession s.leaveGuard).goto (.leave (.onWrite true length)) frames
      -- every `return` of the function destroys the guard, this one with a stash left
      else if length + nread > writeBufferSize then
        let s := { s with outputData := some data, outputSize := nread }
        (m.withSession s.leaveGuard).goto (.leave (.onWrite true length)) frames
      else
        let buffer := copyN (s.readOutput ng data nread) length m.connection.writeBuffer
        let m := m.withSession (s.noteRead data)
        { m with connection := { m.connection with writeBuffer := buffer } }.goto (.enter .memSend)
          (.onWrite (length + nread) :: frames)

/-- The entry of a function, with session `s`. -/
def enter (m : Machine G) (s : Http2Session G) : Call → Machine G
  | .onRead bytes =>
      (m.withSession s.enterGuard).goto (.enter (.memRecv bytes)) (.onRead :: m.stack)
  | .memRecv bytes =>
      let (rv, callbacks, g) := ng.memRecv bytes s.session
      (m.withSession { s with session := g }).goto .library
        (.library (.memRecv rv) callbacks :: m.stack)
  | .writeData =>
      -- the handler of the write in flight will call again
      if m.connection.writing then m.goto (.leave .unit) m.stack
      else
        let c := m.connection.log (.onWrite m.connection.socket.writes.length)
        { m with connection := c }.goto (.enter .onWrite) (.writeData :: m.stack)
  | .onWrite =>
      let (length, buffer, s) := s.enterGuard.takeStash ng m.connection.writeBuffer
      let m := m.withSession s
      { m with connection := { m.connection with writeBuffer := buffer } }.goto (.enter .memSend)
        (.onWrite length :: m.stack)
  | .memSend =>
      let (result, callbacks, g) := ng.memSend s.session
      (m.withSession { s with session := g, sends := s.sends.record result }).goto .library
        (.library (.memSend result) callbacks :: m.stack)
  | .signalWrite =>
      -- swallowed while `callback_inside_` is set
      if s.signalWrite then m.goto (.enter .writeData) (.signalWrite :: m.stack)
      else m.goto (.leave .unit) m.stack

/-- The return of a function, with session `s`, to the frame on top of the stack. -/
def leave (m : Machine G) (s : Http2Session G) : Value → List Frame → Option (Machine G)
  | .unit, [] => some (m.goto .idle [])
  | .unit, .readHandlerWrite :: frames =>
      let c := m.connection.afterWriteData (http2Handler ng g)
      some ({ m with connection := c }.goto (.leave .unit) frames)
  | .unit, .writeHandler :: frames => some (m.goto (.leave .unit) frames)
  | .unit, .signalWrite :: frames => some (m.goto (.leave .unit) frames)
  | .unit, .callback :: frames => some (m.goto .user frames)
  | .library (.memRecv rv), .onRead :: frames =>
      some ((m.withSession s.leaveGuard).goto (.leave (.onRead (decide (0 ≤ rv)))) frames)
  | .library (.memSend result), .onWrite length :: frames =>
      some (m.afterMemSend ng s length frames result)
  | .onRead ok, .readHandler :: frames =>
      if !ok then
        some ({ m with connection := m.connection.stop .onRead }.goto (.leave .unit) frames)
      else some (m.goto (.enter .writeData) (.readHandlerWrite :: frames))
  | .onWrite ok length, .writeData :: frames =>
      let c := m.connection.afterOnWrite (http2Handler ng g) ok length
      some ({ m with connection := c }.goto (.leave .unit) frames)
  | _, _ => none

/-- The library fires its next callback, or returns. -/
def runLibrary (m : Machine G) (s : Http2Session G) : List Frame → Option (Machine G)
  | .library call (callback :: callbacks) :: frames =>
      some ((m.withSession (s.runCallback callback)).goto .user (.library call callbacks :: frames))
  | .library call [] :: frames => some (m.goto (.leave (.library call)) frames)
  | _ => none

/-- A handler is called, or something else happens, while none is running. -/
def outside (m : Machine G) (e : Connection.Event (G → G)) : Option (Machine G) :=
  let c := m.connection
  match e with
  | .readHandler i =>
      (Operation.dequeue i c.socket.reads).map fun (completion, reads) =>
        let c := (c.setReads reads).log (.readCompleted completion)
        match completion, c.handler with
        | .failure, _ => { m with connection := c.stop .readError }
        | .success _, none => { m with connection := c }
        | .success bytesReceived, some _ =>
            let bytes := c.readBuffer.take bytesReceived
            { m with connection := c.log (.onRead c.socket.reads.length bytes) }.goto
              (.enter (.onRead bytes)) [.readHandler]
  | .writeHandler i =>
      (Operation.dequeue i c.socket.writes).map fun (completion, writes) =>
        let c := (c.setWrites writes).log (.writeCompleted completion)
        match completion, c.handler with
        | .failure, _ => { m with connection := c.stop .writeError }
        | .success _, none => { m with connection := { c with writing := false } }
        | .success _, some _ =>
            { m with connection := { c with writing := false } }.goto (.enter .writeData)
              [.writeHandler]
  | .signal u =>
      c.handler.map fun s =>
        let c := { c with handler := some ((http2Handler ng g).submit u s) }.log .signalled
        { m with connection := c }.goto (.enter .signalWrite) []
  | e => (c.step (http2Handler ng g) e).map fun c => { m with connection := c }

/-- One step; `none` when the move is not possible.  The machine advances only with a
session. -/
def step (m : Machine G) : Move G → Option (Machine G)
  | .outside e =>
      match m.control with
      | .idle => m.outside ng g e
      | _ => none
  | .advance =>
      match m.connection.handler, m.control with
      | some s, .enter call => some (m.enter ng s call)
      | some s, .leave value => m.leave ng g s value m.stack
      | some s, .library => m.runLibrary s m.stack
      | _, _ => none
  | .signal =>
      match m.control with
      | .user => some (m.goto (.enter .signalWrite) (.callback :: m.stack))
      | _ => none
  | .finish =>
      match m.control with
      | .user => some (m.goto .library m.stack)
      | _ => none

end Machine

/-- The machine, from a connection that has just been accepted. -/
def machine {G : Type} (ng : Nghttp2 G) (g : G) : System (Machine G) (Move G) where
  init m := ∃ c, (connection (http2Handler ng g)).init c ∧ m = { connection := c }
  step := Machine.step ng g

end Reentrancy

end Http2Asio
