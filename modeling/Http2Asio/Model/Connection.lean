import Http2Asio.Transition.System
import Http2Asio.Model.Asio
import Http2Asio.Model.Http2Session

/-!
# `connection`

The class template of `connection.hpp`, for any handler class, and the system it forms
with its socket and timer.  A step is one call into the connection: a completion
handler, a write signal, a call of `stop`; or it is something that Asio does on its
own: an operation completes, the timer expires, time passes.  Handlers run one at a
time.  The initial states are those that the accept handlers of `server.hpp` leave.

The call that ends a connection, `stop`, stands at ten places of the source.  Here it
is given its place, and the trace of the connection records it, the state it was
called in, and every call to the handler and to Asio.  Nothing reads the trace back,
nor the bytes `received` and those put on the `wire`.

The handler is a parameter.  Its write signal is called between the steps of the
connection, as the event `signal`; the calls that a handler makes from inside
`on_read` and `on_write` are the subject of `Reentrancy/Machine.lean`.
-/

namespace Http2Asio

open Transition

/-- A handler class with states `H`; `U` is what its users may do to it before they
call its write signal. -/
structure Handler (H U : Type) where
  /-- The constructor. -/
  make : H
  start : H → Bool × H
  onRead : List UInt8 → H → Bool × H
  onWrite : List UInt8 → H → WriteResult H
  /-- May answer differently each time. -/
  shouldStop : H → Bool × H
  submit : U → H → H
  /-- Whether the write signal goes through to the connection. -/
  signals : H → Bool

/-- The size of `read_buffer_`. -/
def readBufferSize : ℕ := 8128

/-- The size of `write_buffer_`. -/
def writeBufferSize : ℕ := 65536

/-- `tls_handshake_timeout_` and `read_timeout_`. -/
structure Timeouts where
  tlsHandshake : WithTop ℤ
  read : WithTop ℤ

/-- The places that call `stop`. -/
inductive StopReason
  | start
  | timeout
  | readError
  | onRead
  | readShouldStop
  | onWrite
  | writeShouldStop
  | writeError
  | handshakeError
  | notNegotiated
  | external
  deriving DecidableEq

/-- The stop is the answer of `should_stop`. -/
def StopReason.IsShouldStop (reason : StopReason) : Prop :=
  reason = .readShouldStop ∨ reason = .writeShouldStop

/-- What a connection does.  A call that uses a buffer is recorded with the number of
operations in flight on that buffer, and a stop with the number of writes in flight
and the handler. -/
inductive Action (H : Type)
  | handlerStart
  | onRead (readsInFlight : ℕ) (bytes : List UInt8)
  | onWrite (writesInFlight : ℕ)
  | asyncRead
  | asyncWrite (bytes : List UInt8)
  | asyncWait
  | readCompleted (completion : Completion)
  | writeCompleted (completion : Completion)
  | signalled
  | stop (reason : StopReason) (writesInFlight : ℕ) (handler : Option H)

/-- `connection`. -/
structure Connection (H : Type) where
  timeouts : Timeouts
  now : ℤ
  handler : Option H := none
  readBuffer : List UInt8 := []
  writeBuffer : List UInt8 := []
  writing : Bool := false
  stopped : Bool := false
  socket : Socket := {}
  deadline : DeadlineTimer := {}
  /-- The bytes that successful reads have delivered. -/
  received : List UInt8 := []
  /-- The bytes that successful writes have sent. -/
  wire : List UInt8 := []
  trace : List (Action H) := []

namespace Connection

variable {H U : Type}

/-- Append to the trace. -/
def log (c : Connection H) (action : Action H) : Connection H :=
  { c with trace := c.trace ++ [action] }

/-- `stop`. -/
def stop (c : Connection H) (reason : StopReason) : Connection H :=
  if c.stopped then c
  else
    let c := c.log (.stop reason c.socket.writes.length c.handler)
    { c with stopped := true, socket := c.socket.close, deadline := c.deadline.cancel }

/-- `start_handshake_timeout`. -/
def startHandshakeTimeout (c : Connection H) : Connection H :=
  let deadline := c.deadline.expiresFromNow c.now c.timeouts.tlsHandshake
  { c with deadline := deadline.asyncWait }.log .asyncWait

/-- `start_read_timeout`. -/
def startReadTimeout (c : Connection H) : Connection H :=
  let deadline := c.deadline.expiresFromNow c.now c.timeouts.read
  { c with deadline := deadline.asyncWait }.log .asyncWait

/-- `timeout_handler`. -/
def timeoutHandler (c : Connection H) : Connection H :=
  if c.stopped then c
  -- the wait may have been overtaken, so the expiry in force decides
  else if c.deadline.expired c.now then
    let c := c.stop .timeout
    { c with deadline := c.deadline.setExpiresAt ⊤ }
  else { c with deadline := c.deadline.asyncWait }.log .asyncWait

/-- `read_data`. -/
def readData (c : Connection H) : Connection H :=
  { c with
    deadline := c.deadline.expiresFromNow c.now c.timeouts.read
    socket := c.socket.asyncReadSome readBufferSize }.log .asyncRead

/-- The call `handler_->should_stop()`; there is a handler wherever it is made. -/
def askShouldStop (hd : Handler H U) (c : Connection H) : Bool × Connection H :=
  match c.handler with
  | none => (false, c)
  | some h =>
      let (answer, h) := hd.shouldStop h
      (answer, { c with handler := some h })

/-- The end of `write_data`, with `length` bytes in the buffer; `as::buffer` takes no
more than the array holds. -/
def beginWrite (c : Connection H) (length : ℕ) : Connection H :=
  let size := min length writeBufferSize
  { c with
    writing := true
    deadline := c.deadline.expiresFromNow c.now c.timeouts.read
    socket := c.socket.asyncWriteSome size }.log (.asyncWrite (c.writeBuffer.take size))

/-- `write_data` from the return of `on_write` on. -/
def afterOnWrite (hd : Handler H U) (c : Connection H) (ok : Bool) (length : ℕ) : Connection H :=
  if !ok then c.stop .onWrite
  else if length = 0 then
    let (answer, c) := c.askShouldStop hd
    if answer then c.stop .writeShouldStop else c
  else c.beginWrite length

/-- `write_data`. -/
def writeData (hd : Handler H U) (c : Connection H) : Connection H :=
  -- the handler of the write in flight will call again
  if c.writing then c
  else
    match c.handler with
    | none => c
    | some h =>
        let c := c.log (.onWrite c.socket.writes.length)
        let r := hd.onWrite c.writeBuffer h
        { c with writeBuffer := r.buffer, handler := some r.handler }.afterOnWrite hd r.ok r.length

/-- The handler of `async_read_some` from the return of `write_data` on. -/
def afterWriteData (hd : Handler H U) (c : Connection H) : Connection H :=
  if c.writing then c.readData
  else
    -- `write_data` may have stopped the connection, which is not tested here
    let (answer, c) := c.askShouldStop hd
    if answer then c.stop .readShouldStop else c.readData

/-- The handler of `async_read_some` from the return of `on_read` on. -/
def afterOnRead (hd : Handler H U) (c : Connection H) (ok : Bool) : Connection H :=
  if !ok then c.stop .onRead else (c.writeData hd).afterWriteData hd

/-- The handler of `async_read_some`. -/
def readHandler (hd : Handler H U) (c : Connection H) (completion : Completion) : Connection H :=
  let c := c.log (.readCompleted completion)
  match completion, c.handler with
  | .failure, _ => c.stop .readError
  | .success _, none => c
  | .success bytesReceived, some h =>
      let bytes := c.readBuffer.take bytesReceived
      let c := c.log (.onRead c.socket.reads.length bytes)
      let (ok, h) := hd.onRead bytes h
      { c with handler := some h }.afterOnRead hd ok

/-- The handler of `async_write_some`, which does not use `bytes_sent`. -/
def writeHandler (hd : Handler H U) (c : Connection H) (completion : Completion) : Connection H :=
  let c := c.log (.writeCompleted completion)
  match completion with
  | .failure => c.stop .writeError
  | .success _ => { c with writing := false }.writeData hd

/-- `start`. -/
def start (hd : Handler H U) (c : Connection H) : Connection H :=
  let c := c.log .handlerStart
  let (ok, h) := hd.start hd.make
  let c := { c with handler := some h }
  if !ok then c.stop .start else c.readData

/-- The handler of `async_handshake`. -/
def handshakeHandler (hd : Handler H U) (c : Connection H) (completion : Completion)
    (tlsH2Negotiated : Bool) : Connection H :=
  match completion with
  | .failure => c.stop .handshakeError
  | .success _ => if !tlsH2Negotiated then c.stop .notNegotiated else c.start hd

/-- The write signal, after something was submitted to the handler. -/
def signal (hd : Handler H U) (c : Connection H) (h : H) : Connection H :=
  let c := { c with handler := some h }.log .signalled
  if hd.signals h then c.writeData hd else c

/-! ## The system -/

/-- The accept handler of `start_accept`, on a connection accepted at time `now`. -/
def accept (hd : Handler H U) (timeouts : Timeouts) (now : ℤ) : Connection H :=
  ({ timeouts, now } : Connection H).startReadTimeout.start hd

/-- The accept handler of `start_accept_tls`. -/
def acceptTls (timeouts : Timeouts) (now : ℤ) : Connection H :=
  let c := ({ timeouts, now } : Connection H).startHandshakeTimeout
  { c with socket := c.socket.asyncHandshake }

/-- What can happen to a connection.  An operation is named by its place among those
of its kind in flight. -/
inductive Event (U : Type)
  | tick (ticks : ℕ)
  | readReady (i : ℕ) (bytes : List UInt8)
  | readFailed (i : ℕ)
  | readHandler (i : ℕ)
  | writeReady (i : ℕ) (bytesSent : ℕ)
  | writeFailed (i : ℕ)
  | writeHandler (i : ℕ)
  | handshakeReady (i : ℕ)
  | handshakeFailed (i : ℕ)
  | handshakeHandler (i : ℕ) (tlsH2Negotiated : Bool)
  | timerExpired
  | timerHandler
  | signal (u : U)
  | stop

/-- The operations of one kind are replaced. -/
def setReads (c : Connection H) (reads : List Operation) : Connection H :=
  { c with socket := { c.socket with reads := reads } }

def setWrites (c : Connection H) (writes : List Operation) : Connection H :=
  { c with socket := { c.socket with writes := writes } }

def setHandshakes (c : Connection H) (handshakes : List Operation) : Connection H :=
  { c with socket := { c.socket with handshakes := handshakes } }

/-- Bytes arrive in the read buffer. -/
def receive (c : Connection H) (bytes : List UInt8) : Connection H :=
  { c with readBuffer := copyN bytes 0 c.readBuffer, received := c.received ++ bytes }

/-- The first `bytesSent` bytes of the write buffer go out. -/
def send (c : Connection H) (bytesSent : ℕ) : Connection H :=
  { c with wire := c.wire ++ c.writeBuffer.take bytesSent }

/-- One step; `none` when the event cannot happen.  A read or a write that succeeds
transfers at least one byte. -/
def step (hd : Handler H U) (c : Connection H) : Event U → Option (Connection H)
  | .tick ticks => some { c with now := c.now + ticks }
  | .readReady i bytes =>
      if bytes = [] then none
      else (Operation.complete i (.success bytes.length) c.socket.reads).map fun reads =>
        (c.receive bytes).setReads reads
  | .readFailed i =>
      (Operation.complete i .failure c.socket.reads).map fun reads => c.setReads reads
  | .readHandler i =>
      (Operation.dequeue i c.socket.reads).map fun (completion, reads) =>
        (c.setReads reads).readHandler hd completion
  | .writeReady i bytesSent =>
      if bytesSent = 0 then none
      else (Operation.complete i (.success bytesSent) c.socket.writes).map fun writes =>
        (c.send bytesSent).setWrites writes
  | .writeFailed i =>
      (Operation.complete i .failure c.socket.writes).map fun writes => c.setWrites writes
  | .writeHandler i =>
      (Operation.dequeue i c.socket.writes).map fun (completion, writes) =>
        (c.setWrites writes).writeHandler hd completion
  | .handshakeReady i =>
      (Operation.complete i (.success 0) c.socket.handshakes).map fun handshakes =>
        c.setHandshakes handshakes
  | .handshakeFailed i =>
      (Operation.complete i .failure c.socket.handshakes).map fun handshakes =>
        c.setHandshakes handshakes
  | .handshakeHandler i tlsH2Negotiated =>
      (Operation.dequeue i c.socket.handshakes).map fun (completion, handshakes) =>
        (c.setHandshakes handshakes).handshakeHandler hd completion tlsH2Negotiated
  | .timerExpired =>
      if c.deadline.expired c.now ∧ 0 < c.deadline.pending then
        some { c with deadline := c.deadline.cancel }
      else none
  | .timerHandler =>
      if c.deadline.queued = 0 then none
      else
        let deadline := { c.deadline with queued := c.deadline.queued - 1 }
        some { c with deadline := deadline }.timeoutHandler
  | .signal u => c.handler.map fun h => c.signal hd (hd.submit u h)
  | .stop => some (c.stop .external)

end Connection

/-- A connection from the moment it is accepted, plain or TLS. -/
def connection {H U : Type} (hd : Handler H U) : System (Connection H) (Connection.Event U) where
  init c := ∃ timeouts now,
    c = Connection.accept hd timeouts now ∨ c = Connection.acceptTls timeouts now
  step := Connection.step hd

/-- An `http2_session` as the handler; its users submit to the library, or do whatever
else they like to it, before they signal. -/
def http2Handler {G : Type} (ng : Nghttp2 G) (g : G) : Handler (Http2Session G) (G → G) where
  make := Http2Session.make g
  start s := s.start ng
  onRead bytes s := s.onRead ng bytes
  onWrite buffer s := s.onWrite ng writeBufferSize buffer
  shouldStop s := (s.shouldStop ng, s)
  submit u s := { s with session := u s.session }
  signals s := s.signalWrite

end Http2Asio
