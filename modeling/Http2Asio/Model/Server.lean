import Http2Asio.Model.Connection
import Http2Asio.Model.IoServicePool

/-!
# `server`

The class of `server.hpp` and `server.cpp` over a pool, and the system it forms with its
connections.  A connection object exists from the call of `start_accept` or
`start_accept_tls` that creates it; it is a connection of `Model/Connection.lean` from
the moment its accept has completed.

Every handler is called by a worker that runs the `io_service` of the object whose
operation has completed: the acceptor's for an accept, the connection's for its reads,
its writes, its handshake and its timer, which is constructed with
`socket_.get_io_service()`.  Each call of a member function on a connection, and each
use of its socket, is recorded with that worker and that `io_service`.

An exception that leaves a handler leaves `io_service::run`, and with it the thread.

The handler of an accept holds a reference to the acceptor in `acceptor_list_` on which it
will start the next accept.  When a later `push_back` finds the storage of the vector full,
the acceptors move and the references dangle; the accepts that are outstanding move along
and complete as before.  The model goes on by the number of the acceptor in any case, and
records in `undefined` that a handler has used a dangling reference: nothing is known of
the program from then on.

An accept handler is one step of the system, its draw of an `io_service` included.  Two
acceptors are served by different threads, and `get_io_service` takes no lock, so their
handlers can overlap; what two overlapping draws return is not modelled.
-/

namespace Http2Asio

open Transition

/-- An endpoint that the resolver has returned: what the calls on its acceptor report.
`set_option` and `listen` are the overloads that throw. -/
structure Endpoint where
  opened : ErrorCode
  optionSet : ErrorCode
  bound : ErrorCode
  listened : ErrorCode
  /-- For how many acceptors after this one there is room, if `push_back` takes new storage
  for it. -/
  room : ℕ

/-- What `resolve` reports. -/
structure Resolution where
  ec : ErrorCode
  endpoints : List Endpoint

/-- An acceptor of `acceptor_list_`, listening on the endpoint of that number of its
resolution. -/
structure Acceptor where
  ioService : ℕ
  endpoint : ℕ
  isOpen : Bool := true
  /-- The connections that an `async_accept` waits to fill, oldest first. -/
  accepts : List ℕ := []

/-- `close`. -/
def Acceptor.close (a : Acceptor) : Acceptor :=
  { a with isOpen := false }

/-- What has become of a connection object: its accept is outstanding, has failed, or
has succeeded, and then `set_option` has thrown or not. -/
inductive SlotState (H : Type)
  | waiting
  | failed
  | dropped
  | accepted (connection : Connection H)

/-- A connection object: the `io_service` that `get_io_service` assigned to it, the
acceptor that waits for it, and whether its socket is a TLS one. -/
structure Slot (H : Type) where
  ioService : ℕ
  acceptor : ℕ
  tls : Bool
  state : SlotState H := .waiting
  /-- The acceptor is not where its accept handler has seen it any more. -/
  dangling : Bool := false

/-- The storage of the acceptors has been released. -/
def Slot.dangle {H : Type} (slot : Slot H) : Slot H :=
  { slot with dangling := true }

/-- What a worker does to a connection. -/
inductive Step
  | setOption
  | startReadTimeout
  | start
  | startHandshakeTimeout
  | asyncHandshake
  | readHandler
  | writeHandler
  | timeoutHandler
  | handshakeHandler
  deriving DecidableEq

/-- A step with the connection it works on, the worker that executes it and the
`io_service` which that worker runs. -/
structure Execution where
  connection : ℕ
  step : Step
  worker : ℕ
  ioService : ℕ
  deriving DecidableEq

/-- `server`. -/
structure Server (H : Type) where
  pool : IoServicePool
  timeouts : Timeouts
  /-- `ssl_context_` is set. -/
  sslContext : Bool := false
  acceptors : List Acceptor := []
  /-- `acceptor_list_.capacity()`. -/
  capacity : ℕ := 0
  /-- Every connection object so far, in the order of creation. -/
  connections : List (Slot H) := []
  executions : List Execution := []
  /-- A handler has used a reference to an acceptor that was not there any more. -/
  undefined : Bool := false

/-- How an `async_accept` completes; `noDelay` is what `set_option` reports. -/
inductive Accept
  | failed
  | succeeded (noDelay : ErrorCode) (now : ℤ)

namespace Server

variable {H U : Type}

/-! ## Listening -/

/-- `acceptor_list_.push_back`; new storage has room for `room` acceptors more. -/
def pushBack (s : Server H) (acceptor : Acceptor) (room : ℕ) : Server H :=
  if s.acceptors.length = s.capacity then
    { s with
      acceptors := s.acceptors ++ [acceptor]
      capacity := s.capacity + 1 + room
      connections := s.connections.map Slot.dangle }
  else { s with acceptors := s.acceptors ++ [acceptor] }

/-- The loop of `bind` over the endpoints from number `number` on; `ec` is the error code
variable of the function. -/
def bindEndpoints (number : ℕ) (ec : ErrorCode) :
    List Endpoint → Server H → Except Exception ErrorCode × Server H
  | [], s => (.ok ec, s)
  | endpoint :: endpoints, s =>
      let (ioService, pool) := s.pool.getIoService
      let s := { s with pool := pool }
      if endpoint.opened.failed then bindEndpoints (number + 1) endpoint.opened endpoints s
      else if endpoint.optionSet.failed then (.error (.systemError endpoint.optionSet), s)
      else if endpoint.bound.failed then bindEndpoints (number + 1) endpoint.bound endpoints s
      else if endpoint.listened.failed then (.error (.systemError endpoint.listened), s)
      else
        -- the comma in the condition after `listen` tests the `ec` of `bind`, which is clear
        let acceptor : Acceptor := { ioService := ioService, endpoint := number }
        bindEndpoints (number + 1) endpoint.bound endpoints (s.pushBack acceptor endpoint.room)

/-- `bind`. -/
def bind (s : Server H) (resolution : Resolution) : Except Exception Unit × Server H :=
  -- the resolver takes an `io_service` too
  let s := { s with pool := s.pool.getIoService.2 }
  if resolution.ec.failed then
    (.error (.runtimeError
      ("h2a::server::bind - Error during tcp::resolver: " ++ resolution.ec.text)), s)
  else
    match bindEndpoints 0 resolution.ec resolution.endpoints s with
    | (.error exception, s) => (.error exception, s)
    | (.ok ec, s) =>
        if s.acceptors.isEmpty then
          (.error (.runtimeError ("h2a::server::bind - Error during binding: " ++ ec.text)), s)
        else (.ok (), s)

/-- A new connection object and an `async_accept` on acceptor number `j` that waits to
fill it. -/
def asyncAccept (tls : Bool) (s : Server H) (j : ℕ) : Server H :=
  let (ioService, pool) := s.pool.getIoService
  let accept := fun a : Acceptor => { a with accepts := a.accepts ++ [s.connections.length] }
  { s with
    pool := pool
    connections := s.connections ++ [{ ioService := ioService, acceptor := j, tls := tls }]
    acceptors := s.acceptors.modify j accept }

/-- `start_accept`. -/
def startAccept (s : Server H) (j : ℕ) : Server H :=
  s.asyncAccept false j

/-- `start_accept_tls`. -/
def startAcceptTls (s : Server H) (j : ℕ) : Server H :=
  s.asyncAccept true j

/-- The loop of `listen` over `acceptor_list_`. -/
def startAccepts (s : Server H) : Server H :=
  (List.range s.acceptors.length).foldl
    (fun s j => if s.sslContext then s.startAcceptTls j else s.startAccept j) s

/-- `listen`; a blocking call does the same and then waits. -/
def listen (s : Server H) (resolution : Resolution) : Except Exception Unit × Server H :=
  match s.bind resolution with
  | (.error exception, s) => (.error exception, s)
  | (.ok _, s) =>
      let s := s.startAccepts
      (.ok (), { s with pool := s.pool.run })

/-- `set_ssl_context`. -/
def setSslContext (s : Server H) (sslContext : Bool) : Server H :=
  { s with sslContext := sslContext }

/-- `stop`. -/
def stop (s : Server H) : Server H :=
  { s with pool := s.pool.stop, acceptors := s.acceptors.map Acceptor.close }

/-! ## The handlers -/

/-- Worker number `w` executes a step. -/
def execute (s : Server H) (w ioService i : ℕ) (step : Step) : Server H :=
  { s with executions := s.executions ++ [⟨i, step, w, ioService⟩] }

/-- The state of connection number `i` is replaced. -/
def setState (s : Server H) (i : ℕ) (state : SlotState H) : Server H :=
  { s with connections := s.connections.modify i fun slot => { slot with state := state } }

/-- The handler of connection `slot` reads the reference to its acceptor. -/
def useAcceptor (s : Server H) (slot : Slot H) : Server H :=
  { s with undefined := s.undefined || slot.dangling }

/-- The handler of `async_accept` for connection number `i`, called by worker number `w`,
which runs `ioService`. -/
def acceptHandler (hd : Handler H U) (s : Server H) (w ioService i : ℕ) (slot : Slot H) :
    Accept → Server H
  | .failed =>
      let s := (s.setState i .failed).useAcceptor slot
      if slot.tls then s.startAcceptTls slot.acceptor else s.startAccept slot.acceptor
  | .succeeded noDelay now =>
      let s := s.execute w ioService i .setOption
      -- the exception passes the call that would start the next accept
      if noDelay.failed then
        let s := s.setState i .dropped
        { s with pool := s.pool.finish w (.threw (.systemError noDelay)) }
      else if slot.tls then
        let s := s.execute w ioService i .startHandshakeTimeout
        let s := s.execute w ioService i .asyncHandshake
        let s := s.setState i (.accepted (Connection.acceptTls s.timeouts now))
        (s.useAcceptor slot).startAcceptTls slot.acceptor
      else
        let s := s.execute w ioService i .startReadTimeout
        let s := s.execute w ioService i .start
        let s := s.setState i (.accepted (Connection.accept hd s.timeouts now))
        (s.useAcceptor slot).startAccept slot.acceptor

/-- The handler that an event of a connection calls, if it calls one.  Signals and stops
come from the users of the connection, on threads of their own choice. -/
def handlerOf : Connection.Event U → Option Step
  | .readHandler _ => some .readHandler
  | .writeHandler _ => some .writeHandler
  | .timerHandler => some .timeoutHandler
  | .handshakeHandler _ _ => some .handshakeHandler
  | _ => none

/-! ## The system -/

/-- What can happen to a server.  A worker is the one that calls the handler. -/
inductive Event (U : Type)
  | setSslContext (sslContext : Bool)
  | listen (resolution : Resolution)
  /-- Accept number `k` of those outstanding on acceptor number `j` completes, and worker
  number `w` calls its handler. -/
  | accept (w j k : ℕ) (outcome : Accept)
  /-- Something happens to connection number `i`; worker number `w` calls the handler. -/
  | connection (w i : ℕ) (e : Connection.Event U)
  | stop
  /-- A worker returns after `stop`. -/
  | workerReturns (w : ℕ)

/-- One step; `none` when the event cannot happen. -/
def step (hd : Handler H U) (s : Server H) : Event U → Option (Server H)
  | .setSslContext sslContext => some (s.setSslContext sslContext)
  | .listen resolution => some (s.listen resolution).2
  | .accept w j k outcome =>
      s.acceptors[j]?.bind fun a =>
      a.accepts[k]?.bind fun i =>
      s.connections[i]?.bind fun slot =>
        if s.pool.runs w = some a.ioService then
          let accepted := fun a : Acceptor => { a with accepts := a.accepts.eraseIdx k }
          let s := { s with acceptors := s.acceptors.modify j accepted }
          some (s.acceptHandler hd w a.ioService i slot outcome)
        else none
  | .connection w i e =>
      s.connections[i]?.bind fun slot =>
      match slot.state with
      | .accepted c =>
          (c.step hd e).bind fun c =>
          let s := s.setState i (.accepted c)
          match handlerOf e with
          | none => some s
          | some step =>
              if s.pool.runs w = some slot.ioService then
                some (s.execute w slot.ioService i step)
              else none
      | _ => none
  | .stop => some s.stop
  | .workerReturns w =>
      if s.pool.stopped ∧ s.pool.isRunning w then
        some { s with pool := s.pool.finish w .returned }
      else none

end Server

/-- A server over a new pool of any size. -/
def server {H U : Type} (hd : Handler H U) : System (Server H) (Server.Event U) where
  init s := ∃ poolSize pool timeouts,
    IoServicePool.make poolSize = .ok pool ∧ s = { pool := pool, timeouts := timeouts }
  step := Server.step hd

/-! ## Several servers over one pool -/

/-- A pool and the servers that have been constructed with it.  Whatever happens to a
server happens to it over this pool. -/
structure Host (H : Type) where
  pool : IoServicePool
  servers : List (Server H)

namespace Host

variable {H U : Type}

/-- What can happen to the pool: a call that is not blocking, or something that happens to
server number `k`. -/
inductive Event (U : Type)
  | run
  | getIoService
  | server (k : ℕ) (e : Server.Event U)

/-- One step; `none` when the event cannot happen. -/
def step (hd : Handler H U) (host : Host H) : Event U → Option (Host H)
  | .run => some { host with pool := host.pool.run }
  | .getIoService => some { host with pool := host.pool.getIoService.2 }
  | .server k e =>
      host.servers[k]?.bind fun s =>
      (({ s with pool := host.pool } : Server H).step hd e).map fun t =>
        { pool := t.pool, servers := host.servers.set k t }

/-- The event is a call of `stop`. -/
def Event.isStop : Event U → Bool
  | .server _ .stop => true
  | _ => false

end Host

/-- New servers over a new pool of any size, before any `stop`. -/
def host {H U : Type} (hd : Handler H U) : System (Host H) (Host.Event U) where
  init h := ∃ poolSize, IoServicePool.make poolSize = .ok h.pool ∧
    ∀ s ∈ h.servers, s = { pool := h.pool, timeouts := s.timeouts, sslContext := s.sslContext }
  step h e := if e.isStop then none else h.step hd e

end Http2Asio
