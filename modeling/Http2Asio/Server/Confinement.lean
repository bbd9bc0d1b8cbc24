import Mathlib.Data.Nat.ModEq
import Http2Asio.Connection.Exclusive
import Http2Asio.Server.Bind

/-!
# Which thread works on a connection

The fields of a connection are not locked, so all that works on it has to be executed by
the thread of one `io_service`, its own.  This holds of its reads, its writes, its
handshake and its timer.  The accept handler is different: it is the acceptor's, and yet
it sets the option of the new socket, starts the timer, and calls `start` or
`async_handshake`.  So a connection is confined to its `io_service` exactly when its
acceptor was given the same one.

`get_io_service` hands out the services in turn, first to the resolver, then to one
acceptor for each endpoint, then to the connections in the order in which they are
created.  `Placed` says so; it makes the condition one about numbers.
-/

namespace Http2Asio

open Transition

namespace Server

variable {H U : Type} {hd : Handler H U} {s t : Server H} {n endpointCount : ℕ}

/-- The services that the connections have been assigned, in the order of creation. -/
def places (s : Server H) : List ℕ :=
  s.connections.map Slot.ioService

/-- Every step on a connection was executed by a worker of the service that the
connection has been assigned. -/
def Confined (s : Server H) : Prop :=
  ∀ x ∈ s.executions, s.places[x.connection]? = some x.ioService

/-- The draws that `bind` has made, when it gets to the endpoint of that number. -/
structure Binding (n number : ℕ) (s : Server H) : Prop where
  size : s.pool.size = n
  drawn : s.pool.Drawn (1 + number)
  acceptors : ∀ a ∈ s.acceptors, a.ioService = (1 + a.endpoint) % n
  connections : s.connections = []
  executions : s.executions = []
  workers : s.pool.workers = []

/-- The draws after `bind`. -/
structure Placed (n endpointCount : ℕ) (s : Server H) : Prop where
  size : s.pool.size = n
  drawn : s.pool.Drawn (1 + endpointCount + s.places.length)
  acceptors : ∀ a ∈ s.acceptors, a.ioService = (1 + a.endpoint) % n
  places : s.places = (List.range s.places.length).map fun i => (1 + endpointCount + i) % n
  executions : ∀ x ∈ s.executions, x.connection < s.places.length

/-! ## Listening -/

theorem Binding.placed (hs : Binding n endpointCount s) : Placed n endpointCount s := by
  have hplaces : s.places = [] := by
    rw [Server.places, hs.connections]
    rfl
  refine ⟨hs.size, ?_, hs.acceptors, ?_, ?_⟩
  · rw [hplaces]
    exact hs.drawn
  · rw [hplaces]
    rfl
  · intro x hx
    rw [hs.executions] at hx
    cases hx

theorem binding_bind {pool : IoServicePool} {timeouts : Timeouts} {sslContext : Bool}
    {resolution : Resolution} (hmake : IoServicePool.make n = .ok pool)
    (hbind : bind { pool := pool, timeouts := timeouts, sslContext := sslContext } resolution =
      (.ok (), t)) :
    Binding n resolution.endpoints.length t := by
  obtain ⟨hsize, hworkers⟩ := IoServicePool.make_eq_ok hmake
  generalize hnew : ({ pool := pool, timeouts := timeouts, sslContext := sslContext } : Server H) =
    new at hbind
  obtain ⟨hadded, hreturns⟩ := @bind_spec H new resolution
  have hbinds : new.Binds resolution := hreturns.mp (by rw [hbind])
  have hfirst : new.pool.Drawn 0 := by
    rw [← hnew]
    exact IoServicePool.drawn_make hmake
  have hlast := drawn_bind hfirst hbinds
  have hacceptors := bind_acceptors_of_binds hbinds
  rw [hbind] at hadded hlast hacceptors
  subst hnew
  refine ⟨hadded.size.trans hsize, ?_, ?_, ?_, ?_, hadded.workers.trans hworkers⟩
  · rw [← Nat.zero_add 1]
    exact hlast
  · intro a ha
    rw [hacceptors, List.nil_append] at ha
    have hservice := ioService_acceptorsFrom ha
    change a.ioService = (pool.nextIoServiceIndex + 1 + a.endpoint) % pool.size at hservice
    have hzero : pool.nextIoServiceIndex = 0 := hfirst.trans (Nat.zero_mod _)
    rw [hservice, hzero, hsize, Nat.zero_add]
  · rcases hadded.connections with hnone | hnone <;> exact hnone
  · exact congrArg Server.executions hadded.eq

/-! ## What the steps do to the places -/

theorem places_setState (i : ℕ) (state : SlotState H) : (s.setState i state).places = s.places :=
  map_modify fun _ => rfl

theorem places_asyncAccept (tls : Bool) (j : ℕ) :
    (s.asyncAccept tls j).places = s.places ++ [s.pool.getIoService.1] := by
  simp [places, asyncAccept]

namespace Placed

theorem execute (hs : Placed n endpointCount s) (w ioService : ℕ) {i : ℕ} (step : Step)
    (hi : i < s.places.length) : Placed n endpointCount (s.execute w ioService i step) :=
  { hs with
    executions := by
      intro x hx
      rcases List.mem_append.mp hx with hold | hnew
      · exact hs.executions x hold
      · cases List.mem_singleton.mp hnew
        exact hi }

theorem setState (hs : Placed n endpointCount s) (i : ℕ) (state : SlotState H) :
    Placed n endpointCount (s.setState i state) := by
  have hplaces : (s.setState i state).places = s.places := places_setState i state
  refine ⟨hs.size, ?_, hs.acceptors, ?_, ?_⟩
  · rw [hplaces]
    exact hs.drawn
  · rw [hplaces]
    exact hs.places
  · rw [hplaces]
    exact hs.executions

theorem useAcceptor (hs : Placed n endpointCount s) (slot : Slot H) :
    Placed n endpointCount (s.useAcceptor slot) :=
  ⟨hs.size, hs.drawn, hs.acceptors, hs.places, hs.executions⟩

theorem asyncAccept (hs : Placed n endpointCount s) (tls : Bool) (j : ℕ) :
    Placed n endpointCount (s.asyncAccept tls j) := by
  obtain ⟨hplace, hnext⟩ := hs.drawn.getIoService
  have hplaces : (s.asyncAccept tls j).places = s.places ++ [s.pool.getIoService.1] :=
    places_asyncAccept tls j
  have hlength : (s.asyncAccept tls j).places.length = s.places.length + 1 := by
    rw [hplaces, List.length_append, List.length_singleton]
  refine ⟨hs.size, ?_, ?_, ?_, ?_⟩
  · rw [hlength]
    exact hnext
  · exact forall_mem_modify (fun a ha => ha) hs.acceptors
  · rw [hlength, hplaces, List.range_succ, List.map_append, ← hs.places, hplace, hs.size]
    rfl
  · intro x hx
    have hold : x.connection < s.places.length := hs.executions x hx
    omega

theorem startAccepts (hs : Placed n endpointCount s) : Placed n endpointCount s.startAccepts :=
  startAccepts_keeps (fun _ tls j hs => hs.asyncAccept tls j) hs

end Placed

theorem startAccepts_frame :
    s.startAccepts.pool.workers = s.pool.workers ∧ s.startAccepts.executions = s.executions :=
  @startAccepts_keeps H s
    (fun t => t.pool.workers = s.pool.workers ∧ t.executions = s.executions)
    (fun _ _ _ hsame => hsame) ⟨rfl, rfl⟩

/-! ## What the steps do to the executions -/

theorem confined_execute {w ioService i : ℕ} {step : Step} :
    (s.execute w ioService i step).Confined ↔ s.Confined ∧ s.places[i]? = some ioService := by
  constructor
  · intro hconfined
    refine ⟨fun x hx => hconfined x (List.mem_append_left _ hx), ?_⟩
    exact hconfined ⟨i, step, w, ioService⟩ (List.mem_append_right _ (List.mem_singleton_self _))
  · rintro ⟨hconfined, hplace⟩ x hx
    rcases List.mem_append.mp hx with hold | hnew
    · exact hconfined x hold
    · cases List.mem_singleton.mp hnew
      exact hplace

theorem confined_setState {i : ℕ} {state : SlotState H} :
    (s.setState i state).Confined ↔ s.Confined := by
  have hplaces : (s.setState i state).places = s.places := places_setState i state
  rw [Confined, hplaces]
  rfl

/-- The reference to the acceptor has nothing to do with the connection's own service. -/
theorem confined_useAcceptor {slot : Slot H} : (s.useAcceptor slot).Confined ↔ s.Confined :=
  Iff.rfl

/-- A new connection has not been worked on. -/
theorem confined_asyncAccept (hs : Placed n endpointCount s) {tls : Bool} {j : ℕ} :
    (s.asyncAccept tls j).Confined ↔ s.Confined := by
  have hplaces : (s.asyncAccept tls j).places = s.places ++ [s.pool.getIoService.1] :=
    places_asyncAccept tls j
  rw [Confined, Confined, hplaces]
  apply forall₂_congr
  intro x hx
  rw [List.getElem?_append_left (hs.executions x hx)]

section AcceptHandler

variable {w ioService i : ℕ} {slot : Slot H}

theorem acceptHandler_failed (hs : Placed n endpointCount s) :
    Placed n endpointCount (s.acceptHandler hd w ioService i slot .failed) ∧
      ((s.acceptHandler hd w ioService i slot .failed).Confined ↔ s.Confined) := by
  have hfailed := (hs.setState i .failed).useAcceptor slot
  have heffect := acceptHandler_cases hd s w ioService i slot .failed
  generalize s.acceptHandler hd w ioService i slot .failed = t at heffect ⊢
  cases heffect with
  | failed =>
      refine ⟨hfailed.asyncAccept _ _, ?_⟩
      rw [confined_asyncAccept hfailed, confined_useAcceptor, confined_setState]

/-- Whatever else the handler does, it works on the connection. -/
theorem acceptHandler_succeeded (hs : Placed n endpointCount s) (hi : i < s.places.length)
    (noDelay : ErrorCode) (now : ℤ) :
    Placed n endpointCount (s.acceptHandler hd w ioService i slot (.succeeded noDelay now)) ∧
      ((s.acceptHandler hd w ioService i slot (.succeeded noDelay now)).Confined ↔
        s.Confined ∧ s.places[i]? = some ioService) := by
  have hset : Placed n endpointCount (s.execute w ioService i .setOption) := hs.execute _ _ _ hi
  have heffect := acceptHandler_cases hd s w ioService i slot (.succeeded noDelay now)
  generalize s.acceptHandler hd w ioService i slot (.succeeded noDelay now) = t at heffect ⊢
  cases heffect with
  | throws _ _ _ =>
      have hdropped := hset.setState i .dropped
      refine ⟨⟨hdropped.size, hdropped.drawn, hdropped.acceptors, hdropped.places,
        hdropped.executions⟩, ?_⟩
      exact confined_setState.trans confined_execute
  | starts _ _ _ first second c =>
      have hfirst := hset.execute w ioService first hi
      have hsecond := hfirst.execute w ioService second hi
      have haccepted := (hsecond.setState i (.accepted c)).useAcceptor slot
      refine ⟨haccepted.asyncAccept _ _, ?_⟩
      refine (confined_asyncAccept haccepted).trans ?_
      rw [confined_useAcceptor, confined_setState, confined_execute, confined_execute,
        confined_execute]
      change ((_ ∧ s.places[i]? = _) ∧ s.places[i]? = _) ∧ s.places[i]? = _ ↔ _
      tauto

end AcceptHandler

/-! ## One step -/

/-- If the event is the accept of a connection, its place in the order of the connections
and that of the acceptor in the order of the endpoints are given the same service. -/
def OwnService (n endpointCount : ℕ) (s : Server H) : Event U → Prop
  | .accept _ j k (.succeeded _ _) => ∀ a i, s.acceptors[j]? = some a → a.accepts[k]? = some i →
      (endpointCount + i) % n = a.endpoint % n
  | _ => True

/-- The first draw, of the resolver, shifts everything. -/
theorem one_add_mod {a b : ℕ} : (1 + a) % n = (1 + b) % n ↔ a % n = b % n := by
  constructor
  · exact Nat.ModEq.add_left_cancel' 1
  · exact Nat.ModEq.add_left 1

theorem Placed.getElem?_places (hs : Placed n endpointCount s) {i : ℕ} {slot : Slot H}
    (hslot : s.connections[i]? = some slot) :
    i < s.places.length ∧ s.places[i]? = some slot.ioService ∧
      slot.ioService = (1 + endpointCount + i) % n := by
  have hplace : s.places[i]? = some slot.ioService := by
    rw [Server.places, List.getElem?_map, hslot]
    rfl
  obtain ⟨hi, -⟩ := List.getElem?_eq_some_iff.mp hplace
  refine ⟨hi, hplace, ?_⟩
  rw [hs.places, List.getElem?_map, List.getElem?_range hi] at hplace
  exact (Option.some.inj hplace).symm

/-- The event does not work on a connection, and draws no service. -/
theorem placed_step_other {e : Event U} (hs : Placed n endpointCount s)
    (hother : OwnService n endpointCount s e) (hsize : t.pool.size = s.pool.size)
    (hindex : t.pool.nextIoServiceIndex = s.pool.nextIoServiceIndex)
    (hacceptors : ∀ a ∈ t.acceptors, a.ioService = (1 + a.endpoint) % n)
    (hplaces : t.places = s.places) (hexecutions : t.executions = s.executions) :
    Placed n endpointCount t ∧ (t.Confined ↔ s.Confined ∧ OwnService n endpointCount s e) := by
  refine ⟨⟨hsize.trans hs.size, ?_, hacceptors, ?_, ?_⟩, ?_⟩
  · rw [IoServicePool.Drawn, hindex, hplaces, hsize]
    exact hs.drawn
  · rw [hplaces]
    exact hs.places
  · rw [hplaces, hexecutions]
    exact hs.executions
  · rw [and_iff_left hother, Confined, Confined, hplaces, hexecutions]

theorem placed_step {e : Event U} (hs : Placed n endpointCount s) (hlisten : e.isListen = false)
    (hstep : s.step hd e = some t) :
    Placed n endpointCount t ∧ (t.Confined ↔ s.Confined ∧ OwnService n endpointCount s e) := by
  cases step_cases hstep with
  | setSslContext sslContext => exact placed_step_other hs trivial rfl rfl hs.acceptors rfl rfl
  | listen resolution => cases hlisten
  | stop =>
      refine placed_step_other hs trivial rfl rfl ?_ rfl rfl
      exact List.forall_mem_map.mpr hs.acceptors
  | workerReturns w _ _ => exact placed_step_other hs trivial rfl rfl hs.acceptors rfl rfl
  | notHandler w i e slot c d _ _ _ _ =>
      refine ⟨hs.setState i _, ?_⟩
      rw [confined_setState]
      exact (and_iff_left trivial).symm
  | handler w i e slot c d step hslot _ _ _ _ =>
      -- the handler of an operation of the connection itself
      obtain ⟨hi, hplace, -⟩ := hs.getElem?_places hslot
      have hplaces : (s.setState i (.accepted d)).places = s.places := places_setState i _
      refine ⟨(hs.setState i _).execute _ _ _ (hplaces ▸ hi), ?_⟩
      rw [confined_execute, confined_setState, hplaces]
      exact and_congr_right fun _ => iff_of_true hplace trivial
  | accept w j k outcome a i slot ha hi hslot _ =>
      obtain ⟨hlt, hplace, hservice⟩ := hs.getElem?_places hslot
      have hplaceAcceptor : a.ioService = (1 + a.endpoint) % n :=
        hs.acceptors a (List.mem_of_getElem? ha)
      have hs' : Placed n endpointCount (s.completeAccept j k) :=
        { hs with acceptors := forall_mem_modify (fun a ha => ha) hs.acceptors }
      cases outcome with
      | failed =>
          obtain ⟨hplaced, hconfined⟩ := @acceptHandler_failed H U hd _ n endpointCount w
            a.ioService i slot hs'
          exact ⟨hplaced, hconfined.trans (and_iff_left trivial).symm⟩
      | succeeded noDelay now =>
          obtain ⟨hplaced, hconfined⟩ := @acceptHandler_succeeded H U hd _ n endpointCount w
            a.ioService i slot hs' hlt noDelay now
          refine ⟨hplaced, hconfined.trans (and_congr_right fun _ => ?_)⟩
          -- the acceptor's service and the connection's, by their numbers
          calc s.places[i]? = some a.ioService
              ↔ (1 + endpointCount + i) % n = (1 + a.endpoint) % n := by
                rw [hplace, hservice, hplaceAcceptor, Option.some_inj]
            _ ↔ (endpointCount + i) % n = a.endpoint % n := by rw [Nat.add_assoc, one_add_mod]
            _ ↔ OwnService n endpointCount s (.accept w j k (.succeeded noDelay now)) := by
                constructor
                · intro hown a' i' ha' hi'
                  cases ha.symm.trans ha'
                  cases hi.symm.trans hi'
                  exact hown
                · intro hown
                  exact hown a i ha hi

/-! ## Who executes -/

/-- After one `run`, worker number `w` runs service number `w`. -/
structure Attributed (n : ℕ) (s : Server H) : Prop where
  workers : s.pool.workers.map Worker.ioService = List.range n
  executions : ∀ x ∈ s.executions, x.worker = x.ioService

namespace Attributed

theorem runs (hs : Attributed n s) {w ioService : ℕ} (hruns : s.pool.runs w = some ioService) :
    w = ioService := by
  unfold IoServicePool.runs at hruns
  split_ifs at hruns
  split at hruns
  · next found hworker =>
      cases hruns
      have hplace : (s.pool.workers.map Worker.ioService)[w]? = some ioService := by
        rw [List.getElem?_map, hworker]
        rfl
      rw [hs.workers] at hplace
      obtain ⟨hw, heq⟩ := List.getElem?_eq_some_iff.mp hplace
      rw [List.getElem_range] at heq
      exact heq
  · cases hruns

theorem finish (hs : Attributed n s) (w : ℕ) (status : WorkerStatus) :
    Attributed n { s with pool := s.pool.finish w status } where
  workers := by
    have hsame : (s.pool.finish w status).workers.map Worker.ioService =
        s.pool.workers.map Worker.ioService := map_modify fun _ => rfl
    exact hsame.trans hs.workers
  executions := hs.executions

theorem execute (hs : Attributed n s) {w ioService : ℕ} (hruns : w = ioService) (i : ℕ)
    (step : Step) : Attributed n (s.execute w ioService i step) where
  workers := hs.workers
  executions := by
    intro x hx
    rcases List.mem_append.mp hx with hold | hnew
    · exact hs.executions x hold
    · cases List.mem_singleton.mp hnew
      exact hruns

theorem acceptHandler (hs : Attributed n s) {w ioService i : ℕ} (hruns : w = ioService)
    (slot : Slot H) (outcome : Accept) :
    Attributed n (s.acceptHandler hd w ioService i slot outcome) := by
  have hset := hs.execute hruns i .setOption
  have heffect := acceptHandler_cases hd s w ioService i slot outcome
  generalize s.acceptHandler hd w ioService i slot outcome = t at heffect ⊢
  cases heffect with
  | failed => exact ⟨hs.workers, hs.executions⟩
  | throws noDelay _ _ =>
      have hdropped : Attributed n ((s.execute w ioService i .setOption).setState i .dropped) :=
        ⟨hset.workers, hset.executions⟩
      exact hdropped.finish w _
  | starts _ _ _ first second _ =>
      have hsecond := (hset.execute hruns i first).execute hruns i second
      exact ⟨hsecond.workers, hsecond.executions⟩

theorem step {e : Event U} (hs : Attributed n s) (hlisten : e.isListen = false)
    (hstep : s.step hd e = some t) : Attributed n t := by
  cases step_cases hstep with
  | listen resolution => cases hlisten
  | setSslContext _ | stop | notHandler _ _ _ _ _ _ _ _ _ _ => exact ⟨hs.workers, hs.executions⟩
  | workerReturns w _ _ => exact hs.finish w .returned
  | handler w i e slot c d step _ _ _ _ hruns =>
      have hset : Attributed n (s.setState i (.accepted d)) := ⟨hs.workers, hs.executions⟩
      exact hset.execute (hs.runs hruns) i step
  | accept w j k outcome a i slot _ _ _ hruns =>
      have hcompleted : Attributed n (s.completeAccept j k) := ⟨hs.workers, hs.executions⟩
      exact hcompleted.acceptHandler (hs.runs hruns) slot outcome

end Attributed

end Server

/-! ## One listen -/

/-- A server over a new pool of `n` services after its only `listen`, which has found
`endpointCount` endpoints and has not thrown. -/
def listening {H U : Type} (hd : Handler H U) (n endpointCount : ℕ) :
    System (Server H) (Server.Event U) where
  init s := ∃ (pool : IoServicePool) (timeouts : Timeouts) (sslContext : Bool)
      (resolution : Resolution), IoServicePool.make n = .ok pool ∧
    resolution.endpoints.length = endpointCount ∧
    Server.listen { pool := pool, timeouts := timeouts, sslContext := sslContext } resolution =
      (.ok (), s)
  step s e := if e.isListen then none else s.step hd e

section Listening

variable {H U : Type} {hd : Handler H U} {s t : Server H} {n endpointCount : ℕ}

theorem listening_init (hinit : (listening hd n endpointCount).init s) :
    Server.Placed n endpointCount s ∧ Server.Attributed n s ∧ s.executions = [] := by
  obtain ⟨pool, timeouts, sslContext, resolution, hmake, hcount, hlisten⟩ := hinit
  unfold Server.listen at hlisten
  split at hlisten
  · cases hlisten
  · next s' hbind =>
      cases hlisten
      have hbinding := Server.binding_bind hmake hbind
      rw [hcount] at hbinding
      have hstarted := hbinding.placed.startAccepts
      obtain ⟨hworkers, hexecutions⟩ := @Server.startAccepts_frame H s'
      have hnone : s'.startAccepts.executions = [] := hexecutions.trans hbinding.executions
      refine ⟨⟨hstarted.size, hstarted.drawn, hstarted.acceptors, hstarted.places,
        hstarted.executions⟩, ⟨?_, ?_⟩, hnone⟩
      · change (s'.startAccepts.pool.workers ++ (List.range s'.startAccepts.pool.size).map fun k =>
          ({ ioService := k } : Worker)).map Worker.ioService = List.range n
        rw [hworkers, hbinding.workers, hstarted.size, List.nil_append, List.map_map]
        exact List.map_id _
      · rw [hnone]
        exact List.forall_mem_nil _

theorem placed_invariant : (listening hd n endpointCount).Invariant
    fun s => Server.Placed n endpointCount s ∧ Server.Attributed n s where
  init s hinit := ⟨(listening_init hinit).1, (listening_init hinit).2.1⟩
  step s e t hs hstep := by
    dsimp only [listening] at hstep
    split_ifs at hstep with hlisten
    have hother : e.isListen = false := by simpa using hlisten
    exact ⟨(Server.placed_step hs.1 hother hstep).1, hs.2.step hother hstep⟩

/-- Its runs are runs of the server. -/
theorem reachable_server (hs : (listening hd n endpointCount).Reachable s) :
    (server hd).Reachable s := by
  have hinvariant : (listening hd n endpointCount).Invariant (server hd).Reachable :=
    { init := by
        rintro t ⟨pool, timeouts, sslContext, resolution, hmake, -, hlisten⟩
        refine ⟨{ pool := pool, timeouts := timeouts },
          [.setSslContext sslContext, .listen resolution], ⟨n, pool, timeouts, hmake, rfl⟩, ?_⟩
        change some (Server.listen
          { pool := pool, timeouts := timeouts, sslContext := sslContext } resolution).2 = some t
        rw [hlisten]
      step := by
        intro t e u ht hstep
        dsimp only [listening] at hstep
        split_ifs at hstep
        exact ht.step hstep }
  exact hinvariant.reachable hs

/-- Over any run after one `listen`, every step on a connection is executed by a worker of
its own `io_service` exactly when every accept that succeeds meets the condition: the
number of endpoints plus the number of the connection and the number of the acceptor's
endpoint agree modulo the size of the pool.  Then one thread executes all steps on a
connection. -/
theorem confined_iff_meets {events : List (Server.Event U)}
    (hinit : (listening hd n endpointCount).init s)
    (hrun : (listening hd n endpointCount).run s events = some t) :
    (t.Confined ↔
      (listening hd n endpointCount).Meets (Server.OwnService n endpointCount) s events) ∧
    (t.Confined → ∀ x ∈ t.executions, ∀ y ∈ t.executions,
      x.connection = y.connection → x.worker = y.worker) := by
  have hfirst := placed_invariant.init s hinit
  constructor
  · have hstart : s.Confined := by
      rw [Server.Confined, (listening_init hinit).2.2]
      exact List.forall_mem_nil _
    have hstep : ∀ s e t, Server.Placed n endpointCount s ∧ Server.Attributed n s →
        (listening hd n endpointCount).step s e = some t →
        (t.Confined ↔ s.Confined ∧ Server.OwnService n endpointCount s e) := by
      intro s e t hs hstep
      dsimp only [listening] at hstep
      split_ifs at hstep with hlisten
      exact (Server.placed_step hs.1 (by simpa using hlisten) hstep).2
    rw [System.run_iff_meets placed_invariant hstep hfirst hrun]
    exact and_iff_right hstart
  · intro hconfined x hx y hy hsame
    obtain ⟨-, hattributed⟩ := placed_invariant.run hfirst hrun
    have hplace : some x.ioService = some y.ioService := by
      rw [← hconfined x hx, ← hconfined y hy, hsame]
    rw [hattributed.executions x hx, hattributed.executions y hy]
    exact Option.some.inj hplace

end Listening

/-- A new pool of two services. -/
def twoServices : IoServicePool :=
  { size := 2, nextIoServiceIndex := 0, index_lt := by decide, workers := [], stopped := false }

/-- One endpoint, and everything succeeds on it. -/
def oneEndpoint : Resolution :=
  ⟨.success, [⟨.success, .success, .success, .success, 0⟩]⟩

/-- The resolver gets service 0, the acceptor service 1, and the first connection service 0
again. -/
def listeningOnTwo : Server Unit :=
  (Server.listen { pool := twoServices, timeouts := ⟨⊤, ⊤⟩ } oneEndpoint).2

theorem listeningOnTwo_init : (listening dummyHandler 2 1).init listeningOnTwo :=
  ⟨twoServices, ⟨⊤, ⊤⟩, false, oneEndpoint, rfl, rfl, rfl⟩

/-- The first accept fails, and the connection after it is given service 1. -/
def secondAccept : List (Server.Event Unit) :=
  [.accept 1 0 0 .failed, .accept 1 0 0 (.succeeded .success 0), .connection 1 1 .timerHandler]

theorem confined_iff_meets_secondAccept :
    ∃ t, (listening dummyHandler 2 1).run listeningOnTwo secondAccept = some t ∧ t.Confined ∧
      t.executions.length = 4 := by
  obtain ⟨t, hrun, hlength⟩ : ∃ t, (listening dummyHandler 2 1).run listeningOnTwo secondAccept =
      some t ∧ t.executions.length = 4 := ⟨_, rfl, rfl⟩
  refine ⟨t, hrun, (confined_iff_meets listeningOnTwo_init hrun).1.mpr ?_, hlength⟩
  refine (System.meets_cons rfl).mpr ⟨trivial, ?_⟩
  refine (System.meets_cons rfl).mpr ⟨?_, ?_⟩
  · rintro a i ⟨rfl⟩ ⟨rfl⟩
    rfl
  · exact (System.meets_cons rfl).mpr ⟨trivial, trivial⟩

/-- The first accept succeeds: worker 1 starts the timer and the connection, and its
timer handler is called by worker 0. -/
def firstAccept : List (Server.Event Unit) :=
  [.accept 1 0 0 (.succeeded .success 0), .connection 0 0 .timerHandler]

theorem not_confined_firstAccept :
    ∃ t, (listening dummyHandler 2 1).init listeningOnTwo ∧
      (listening dummyHandler 2 1).run listeningOnTwo firstAccept = some t ∧ ¬ t.Confined ∧
      ⟨0, .start, 1, 1⟩ ∈ t.executions ∧ ⟨0, .timeoutHandler, 0, 0⟩ ∈ t.executions := by
  obtain ⟨t, hrun, hplaces, hexecutions⟩ :
      ∃ t, (listening dummyHandler 2 1).run listeningOnTwo firstAccept = some t ∧
        t.places = [0, 1] ∧ t.executions = [⟨0, .setOption, 1, 1⟩, ⟨0, .startReadTimeout, 1, 1⟩,
          ⟨0, .start, 1, 1⟩, ⟨0, .timeoutHandler, 0, 0⟩] := ⟨_, rfl, rfl, rfl⟩
  refine ⟨t, listeningOnTwo_init, hrun, ?_, ?_, ?_⟩
  · intro hconfined
    have hstart := hconfined ⟨0, .start, 1, 1⟩ (by simp [hexecutions])
    rw [hplaces] at hstart
    cases hstart
  · simp [hexecutions]
  · simp [hexecutions]

end Http2Asio
