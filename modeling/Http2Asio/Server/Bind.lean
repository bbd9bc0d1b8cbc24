import Mathlib.Data.List.TakeWhile
import Mathlib.Tactic.Tauto
import Http2Asio.Server.Effects

/-!
# What `bind` does

Of an endpoint, `bind` finds one of three things: all four calls on its acceptor succeed
and it is kept (`works`), a call reports an error code and it is skipped, or a call
throws (`throws`).  The calls that throw are `set_option` and `listen`: the error code
variable does not reach `listen`, since the comma stands behind its closing parenthesis.

A throw leaves the acceptors of the endpoints before it in `acceptor_list_`.  And the test
at the end, whether `acceptor_list_` is empty, asks about earlier calls too.

`Added` is what the loop does to a server, in a form that composes: services are drawn, and
acceptors are added behind those that are there.  When the vector is full they move, and then
the handlers of the accepts that are outstanding hold references to where they were; `Added`
leaves open whether this happens and says that nothing else changes.  `bindEndpoints_spec`
follows the loop up to the first endpoint that throws, with the draws counted, since each
endpoint makes one whatever becomes of it.
-/

namespace Http2Asio

namespace Endpoint

/-- All four calls on the acceptor succeed. -/
def works (endpoint : Endpoint) : Bool :=
  !endpoint.opened.failed && !endpoint.optionSet.failed && !endpoint.bound.failed &&
    !endpoint.listened.failed

/-- `set_option` or `listen` is called and fails. -/
def throws (endpoint : Endpoint) : Bool :=
  !endpoint.opened.failed &&
    (endpoint.optionSet.failed || !endpoint.bound.failed && endpoint.listened.failed)

end Endpoint

/-- The acceptors for those endpoints that work, in their order, when the first one is
endpoint `number` and endpoint `k` draws service `base + k` modulo `n`. -/
def acceptorsFrom (n base number : ℕ) (endpoints : List Endpoint) : List Acceptor :=
  ((endpoints.zipIdx number).filter fun x => x.1.works).map fun x =>
    { ioService := (base + x.2) % n, endpoint := x.2 }

section AcceptorsFrom

variable {n base number : ℕ} {endpoint : Endpoint} {endpoints : List Endpoint}

theorem acceptorsFrom_cons_of_works (hworks : endpoint.works = true) :
    acceptorsFrom n base number (endpoint :: endpoints) =
      { ioService := (base + number) % n, endpoint := number } ::
        acceptorsFrom n base (number + 1) endpoints := by
  rw [acceptorsFrom, List.zipIdx_cons, List.filter_cons, if_pos hworks]
  rfl

theorem acceptorsFrom_cons_of_not_works (hworks : ¬ endpoint.works = true) :
    acceptorsFrom n base number (endpoint :: endpoints) =
      acceptorsFrom n base (number + 1) endpoints := by
  rw [acceptorsFrom, List.zipIdx_cons, List.filter_cons, if_neg hworks]
  rfl

theorem acceptorsFrom_eq_nil :
    acceptorsFrom n base number endpoints = [] ↔ ∀ x ∈ endpoints, x.works = false := by
  induction endpoints generalizing number with
  | nil => exact iff_of_true rfl (List.forall_mem_nil _)
  | cons endpoint endpoints ih =>
      rw [List.forall_mem_cons]
      by_cases hworks : endpoint.works = true
      · rw [acceptorsFrom_cons_of_works hworks]
        exact iff_of_false (List.cons_ne_nil _ _) (by simp [hworks])
      · rw [acceptorsFrom_cons_of_not_works hworks, ih, and_iff_right (by simpa using hworks)]

/-- A new acceptor waits for nothing. -/
theorem accepts_acceptorsFrom {a : Acceptor} (ha : a ∈ acceptorsFrom n base number endpoints) :
    a.accepts = [] := by
  obtain ⟨x, -, rfl⟩ := List.mem_map.mp ha
  rfl

theorem ioService_acceptorsFrom {a : Acceptor} (ha : a ∈ acceptorsFrom n base number endpoints) :
    a.ioService = (base + a.endpoint) % n := by
  obtain ⟨x, -, rfl⟩ := List.mem_map.mp ha
  rfl

end AcceptorsFrom

namespace Server

variable {H : Type} {s t u : Server H} {number : ℕ} {ec : ErrorCode} {endpoint : Endpoint}
  {endpoints : List Endpoint}

/-- The `io_service` of the next draw is assigned. -/
def draw (s : Server H) : Server H :=
  { s with pool := s.pool.getIoService.2 }

/-- The acceptor that is added for a working endpoint. -/
def addAcceptor (s : Server H) (number room : ℕ) : Server H :=
  s.draw.pushBack { ioService := s.pool.getIoService.1, endpoint := number } room

/-! ## One endpoint -/

section OneEndpoint

variable (number ec endpoints s)

theorem bindEndpoints_of_throws (hthrows : endpoint.throws = true) :
    ∃ exception, bindEndpoints number ec (endpoint :: endpoints) s =
      (.error exception, s.draw) := by
  dsimp only [bindEndpoints]
  unfold Endpoint.throws at hthrows
  split_ifs with hopened hoption hbound hlistened
  · simp [hopened] at hthrows
  · exact ⟨_, rfl⟩
  · simp [hoption, hbound] at hthrows
  · exact ⟨_, rfl⟩
  · simp [hoption, hlistened] at hthrows

theorem bindEndpoints_of_works (hworks : endpoint.works = true) :
    bindEndpoints number ec (endpoint :: endpoints) s =
      bindEndpoints (number + 1) endpoint.bound endpoints (s.addAcceptor number endpoint.room) := by
  dsimp only [bindEndpoints]
  unfold Endpoint.works at hworks
  split_ifs with hopened hoption hbound hlistened
  · simp [hopened] at hworks
  · simp [hoption] at hworks
  · simp [hbound] at hworks
  · simp [hlistened] at hworks
  · rfl

theorem bindEndpoints_of_skips (hthrows : endpoint.throws = false)
    (hworks : endpoint.works = false) :
    ∃ ec', bindEndpoints number ec (endpoint :: endpoints) s =
      bindEndpoints (number + 1) ec' endpoints s.draw := by
  dsimp only [bindEndpoints]
  unfold Endpoint.throws at hthrows
  unfold Endpoint.works at hworks
  split_ifs with hopened hoption hbound hlistened
  · exact ⟨_, rfl⟩
  · simp [hopened, hoption] at hthrows
  · exact ⟨_, rfl⟩
  · simp [hopened, hbound, hlistened] at hthrows
  · simp [hopened, hoption, hbound, hlistened] at hworks

end OneEndpoint

/-! ## All endpoints -/

/-- From `s` to `t`, services have been drawn and the acceptors have been added.  If they
have moved for it, the connections know. -/
structure Added (s t : Server H) (acceptors : List Acceptor) : Prop where
  eq : t = { s with
    pool := t.pool
    acceptors := s.acceptors ++ acceptors
    capacity := t.capacity
    connections := t.connections }
  connections : t.connections = s.connections ∨ t.connections = s.connections.map Slot.dangle
  size : t.pool.size = s.pool.size
  workers : t.pool.workers = s.pool.workers
  stopped : t.pool.stopped = s.pool.stopped

theorem Added.acceptors {acceptors : List Acceptor} (hadded : Added s t acceptors) :
    t.acceptors = s.acceptors ++ acceptors := by
  rw [hadded.eq]

/-- What a connection object keeps when the acceptors move. -/
theorem Added.map_connections {acceptors : List Acceptor} (hadded : Added s t acceptors)
    {g : Slot H → ℕ} (hg : ∀ slot, g slot.dangle = g slot) :
    t.connections.map g = s.connections.map g := by
  rcases hadded.connections with hsame | hmoved
  · rw [hsame]
  · rw [hmoved, List.map_map]
    exact List.map_congr_left fun slot _ => hg slot

theorem Added.trans {first second : List Acceptor} (hfirst : Added s t first)
    (hsecond : Added t u second) : Added s u (first ++ second) where
  eq := by
    rw [hsecond.eq, hfirst.eq, List.append_assoc]
  connections := by
    have hagain : (s.connections.map Slot.dangle).map Slot.dangle =
        s.connections.map Slot.dangle := List.map_map ..
    rcases hsecond.connections with hsame | hmoved
    · rw [hsame]
      exact hfirst.connections
    · right
      rcases hfirst.connections with hsame' | hmoved'
      · rw [hmoved, hsame']
      · rw [hmoved, hmoved', hagain]
  size := hsecond.size.trans hfirst.size
  workers := hsecond.workers.trans hfirst.workers
  stopped := hsecond.stopped.trans hfirst.stopped

theorem added_draw : Added s s.draw [] where
  eq := by
    rw [List.append_nil]
    rfl
  connections := Or.inl rfl
  size := rfl
  workers := rfl
  stopped := rfl

theorem added_pushBack (acceptor : Acceptor) (room : ℕ) :
    Added s (s.pushBack acceptor room) [acceptor] := by
  unfold pushBack
  split_ifs
  · exact ⟨rfl, Or.inr rfl, rfl, rfl, rfl⟩
  · exact ⟨rfl, Or.inl rfl, rfl, rfl, rfl⟩

theorem added_addAcceptor (room : ℕ) :
    Added s (s.addAcceptor number room)
      [{ ioService := s.pool.getIoService.1, endpoint := number }] :=
  added_draw.trans (added_pushBack _ room)

/-- Adding an acceptor draws one service. -/
theorem pool_addAcceptor (room : ℕ) : (s.addAcceptor number room).pool = s.draw.pool := by
  unfold addAcceptor pushBack
  split_ifs <;> rfl

/-- The loop stops at the first endpoint that throws; otherwise it makes one draw for each. -/
theorem bindEndpoints_spec {base : ℕ} (hdrawn : s.pool.Drawn (base + number)) :
    Added s (bindEndpoints number ec endpoints s).2
        (acceptorsFrom s.pool.size base number (endpoints.takeWhile fun x => !x.throws)) ∧
      ((bindEndpoints number ec endpoints s).1.isOk = true ↔
        ∀ x ∈ endpoints, x.throws = false) ∧
      ((∀ x ∈ endpoints, x.throws = false) →
        (bindEndpoints number ec endpoints s).2.pool.Drawn (base + number + endpoints.length)) := by
  induction endpoints generalizing number ec s with
  | nil =>
      refine ⟨⟨?_, Or.inl rfl, rfl, rfl, rfl⟩, iff_of_true rfl (List.forall_mem_nil _),
        fun _ => hdrawn⟩
      exact congrArg (fun acceptors => { s with acceptors := acceptors }) (List.append_nil _).symm
  | cons endpoint endpoints ih =>
      obtain ⟨hservice, hnext⟩ := hdrawn.getIoService
      by_cases hthrows : endpoint.throws = true
      · obtain ⟨exception, heq⟩ := bindEndpoints_of_throws s number ec endpoints hthrows
        rw [heq, List.takeWhile_cons_of_neg (by simp [hthrows]), List.forall_mem_cons]
        exact ⟨added_draw, by simp [Except.isOk, Except.toBool, hthrows], by simp [hthrows]⟩
      · have hreturns : endpoint.throws = false := by simpa using hthrows
        have hlength : base + number + (endpoint :: endpoints).length =
            base + (number + 1) + endpoints.length := by
          rw [List.length_cons]
          omega
        rw [List.takeWhile_cons_of_pos (by simp [hreturns]), List.forall_mem_cons,
          and_iff_right hreturns, hlength]
        by_cases hworks : endpoint.works = true
        · have hpool := @pool_addAcceptor H s number endpoint.room
          have hdrawn' : (s.addAcceptor number endpoint.room).pool.Drawn (base + (number + 1)) := by
            rw [hpool]
            exact hnext
          obtain ⟨hadded, hrest⟩ := @ih (s.addAcceptor number endpoint.room) (number + 1)
            endpoint.bound hdrawn'
          rw [bindEndpoints_of_works s number ec endpoints hworks]
          refine ⟨?_, hrest⟩
          rw [acceptorsFrom_cons_of_works hworks, ← hservice]
          rw [hpool] at hadded
          exact (added_addAcceptor endpoint.room).trans hadded
        · obtain ⟨ec', heq⟩ :=
            bindEndpoints_of_skips s number ec endpoints hreturns (by simpa using hworks)
          obtain ⟨hadded, hrest⟩ := @ih s.draw (number + 1) ec' hnext
          rw [heq]
          refine ⟨?_, hrest⟩
          rw [acceptorsFrom_cons_of_not_works hworks]
          exact added_draw.trans hadded

/-! ## The call -/

/-- `bind` returns. -/
def Binds (s : Server H) (r : Resolution) : Prop :=
  r.ec.failed = false ∧ (∀ x ∈ r.endpoints, x.throws = false) ∧
    (s.acceptors ≠ [] ∨ ∃ x ∈ r.endpoints, x.works = true)

/-- One acceptor for each endpoint that works.  The resolver makes the first draw. -/
def workingAcceptors (s : Server H) (endpoints : List Endpoint) : List Acceptor :=
  acceptorsFrom s.pool.size (s.pool.nextIoServiceIndex + 1) 0 endpoints

/-- The endpoints that `bind` gets through. -/
def bound (r : Resolution) : List Endpoint :=
  if r.ec.failed then [] else r.endpoints.takeWhile fun x => !x.throws

variable {r : Resolution}

theorem drawn_draw : s.draw.pool.Drawn (s.pool.nextIoServiceIndex + 1) := by
  have hdrawn : s.pool.Drawn s.pool.nextIoServiceIndex :=
    (Nat.mod_eq_of_lt s.pool.index_lt).symm
  exact hdrawn.getIoService.2

theorem takeWhile_of_none (hnone : ∀ x ∈ endpoints, x.throws = false) :
    endpoints.takeWhile (fun x => !x.throws) = endpoints := by
  apply List.takeWhile_eq_self_iff.mpr
  intro x hx
  rw [hnone x hx]
  rfl

theorem bind_spec :
    Added s (s.bind r).2 (s.workingAcceptors (bound r)) ∧ ((s.bind r).1 = .ok () ↔ s.Binds r) := by
  obtain ⟨hadded, hreturns, -⟩ := @bindEndpoints_spec H s.draw 0 r.ec r.endpoints _ drawn_draw
  unfold bind bound Binds
  dsimp only
  split_ifs with hec
  · exact ⟨added_draw, iff_of_false nofun (fun hbinds => absurd (hec.symm.trans hbinds.1) nofun)⟩
  · have hresolved : r.ec.failed = false := by simpa using hec
    have hall := added_draw.trans hadded
    change Added s _ (s.workingAcceptors (r.endpoints.takeWhile fun x => !x.throws)) at hall
    unfold draw at hall hreturns
    generalize bindEndpoints 0 r.ec r.endpoints _ = result at hall hreturns ⊢
    obtain ⟨exception | ec, t⟩ := result
    · -- an endpoint has thrown
      refine ⟨hall, iff_of_false nofun ?_⟩
      rintro ⟨-, hnone, -⟩
      cases hreturns.mpr hnone
    · have hnone := hreturns.mp rfl
      have hempty : t.acceptors.isEmpty = true ↔
          s.acceptors = [] ∧ ∀ x ∈ r.endpoints, x.works = false := by
        rw [List.isEmpty_iff, hall.acceptors, List.append_eq_nil_iff, takeWhile_of_none hnone,
          workingAcceptors, acceptorsFrom_eq_nil]
      dsimp only
      split_ifs with hlist
      · obtain ⟨hprior, hfails⟩ := hempty.mp hlist
        refine ⟨hall, iff_of_false nofun ?_⟩
        rintro ⟨-, -, hsome | ⟨x, hx, hworks⟩⟩
        · exact hsome hprior
        · cases (hfails x hx).symm.trans hworks
      · refine ⟨hall, iff_of_true rfl ⟨hresolved, hnone, ?_⟩⟩
        by_contra hneither
        apply hlist
        apply hempty.mpr
        simpa using hneither

/-- A `bind` that returns has made one draw for the resolver and one for each endpoint. -/
theorem drawn_bind {k : ℕ} (hdrawn : s.pool.Drawn k) (hbinds : s.Binds r) :
    (s.bind r).2.pool.Drawn (k + 1 + r.endpoints.length) := by
  obtain ⟨hresolved, hnone, -⟩ := hbinds
  obtain ⟨-, -, hlast⟩ :=
    @bindEndpoints_spec H s.draw 0 r.ec r.endpoints (k + 1) hdrawn.getIoService.2
  have hsame : (s.bind r).2 = (bindEndpoints 0 r.ec r.endpoints s.draw).2 := by
    unfold bind draw
    dsimp only
    rw [hresolved, if_neg (by decide)]
    generalize bindEndpoints 0 r.ec r.endpoints _ = result
    obtain ⟨exception | ec, t⟩ := result
    · rfl
    · dsimp only
      split_ifs <;> rfl
  rw [hsame]
  exact hlast hnone

theorem listen_of_binds (hbinds : s.Binds r) :
    s.listen r = (.ok (), { (s.bind r).2.startAccepts with
      pool := (s.bind r).2.startAccepts.pool.run }) := by
  have hreturns := bind_spec.2.mpr hbinds
  unfold listen
  generalize s.bind r = result at hreturns ⊢
  obtain ⟨outcome, t⟩ := result
  cases hreturns
  rfl

theorem listen_of_not_binds (hbinds : ¬ s.Binds r) :
    ∃ exception, s.listen r = (.error exception, (s.bind r).2) := by
  have hthrows : (s.bind r).1 ≠ .ok () := fun hreturns => hbinds (bind_spec.2.mp hreturns)
  unfold listen
  generalize s.bind r = result at hthrows ⊢
  obtain ⟨exception | ok, t⟩ := result
  · exact ⟨exception, rfl⟩
  · exact absurd rfl hthrows

/-- What is expected of `bind`: if an endpoint works, it returns and adds the acceptors for
those that do; otherwise it throws and adds none. -/
structure KeepsWorking (s : Server H) (r : Resolution) : Prop where
  kept : r.ec.failed = false → (∃ x ∈ r.endpoints, x.works = true) → (s.bind r).1 = .ok () ∧
    (s.bind r).2.acceptors = s.acceptors ++ s.workingAcceptors r.endpoints
  refused : (r.ec.failed = true ∨ ∀ x ∈ r.endpoints, x.works = false) →
    (∃ exception, (s.bind r).1 = .error exception ∧ exception.isRuntimeError = true) ∧
      (s.bind r).2.acceptors = s.acceptors

theorem bind_eq_error (hthrows : (s.bind r).1 ≠ .ok ()) :
    ∃ exception, (s.bind r).1 = .error exception ∧ exception.isRuntimeError = true := by
  cases hresult : (s.bind r).1 with
  | ok => exact absurd hresult hthrows
  | error exception => cases exception <;> exact ⟨_, rfl, rfl⟩

/-- No acceptor is added if no endpoint works. -/
theorem bind_acceptors_of_none (hnone : r.ec.failed = true ∨ ∀ x ∈ r.endpoints, x.works = false) :
    (s.bind r).2.acceptors = s.acceptors := by
  have hempty : s.workingAcceptors (bound r) = [] := by
    apply acceptorsFrom_eq_nil.mpr
    intro x hx
    unfold bound at hx
    split_ifs at hx with hec
    · cases hx
    · exact (hnone.resolve_left hec) x (List.takeWhile_subset _ hx)
  rw [bind_spec.1.acceptors, hempty, List.append_nil]

theorem bind_acceptors_of_binds (hbinds : s.Binds r) :
    (s.bind r).2.acceptors = s.acceptors ++ s.workingAcceptors r.endpoints := by
  obtain ⟨hresolved, hnone, -⟩ := hbinds
  have hbound : bound r = r.endpoints := by
    rw [bound, hresolved, if_neg (by decide), takeWhile_of_none hnone]
  rw [bind_spec.1.acceptors, hbound]

/-- The acceptors are as expected whenever it is right to return or to throw. -/
theorem keepsWorking_iff_binds : s.KeepsWorking r ↔
    (s.Binds r ↔ r.ec.failed = false ∧ ∃ x ∈ r.endpoints, x.works = true) := by
  obtain ⟨-, hreturns⟩ := @bind_spec H s r
  have hrefused : (r.ec.failed = true ∨ ∀ x ∈ r.endpoints, x.works = false) ↔
      ¬ (r.ec.failed = false ∧ ∃ x ∈ r.endpoints, x.works = true) := by
    simp only [not_and, not_exists, Bool.not_eq_true]
    cases r.ec.failed <;> simp
  constructor
  · rintro ⟨hkept, hthrows⟩
    constructor
    · intro hbinds
      by_contra hnone
      obtain ⟨⟨exception, hthrown, -⟩, -⟩ := hthrows (hrefused.mpr hnone)
      cases (hreturns.mpr hbinds).symm.trans hthrown
    · rintro ⟨hresolved, hworks⟩
      exact hreturns.mp (hkept hresolved hworks).1
  · intro hiff
    constructor
    · intro hresolved hworks
      have hbinds := hiff.mpr ⟨hresolved, hworks⟩
      exact ⟨hreturns.mpr hbinds, bind_acceptors_of_binds hbinds⟩
    · intro hnone
      refine ⟨bind_eq_error ?_, bind_acceptors_of_none hnone⟩
      rw [Ne, hreturns, hiff]
      exact hrefused.mp hnone

end Server

section

variable {H : Type}

/-- `bind` does what is expected of it exactly in three cases: the resolution fails; some
endpoint works and none throws; or none works, and one throws or no earlier call has added
an acceptor. -/
theorem bind_keepsWorking_iff (s : Server H) (r : Resolution) :
    s.KeepsWorking r ↔ r.ec.failed = true ∨
      ((∃ x ∈ r.endpoints, x.works = true) ∧ ∀ x ∈ r.endpoints, x.throws = false) ∨
      ((∀ x ∈ r.endpoints, x.works = false) ∧
        (s.acceptors = [] ∨ ∃ x ∈ r.endpoints, x.throws = true)) := by
  have hnone : (∀ x ∈ r.endpoints, x.works = false) ↔ ¬ ∃ x ∈ r.endpoints, x.works = true := by
    simp
  have hsome : (∃ x ∈ r.endpoints, x.throws = true) ↔ ¬ ∀ x ∈ r.endpoints, x.throws = false := by
    simp
  have hfailed : r.ec.failed = true ↔ ¬ r.ec.failed = false := by simp
  rw [Server.keepsWorking_iff_binds, Server.Binds, hnone, hsome, hfailed]
  generalize (∃ x ∈ r.endpoints, x.works = true) = works
  generalize (∀ x ∈ r.endpoints, x.throws = false) = returns
  tauto

end

/-- `EADDRINUSE`. -/
def addressInUse : ErrorCode := ⟨98, "system"⟩

/-- The second of two endpoints is found to be in use by `listen`. -/
def inUseAtListen : Resolution :=
  ⟨.success, [⟨.success, .success, .success, .success, 0⟩,
    ⟨.success, .success, .success, addressInUse, 0⟩]⟩

/-- A new server over a pool of one `io_service`. -/
def newServer : Server Unit :=
  { pool := { size := 1, nextIoServiceIndex := 0, index_lt := by decide, workers := [],
              stopped := false }
    timeouts := ⟨⊤, ⊤⟩ }

/-- The first endpoint works, and yet `bind` throws, and keeps its acceptor. -/
theorem not_keepsWorking_inUseAtListen :
    (newServer.bind inUseAtListen).1 = .error (.systemError addressInUse) ∧
      (newServer.bind inUseAtListen).2.acceptors.length = 1 ∧
      ¬ newServer.KeepsWorking inUseAtListen := by
  refine ⟨rfl, rfl, ?_⟩
  intro hkeeps
  have hworks : ∃ x ∈ inUseAtListen.endpoints, x.works = true := ⟨_, List.mem_cons_self, rfl⟩
  obtain ⟨hreturns, -⟩ := hkeeps.kept rfl hworks
  cases hreturns

end Http2Asio
