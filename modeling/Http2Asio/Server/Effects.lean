import Http2Asio.Model.Server

/-!
# What the steps of a server do

`step_cases` says once what a step can do, guards included, and `acceptHandler_cases` what
the handler of an accept can do.  The theorems about a server follow them, case by case, and
never unfold `step` or `acceptHandler`.
-/

namespace Http2Asio

section Modify

variable {α β : Type*} {l : List α} {f : α → α} {i : ℕ}

/-- A modification, seen through `g`. -/
theorem map_modify_comm {g : α → β} {h : β → β} (hf : ∀ a, l[i]? = some a → g (f a) = h (g a)) :
    (l.modify i f).map g = (l.map g).modify i h := by
  induction l generalizing i with
  | nil => rw [List.modify_nil, List.map_nil, List.modify_nil]
  | cons a l ih =>
      cases i with
      | zero =>
          rw [List.modify_zero_cons, List.map_cons, List.map_cons, List.modify_zero_cons, hf a rfl]
      | succ i =>
          rw [List.modify_succ_cons, List.map_cons, List.map_cons, List.modify_succ_cons, ih hf]

/-- A modification that keeps `g` of an element keeps it of the list. -/
theorem map_modify {g : α → β} (hf : ∀ a, g (f a) = g a) : (l.modify i f).map g = l.map g :=
  (map_modify_comm fun a _ => hf a).trans (List.modify_id i (l.map g))

theorem forall_mem_modify {p : α → Prop} (hf : ∀ a, p a → p (f a)) (hl : ∀ a ∈ l, p a) :
    ∀ a ∈ l.modify i f, p a := by
  induction l generalizing i with
  | nil => simp
  | cons b l ih =>
      obtain ⟨hb, hrest⟩ := List.forall_mem_cons.mp hl
      cases i with
      | zero =>
          rw [List.modify_zero_cons]
          exact List.forall_mem_cons.mpr ⟨hf b hb, hrest⟩
      | succ i =>
          rw [List.modify_succ_cons]
          exact List.forall_mem_cons.mpr ⟨hb, ih hrest⟩

end Modify

namespace Server

variable {H U : Type} {hd : Handler H U} {s t : Server H}

/-- The event is a call of `listen`. -/
def Event.isListen : Event U → Bool
  | .listen _ => true
  | _ => false

/-- The re-arming at the end of the accept handler. -/
theorem asyncAccept_eq (tls : Bool) (j : ℕ) :
    (if tls then s.startAcceptTls j else s.startAccept j) = s.asyncAccept tls j := by
  cases tls <;> rfl

/-- What every `async_accept` keeps, the loop of `listen` keeps. -/
theorem startAccepts_keeps {P : Server H → Prop}
    (hP : ∀ s tls j, P s → P (s.asyncAccept tls j)) (hs : P s) : P s.startAccepts := by
  unfold startAccepts
  induction List.range s.acceptors.length generalizing s with
  | nil => exact hs
  | cons j js ih =>
      rw [List.foldl_cons, asyncAccept_eq]
      exact ih (hP s s.sslContext j hs)

/-- The states that the handler of `async_accept` may leave. -/
inductive AcceptEffect (s : Server H) (w ioService i : ℕ) (slot : Slot H) : Accept → Server H → Prop
  | failed :
      AcceptEffect s w ioService i slot .failed
        (((s.setState i .failed).useAcceptor slot).asyncAccept slot.tls slot.acceptor)
  /-- The exception ends the thread. -/
  | throws (noDelay : ErrorCode) (now : ℤ) (hthrows : noDelay.failed = true) :
      AcceptEffect s w ioService i slot (.succeeded noDelay now)
        { (s.execute w ioService i .setOption).setState i .dropped with
          pool := s.pool.finish w (.threw (.systemError noDelay)) }
  /-- Two more steps set the connection up, for TLS or without it. -/
  | starts (noDelay : ErrorCode) (now : ℤ) (hreturns : noDelay.failed = false) (first second : Step)
      (c : Connection H) :
      AcceptEffect s w ioService i slot (.succeeded noDelay now)
        ((((((s.execute w ioService i .setOption).execute w ioService i first).execute w ioService
          i second).setState i (.accepted c)).useAcceptor slot).asyncAccept slot.tls slot.acceptor)

theorem acceptHandler_cases (hd : Handler H U) (s : Server H) (w ioService i : ℕ) (slot : Slot H)
    (outcome : Accept) :
    AcceptEffect s w ioService i slot outcome (s.acceptHandler hd w ioService i slot outcome) := by
  cases outcome with
  | failed =>
      dsimp only [acceptHandler]
      rw [asyncAccept_eq]
      exact .failed
  | succeeded noDelay now =>
      dsimp only [acceptHandler]
      split_ifs with hthrows htls
      · exact .throws noDelay now hthrows
      · have hstarts := @AcceptEffect.starts H s w ioService i slot noDelay now
          (Bool.of_not_eq_true hthrows) .startHandshakeTimeout .asyncHandshake
          (Connection.acceptTls s.timeouts now)
        rwa [htls] at hstarts
      · have hstarts := @AcceptEffect.starts H s w ioService i slot noDelay now
          (Bool.of_not_eq_true hthrows) .startReadTimeout .start
          (Connection.accept hd s.timeouts now)
        rwa [Bool.of_not_eq_true htls] at hstarts

/-- The accept number `k` of an acceptor is not outstanding any more. -/
def completeAccept (s : Server H) (j k : ℕ) : Server H :=
  { s with acceptors := s.acceptors.modify j fun a => { a with accepts := a.accepts.eraseIdx k } }

/-- The states that a step may leave. -/
inductive StepEffect (hd : Handler H U) (s : Server H) : Event U → Server H → Prop
  | setSslContext (sslContext : Bool) :
      StepEffect hd s (.setSslContext sslContext) (s.setSslContext sslContext)
  | listen (resolution : Resolution) : StepEffect hd s (.listen resolution) (s.listen resolution).2
  | accept (w j k : ℕ) (outcome : Accept) (a : Acceptor) (i : ℕ) (slot : Slot H)
      (hacceptor : s.acceptors[j]? = some a) (haccept : a.accepts[k]? = some i)
      (hslot : s.connections[i]? = some slot) (hruns : s.pool.runs w = some a.ioService) :
      StepEffect hd s (.accept w j k outcome)
        ((s.completeAccept j k).acceptHandler hd w a.ioService i slot outcome)
  | notHandler (w i : ℕ) (e : Connection.Event U) (slot : Slot H) (c d : Connection H)
      (hslot : s.connections[i]? = some slot) (hstate : slot.state = .accepted c)
      (hstep : c.step hd e = some d) (hnone : handlerOf e = none) :
      StepEffect hd s (.connection w i e) (s.setState i (.accepted d))
  | handler (w i : ℕ) (e : Connection.Event U) (slot : Slot H) (c d : Connection H) (step : Step)
      (hslot : s.connections[i]? = some slot) (hstate : slot.state = .accepted c)
      (hstep : c.step hd e = some d) (hsome : handlerOf e = some step)
      (hruns : s.pool.runs w = some slot.ioService) :
      StepEffect hd s (.connection w i e)
        ((s.setState i (.accepted d)).execute w slot.ioService i step)
  | stop : StepEffect hd s .stop s.stop
  | workerReturns (w : ℕ) (hstopped : s.pool.stopped = true)
      (hrunning : s.pool.isRunning w = true) :
      StepEffect hd s (.workerReturns w) { s with pool := s.pool.finish w .returned }

theorem step_cases {e : Event U} (hstep : s.step hd e = some t) : StepEffect hd s e t := by
  cases e with
  | setSslContext sslContext =>
      cases hstep
      exact .setSslContext sslContext
  | listen resolution =>
      cases hstep
      exact .listen resolution
  | accept w j k outcome =>
      obtain ⟨a, hacceptor, hstep⟩ := Option.bind_eq_some_iff.mp hstep
      obtain ⟨i, haccept, hstep⟩ := Option.bind_eq_some_iff.mp hstep
      obtain ⟨slot, hslot, hstep⟩ := Option.bind_eq_some_iff.mp hstep
      split_ifs at hstep with hruns
      cases hstep
      exact .accept w j k outcome a i slot hacceptor haccept hslot hruns
  | connection w i e =>
      obtain ⟨slot, hslot, hstep⟩ := Option.bind_eq_some_iff.mp hstep
      split at hstep
      · next c hstate =>
          obtain ⟨d, hevent, hstep⟩ := Option.bind_eq_some_iff.mp hstep
          split at hstep
          · next hnone =>
              cases hstep
              exact .notHandler w i e slot c d hslot hstate hevent hnone
          · next step hsome =>
              dsimp only at hstep
              split_ifs at hstep with hruns
              cases hstep
              exact .handler w i e slot c d step hslot hstate hevent hsome hruns
      · cases hstep
  | stop =>
      cases hstep
      exact .stop
  | workerReturns w =>
      dsimp only [step] at hstep
      split_ifs at hstep with hends
      cases hstep
      exact .workerReturns w hends.1 hends.2

end Server

end Http2Asio
