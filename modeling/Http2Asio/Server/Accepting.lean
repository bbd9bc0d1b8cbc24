import Http2Asio.Server.Bind
import Http2Asio.Server.Confinement

/-!
# The accept loops

`listen` starts an `async_accept` on every acceptor of the list, and the handler of each
starts the next one on the same acceptor.  So the number of accepts outstanding on an
acceptor goes up with each `listen`, and down only when the handler does not get to its
last statement: `set_option` throws, and with it the thread ends.

`outstanding` lists these numbers.  A step lemma says what each step does to them
(`step_loop`), from what is known about every state: an accept that is outstanding on an
acceptor is for a connection that was created for it (`Paired`), so the handler starts the
next accept where the last one has completed.  Two things are read off it:

* after one `listen` no acceptor is ever without an accept if no handler throws
  (`serving_iff_meets`);
* no acceptor ever has two if `listen` does not find one that accepts already
  (`singleLoops_iff_meets`).

For the second, it matters too whether the handler still finds the acceptor.  A `listen`
whose `bind` throws starts no accept, but the acceptors that it has added before may have
moved the others, and then the next handler of an accept that was outstanding uses a
reference to released storage.  After only one `listen` this cannot happen (`InPlace`):
all acceptors are there before the first accept is started.
-/

namespace Http2Asio

open Transition

/-- A loop that modifies each element once maps the list. -/
theorem foldl_modify_range {α : Type*} (f : α → α) (l : List α) :
    (List.range l.length).foldl (fun l j => l.modify j f) l = l.map f := by
  have hupTo : ∀ m i, ((List.range m).foldl (fun l j => l.modify j f) l)[i]? =
      if i < m then l[i]?.map f else l[i]? := by
    intro m
    induction m with
    | zero => exact fun i => rfl
    | succ m ih =>
        intro i
        rw [List.range_succ, List.foldl_append, List.foldl_cons, List.foldl_nil]
        by_cases him : m = i
        · subst him
          rw [List.getElem?_modify_eq, ih, if_neg (lt_irrefl m), if_pos (Nat.lt_succ_self m)]
          rfl
        · rw [List.getElem?_modify_ne _ _ him, ih]
          split_ifs <;> first | rfl | omega
  apply List.ext_getElem?
  intro i
  rw [hupTo, List.getElem?_map]
  split_ifs with hi
  · rfl
  · rw [List.getElem?_eq_none (by omega)]
    rfl

namespace Server

variable {H U : Type} {hd : Handler H U} {s t : Server H} {r : Resolution}

/-- The number of accepts outstanding on each acceptor. -/
def outstanding (s : Server H) : List ℕ :=
  s.acceptors.map fun a => a.accepts.length

/-- The acceptors that the connections were created for, in the order of creation. -/
def targets (s : Server H) : List ℕ :=
  s.connections.map Slot.acceptor

/-- Each connection that an acceptor waits to fill was created for that acceptor. -/
def Paired (s : Server H) : Prop :=
  ∀ (j : ℕ) (a : Acceptor) (i : ℕ), s.acceptors[j]? = some a → i ∈ a.accepts →
    s.targets[i]? = some j

theorem forall_outstanding {p : ℕ → Prop} :
    (∀ k ∈ s.outstanding, p k) ↔ ∀ a ∈ s.acceptors, p a.accepts.length :=
  List.forall_mem_map

/-! ## Which acceptor a connection is for -/

theorem targets_setState (i : ℕ) (state : SlotState H) : (s.setState i state).targets = s.targets :=
  map_modify fun _ => rfl

theorem targets_asyncAccept (tls : Bool) (j : ℕ) :
    (s.asyncAccept tls j).targets = s.targets ++ [j] := by
  simp [targets, asyncAccept]

namespace Paired

theorem mono (hs : Paired s) (htargets : t.targets = s.targets)
    (haccepts : ∀ (j : ℕ) (a : Acceptor) (i : ℕ), t.acceptors[j]? = some a → i ∈ a.accepts →
      ∃ a' : Acceptor, s.acceptors[j]? = some a' ∧ i ∈ a'.accepts) : Paired t := by
  intro j a i ha hi
  obtain ⟨a', ha', hi'⟩ := haccepts j a i ha hi
  rw [htargets]
  exact hs j a' i ha' hi'

theorem of_eq (hs : Paired s) (htargets : t.targets = s.targets)
    (hacceptors : t.acceptors = s.acceptors) : Paired t :=
  hs.mono htargets fun _ a _ ha hi => ⟨a, hacceptors ▸ ha, hi⟩

theorem asyncAccept (hs : Paired s) (tls : Bool) (j : ℕ) : Paired (s.asyncAccept tls j) := by
  intro m a i ha hi
  have hkeeps : ∀ {m i : ℕ}, s.targets[i]? = some m → (s.targets ++ [j])[i]? = some m := by
    intro m i hi
    obtain ⟨hlt, -⟩ := List.getElem?_eq_some_iff.mp hi
    rw [List.getElem?_append_left hlt, hi]
  rw [targets_asyncAccept]
  change (s.acceptors.modify j _)[m]? = some a at ha
  by_cases hjm : j = m
  · subst hjm
    rw [List.getElem?_modify_eq] at ha
    obtain ⟨a', ha', rfl⟩ := Option.map_eq_some_iff.mp ha
    rcases List.mem_append.mp hi with hold | hnew
    · exact hkeeps (hs j a' i ha' hold)
    · have hlength : s.targets.length = s.connections.length := List.length_map _
      rw [List.mem_singleton.mp hnew, ← hlength]
      exact List.getElem?_concat_length
  · rw [List.getElem?_modify_ne _ _ hjm] at ha
    exact hkeeps (hs m a i ha hi)

theorem completeAccept (hs : Paired s) (j k : ℕ) : Paired (s.completeAccept j k) := by
  refine hs.mono rfl ?_
  intro m a i ha hi
  change (s.acceptors.modify j _)[m]? = some a at ha
  by_cases hjm : j = m
  · subst hjm
    rw [List.getElem?_modify_eq] at ha
    obtain ⟨a', ha', rfl⟩ := Option.map_eq_some_iff.mp ha
    exact ⟨a', ha', List.eraseIdx_subset hi⟩
  · rw [List.getElem?_modify_ne _ _ hjm] at ha
    exact ⟨a, ha, hi⟩

theorem stop (hs : Paired s) : Paired s.stop := by
  refine hs.mono rfl ?_
  intro j a i ha hi
  change (s.acceptors.map Acceptor.close)[j]? = some a at ha
  rw [List.getElem?_map] at ha
  obtain ⟨a', ha', rfl⟩ := Option.map_eq_some_iff.mp ha
  exact ⟨a', ha', hi⟩

theorem setState (hs : Paired s) (i : ℕ) (state : SlotState H) : Paired (s.setState i state) :=
  hs.of_eq (targets_setState i state) rfl

theorem useAcceptor (hs : Paired s) (slot : Slot H) : Paired (s.useAcceptor slot) :=
  hs.of_eq rfl rfl

theorem acceptHandler (hs : Paired s) (w ioService i : ℕ) (slot : Slot H) (outcome : Accept) :
    Paired (s.acceptHandler hd w ioService i slot outcome) := by
  have heffect := acceptHandler_cases hd s w ioService i slot outcome
  generalize s.acceptHandler hd w ioService i slot outcome = t at heffect ⊢
  cases heffect with
  | failed => exact ((hs.setState i .failed).useAcceptor slot).asyncAccept _ _
  | throws _ _ _ => exact hs.setState i .dropped
  | starts _ _ _ _ _ c =>
      exact Paired.asyncAccept (Paired.useAcceptor (hs.setState i (.accepted c)) slot) _ _

theorem bind (hs : Paired s) : Paired (s.bind r).2 := by
  obtain ⟨hadded, -⟩ := @bind_spec H s r
  refine hs.mono (hadded.map_connections fun _ => rfl) ?_
  intro j a i ha hi
  rw [hadded.acceptors, List.getElem?_append] at ha
  split_ifs at ha
  · exact ⟨a, ha, hi⟩
  · -- a new acceptor waits for nothing
    rw [accepts_acceptorsFrom (List.mem_of_getElem? ha)] at hi
    cases hi

theorem listen (hs : Paired s) : Paired (s.listen r).2 := by
  by_cases hbinds : s.Binds r
  · rw [listen_of_binds hbinds]
    exact startAccepts_keeps (fun _ tls j hs => hs.asyncAccept tls j) hs.bind
  · obtain ⟨exception, hthrows⟩ := listen_of_not_binds hbinds
    rw [hthrows]
    exact hs.bind

theorem step {e : Event U} (hs : Paired s) (hstep : s.step hd e = some t) : Paired t := by
  cases step_cases hstep with
  | setSslContext _ | workerReturns _ _ _ => exact hs.of_eq rfl rfl
  | listen resolution => exact hs.listen
  | stop => exact hs.stop
  | notHandler w i e slot c d _ _ _ _ => exact hs.setState i _
  | handler w i e slot c d step _ _ _ _ _ => exact hs.setState i _
  | accept w j k outcome a i slot _ _ _ _ => exact (hs.completeAccept j k).acceptHandler _ _ _ _ _

end Paired

/-! ## Where the acceptors are -/

/-- Every handler finds its acceptor, and so has every handler before. -/
structure InPlace (s : Server H) : Prop where
  defined : s.undefined = false
  slots : ∀ slot ∈ s.connections, slot.dangling = false

namespace InPlace

theorem setState (hs : InPlace s) (i : ℕ) (state : SlotState H) : InPlace (s.setState i state) where
  defined := hs.defined
  slots := forall_mem_modify (fun _ hslot => hslot) hs.slots

theorem useAcceptor (hs : InPlace s) {slot : Slot H} (hslot : slot.dangling = false) :
    InPlace (s.useAcceptor slot) where
  defined := by
    change (s.undefined || slot.dangling) = false
    rw [hs.defined, hslot]
    rfl
  slots := hs.slots

theorem asyncAccept (hs : InPlace s) (tls : Bool) (j : ℕ) : InPlace (s.asyncAccept tls j) where
  defined := hs.defined
  slots := by
    intro slot hslot
    rcases List.mem_append.mp hslot with hold | hnew
    · exact hs.slots slot hold
    · rw [List.mem_singleton.mp hnew]

theorem acceptHandler (hs : InPlace s) (w ioService i : ℕ) {slot : Slot H}
    (hslot : slot.dangling = false) (outcome : Accept) :
    InPlace (s.acceptHandler hd w ioService i slot outcome) := by
  have heffect := acceptHandler_cases hd s w ioService i slot outcome
  generalize s.acceptHandler hd w ioService i slot outcome = t at heffect ⊢
  cases heffect with
  | failed => exact ((hs.setState i .failed).useAcceptor hslot).asyncAccept _ _
  | throws _ _ _ =>
      have hdropped := hs.setState i .dropped
      exact ⟨hdropped.defined, hdropped.slots⟩
  | starts _ _ _ first second c =>
      have hexecuted : InPlace (((s.execute w ioService i .setOption).execute w ioService i
          first).execute w ioService i second) := ⟨hs.defined, hs.slots⟩
      exact ((hexecuted.setState i (.accepted c)).useAcceptor hslot).asyncAccept _ _

/-- Only `bind` moves acceptors. -/
theorem step {e : Event U} (hs : InPlace s) (hlisten : e.isListen = false)
    (hstep : s.step hd e = some t) : InPlace t := by
  cases step_cases hstep with
  | listen resolution => cases hlisten
  | setSslContext _ | stop | workerReturns _ _ _ => exact ⟨hs.defined, hs.slots⟩
  | notHandler w i e slot c d _ _ _ _ => exact hs.setState i _
  | handler w i e slot c d step _ _ _ _ _ =>
      have hset := hs.setState i (.accepted d)
      exact ⟨hset.defined, hset.slots⟩
  | accept w j k outcome a i slot _ _ hslot _ =>
      have hcompleted : InPlace (s.completeAccept j k) := ⟨hs.defined, hs.slots⟩
      exact hcompleted.acceptHandler _ _ _ (hs.slots slot (List.mem_of_getElem? hslot)) _

/-- The first `listen` has moved its acceptors before it starts an accept. -/
theorem listen (hdefined : s.undefined = false) (hnone : s.connections = []) :
    InPlace (s.listen r).2 := by
  obtain ⟨hadded, -⟩ := @bind_spec H s r
  have hbind : InPlace (s.bind r).2 := by
    constructor
    · rw [hadded.eq]
      exact hdefined
    · have hnone' : (s.bind r).2.connections = [] := by
        rcases hadded.connections with hsame | hsame <;> rw [hsame, hnone]
        rfl
      rw [hnone']
      exact List.forall_mem_nil _
  by_cases hbinds : s.Binds r
  · rw [listen_of_binds hbinds]
    have hstarted := startAccepts_keeps (fun _ tls j hs => hs.asyncAccept tls j) hbind
    exact ⟨hstarted.defined, hstarted.slots⟩
  · obtain ⟨exception, hthrows⟩ := listen_of_not_binds hbinds
    rw [hthrows]
    exact hbind

end InPlace

/-! ## How many accepts are outstanding -/

theorem outstanding_asyncAccept (tls : Bool) (j : ℕ) :
    (s.asyncAccept tls j).outstanding = s.outstanding.modify j (· + 1) :=
  map_modify_comm fun _ _ => List.length_append

theorem outstanding_completeAccept {j k i : ℕ} {a : Acceptor} (ha : s.acceptors[j]? = some a)
    (hi : a.accepts[k]? = some i) :
    (s.completeAccept j k).outstanding = s.outstanding.modify j (· - 1) := by
  apply map_modify_comm
  intro a' ha'
  cases ha.symm.trans ha'
  obtain ⟨hk, -⟩ := List.getElem?_eq_some_iff.mp hi
  exact List.length_eraseIdx_of_lt hk

/-- The accept that completes and the next one. -/
theorem modify_pred_succ {l : List ℕ} {j k : ℕ} (hk : l[j]? = some k) (hpos : 0 < k) :
    (l.modify j (· - 1)).modify j (· + 1) = l := by
  rw [List.modify_modify_eq]
  apply List.ext_getElem?
  intro i
  by_cases hji : j = i
  · subst hji
    rw [List.getElem?_modify_eq, hk]
    exact congrArg some (Nat.sub_add_cancel hpos)
  · exact List.getElem?_modify_ne _ _ hji

theorem outstanding_startAccepts : s.startAccepts.outstanding = s.outstanding.map (· + 1) := by
  have hfold : ∀ (js : List ℕ) (s : Server H),
      (js.foldl (fun s j => if s.sslContext then s.startAcceptTls j else s.startAccept j)
        s).outstanding = js.foldl (fun l j => l.modify j (· + 1)) s.outstanding := by
    intro js
    induction js with
    | nil => exact fun s => rfl
    | cons j js ih =>
        intro s
        rw [List.foldl_cons, List.foldl_cons, ih, asyncAccept_eq, outstanding_asyncAccept]
  have hlength : s.acceptors.length = s.outstanding.length := (List.length_map _).symm
  rw [startAccepts, hfold, hlength, foldl_modify_range]

/-- The acceptors of `bind` wait for nothing. -/
theorem outstanding_bind : ∃ m, (s.bind r).2.outstanding = s.outstanding ++ List.replicate m 0 := by
  refine ⟨(s.workingAcceptors (bound r)).length, ?_⟩
  rw [outstanding, bind_spec.1.acceptors, List.map_append]
  congr 1
  rw [List.map_eq_replicate_iff]
  intro a ha
  rw [accepts_acceptorsFrom ha]
  rfl

/-! ## One step -/

/-- The handler of the accept throws. -/
def Event.throws : Event U → Bool
  | .accept _ _ _ (.succeeded noDelay _) => noDelay.failed
  | _ => false

/-- A thread has ended by an exception. -/
def Threw (s : Server H) : Prop :=
  ∃ worker ∈ s.pool.workers, worker.Threw

theorem not_threw_running {ioService : ℕ} : ¬ Worker.Threw ⟨ioService, .running⟩ := by
  rintro ⟨exception, h⟩
  cases h

theorem threw_workerReturns {w : ℕ} (hrunning : s.pool.isRunning w = true) :
    Threw { s with pool := s.pool.finish w .returned } ↔ s.Threw := by
  obtain ⟨before, ioService, after, hworkers, hfinish⟩ := IoServicePool.finish_split hrunning
  have hreturned : ¬ Worker.Threw ⟨ioService, .returned⟩ := by
    rintro ⟨exception, h⟩
    cases h
  unfold Threw
  rw [hworkers, hfinish]
  simp [or_and_right, exists_or, not_threw_running, hreturned]

theorem threw_acceptThrows {w : ℕ} (hrunning : s.pool.isRunning w = true) (exception : Exception) :
    Threw { s with pool := s.pool.finish w (.threw exception) } := by
  obtain ⟨before, ioService, after, -, hfinish⟩ := IoServicePool.finish_split hrunning
  refine ⟨⟨ioService, .threw exception⟩, ?_, exception, rfl⟩
  change _ ∈ (s.pool.finish w (.threw exception)).workers
  rw [hfinish]
  exact List.mem_append_right _ List.mem_cons_self

/-- What a step other than a `listen` does to the accept loops. -/
inductive LoopEffect (s : Server H) (e : Event U) (t : Server H) : Prop
  /-- Whatever completes, as many accepts are outstanding as before. -/
  | kept (hthrows : e.throws = false) (houtstanding : t.outstanding = s.outstanding)
      (hthrew : t.Threw ↔ s.Threw)
  /-- The exception passes the next accept and ends the thread. -/
  | lost (hthrows : e.throws = true) (j : ℕ)
      (houtstanding : t.outstanding = s.outstanding.modify j (· - 1)) (hthrew : t.Threw)

theorem acceptHandler_loop (hs : s.Paired) {w j k i : ℕ} {a : Acceptor} {slot : Slot H}
    {outcome : Accept} (ha : s.acceptors[j]? = some a) (hi : a.accepts[k]? = some i)
    (hslot : s.connections[i]? = some slot) (hruns : s.pool.runs w = some a.ioService) :
    LoopEffect s (.accept w j k outcome : Event U)
      ((s.completeAccept j k).acceptHandler hd w a.ioService i slot outcome) := by
  have hcompleted := outstanding_completeAccept ha hi
  -- the next accept is started on the acceptor whose accept has completed
  have htarget : slot.acceptor = j := by
    have hpaired := hs j a i ha (List.mem_of_getElem? hi)
    rw [targets, List.getElem?_map, hslot] at hpaired
    exact Option.some.inj hpaired
  have hrearmed : (s.outstanding.modify j (· - 1)).modify j (· + 1) = s.outstanding := by
    have hcount : s.outstanding[j]? = some a.accepts.length := by
      rw [outstanding, List.getElem?_map, ha]
      rfl
    exact modify_pred_succ hcount (List.length_pos_of_mem (List.mem_of_getElem? hi))
  have heffect := acceptHandler_cases hd (s.completeAccept j k) w a.ioService i slot outcome
  generalize (s.completeAccept j k).acceptHandler hd w a.ioService i slot outcome = t at heffect ⊢
  cases heffect with
  | failed =>
      refine .kept rfl ?_ Iff.rfl
      rw [outstanding_asyncAccept, htarget, ← hrearmed, ← hcompleted]
      rfl
  | throws noDelay _ hthrows =>
      refine .lost hthrows j hcompleted ?_
      exact threw_acceptThrows (IoServicePool.isRunning_of_runs hruns) _
  | starts noDelay _ hreturns _ _ _ =>
      refine .kept hreturns ?_ Iff.rfl
      rw [outstanding_asyncAccept, htarget, ← hrearmed, ← hcompleted]
      rfl

theorem step_loop {e : Event U} (hs : s.Paired) (hlisten : e.isListen = false)
    (hstep : s.step hd e = some t) : LoopEffect s e t := by
  cases step_cases hstep with
  | listen resolution => cases hlisten
  | setSslContext _ | notHandler _ _ _ _ _ _ _ _ _ _ | handler _ _ _ _ _ _ _ _ _ _ _ _ =>
      exact .kept rfl rfl Iff.rfl
  | stop =>
      refine .kept rfl ?_ Iff.rfl
      exact (List.map_map ..).trans rfl
  | workerReturns w _ hrunning => exact .kept rfl rfl (threw_workerReturns hrunning)
  | accept w j k outcome a i slot ha hi hslot hruns => exact acceptHandler_loop hs ha hi hslot hruns

/-! ## No loop is lost -/

/-- Until the server is stopped every acceptor waits for a connection, and no thread has
ended by an exception. -/
structure Serving (s : Server H) : Prop where
  accepting : s.pool.stopped = false → ∀ a ∈ s.acceptors, a.accepts ≠ []
  noException : ¬ s.Threw

theorem serving_iff :
    s.Serving ↔ (s.pool.stopped = false → ∀ k ∈ s.outstanding, k ≠ 0) ∧ ¬ s.Threw := by
  simp only [forall_outstanding, ne_eq, List.length_eq_zero_iff]
  exact ⟨fun hs => ⟨hs.1, hs.2⟩, fun hs => ⟨hs.1, hs.2⟩⟩

theorem stopped_acceptHandler {w ioService i : ℕ} {slot : Slot H} {outcome : Accept} :
    (s.acceptHandler hd w ioService i slot outcome).pool.stopped = s.pool.stopped := by
  have heffect := acceptHandler_cases hd s w ioService i slot outcome
  generalize s.acceptHandler hd w ioService i slot outcome = t at heffect ⊢
  cases heffect <;> rfl

theorem stopped_of_step {e : Event U} (hlisten : e.isListen = false)
    (hstep : s.step hd e = some t) (hstopped : t.pool.stopped = false) :
    s.pool.stopped = false := by
  cases step_cases hstep with
  | listen resolution => cases hlisten
  | stop => cases hstopped
  | setSslContext _ | workerReturns _ _ _ | notHandler _ _ _ _ _ _ _ _ _ _
  | handler _ _ _ _ _ _ _ _ _ _ _ _ => exact hstopped
  | accept w j k outcome a i slot _ _ _ _ =>
      rw [stopped_acceptHandler] at hstopped
      exact hstopped

theorem serving_step {e : Event U} (hs : s.Paired) (hserving : s.Serving)
    (hlisten : e.isListen = false) (hstep : s.step hd e = some t) :
    t.Serving ↔ e.throws = false := by
  cases step_loop hs hlisten hstep with
  | kept hthrows houtstanding hthrew =>
      refine iff_of_true (serving_iff.mpr ⟨?_, ?_⟩) hthrows
      · intro hstopped
        rw [houtstanding]
        exact (serving_iff.mp hserving).1 (stopped_of_step hlisten hstep hstopped)
      · rw [hthrew]
        exact hserving.noException
  | lost hthrows j _ hthrew =>
      refine iff_of_false (fun ht => ht.noException hthrew) ?_
      rw [hthrows]
      decide

/-! ## No loop is doubled -/

/-- No acceptor has more than one accept outstanding.  Of a program that has used a
dangling reference this cannot be said. -/
structure SingleLoops (s : Server H) : Prop where
  defined : s.undefined = false
  single : ∀ a ∈ s.acceptors, a.accepts.length ≤ 1

/-- If the event is a `listen` and some acceptor accepts already, then its `bind` throws.
If it is an accept whose handler comes to the next one, the acceptor is where it was when
this one was started. -/
def AddsNoLoop (s : Server H) (e : Event U) : Prop :=
  match e with
  | .listen r => (∃ a ∈ s.acceptors, a.accepts ≠ []) → ¬ s.Binds r
  | .accept _ j k _ => e.throws = false → ∀ a i slot, s.acceptors[j]? = some a →
      a.accepts[k]? = some i → s.connections[i]? = some slot → slot.dangling = false
  | _ => True

theorem singleLoops_iff :
    s.SingleLoops ↔ s.undefined = false ∧ ∀ k ∈ s.outstanding, k ≤ 1 := by
  rw [@forall_outstanding H s (· ≤ 1)]
  exact ⟨fun hs => ⟨hs.1, hs.2⟩, fun hs => ⟨hs.1, hs.2⟩⟩

theorem undefined_listen : (s.listen r).2.undefined = s.undefined := by
  have hbind : (s.bind r).2.undefined = s.undefined := by rw [bind_spec.1.eq]
  by_cases hbinds : s.Binds r
  · rw [listen_of_binds hbinds]
    exact startAccepts_keeps (P := fun t => t.undefined = s.undefined)
      (fun _ _ _ hsame => hsame) hbind
  · obtain ⟨exception, hthrows⟩ := listen_of_not_binds hbinds
    rw [hthrows, hbind]

/-- The handler uses the reference unless it throws first. -/
theorem undefined_acceptHandler {w ioService i j k : ℕ} {slot : Slot H} {outcome : Accept}
    (hdefined : s.undefined = false) :
    (s.acceptHandler hd w ioService i slot outcome).undefined = false ↔
      ((.accept w j k outcome : Event U).throws = false → slot.dangling = false) := by
  have heffect := acceptHandler_cases hd s w ioService i slot outcome
  generalize s.acceptHandler hd w ioService i slot outcome = t at heffect ⊢
  cases heffect with
  | failed =>
      change (s.undefined || slot.dangling) = false ↔ (false = false → _)
      simp [hdefined]
  | throws noDelay _ hthrows =>
      change s.undefined = false ↔ (noDelay.failed = false → _)
      simp [hdefined, hthrows]
  | starts noDelay _ hreturns _ _ _ =>
      change (s.undefined || slot.dangling) = false ↔ (noDelay.failed = false → _)
      simp [hdefined, hreturns]

/-- The accepts outstanding after a `listen`. -/
theorem outstanding_listen : ∃ m,
    (s.Binds r → (s.listen r).2.outstanding =
      (s.outstanding ++ List.replicate m 0).map (· + 1)) ∧
    (¬ s.Binds r → (s.listen r).2.outstanding = s.outstanding ++ List.replicate m 0) := by
  obtain ⟨m, hbind⟩ := @outstanding_bind H s r
  refine ⟨m, ?_, ?_⟩
  · intro hbinds
    rw [listen_of_binds hbinds, ← hbind, ← outstanding_startAccepts]
    rfl
  · intro hbinds
    obtain ⟨exception, hthrows⟩ := listen_of_not_binds hbinds
    rw [hthrows, ← hbind]

theorem singleLoops_listen (hs : s.SingleLoops) :
    (s.listen r).2.SingleLoops ↔ ((∃ a ∈ s.acceptors, a.accepts ≠ []) → ¬ s.Binds r) := by
  obtain ⟨m, hreturns, hthrows⟩ := @outstanding_listen H s r
  have hbusy : (∃ a ∈ s.acceptors, a.accepts ≠ []) ↔ ¬ ∀ k ∈ s.outstanding, k = 0 := by
    simp [forall_outstanding]
  obtain ⟨hdefined, hsingle⟩ := singleLoops_iff.mp hs
  rw [hbusy, not_imp_not, singleLoops_iff, undefined_listen, and_iff_right hdefined]
  by_cases hbinds : s.Binds r
  · rw [hreturns hbinds, List.forall_mem_map, List.forall_mem_append]
    constructor
    · rintro ⟨hidle, -⟩ _ k hk
      have hle := hidle k hk
      omega
    · intro hidle
      refine ⟨?_, ?_⟩
      · intro k hk
        rw [hidle hbinds k hk]
      · intro k hk
        rw [List.eq_of_mem_replicate hk]
  · rw [hthrows hbinds, List.forall_mem_append]
    refine iff_of_true ⟨hsingle, ?_⟩ fun h => absurd h hbinds
    intro k hk
    rw [List.eq_of_mem_replicate hk]
    exact Nat.zero_le 1

theorem le_of_mem_modify_pred {l : List ℕ} {j : ℕ} (hl : ∀ k ∈ l, k ≤ 1) :
    ∀ k ∈ l.modify j (· - 1), k ≤ 1 :=
  forall_mem_modify (fun k hk => (Nat.sub_le k 1).trans hk) hl

/-- A step that is no `listen` keeps the loops single, if its handler finds its acceptor. -/
theorem singleLoops_other {e : Event U} (hs : s.Paired) (hsingle : s.SingleLoops)
    (hlisten : e.isListen = false) (hstep : s.step hd e = some t) :
    t.SingleLoops ↔ t.undefined = false := by
  rw [singleLoops_iff]
  apply and_iff_left
  have hbefore := (singleLoops_iff.mp hsingle).2
  cases step_loop hs hlisten hstep with
  | kept _ houtstanding _ =>
      rw [houtstanding]
      exact hbefore
  | lost _ j houtstanding _ =>
      rw [houtstanding]
      exact le_of_mem_modify_pred hbefore

theorem singleLoops_step {e : Event U} (hs : s.Paired) (hsingle : s.SingleLoops)
    (hstep : s.step hd e = some t) : t.SingleLoops ↔ s.AddsNoLoop e := by
  by_cases hlisten : e.isListen = true
  · cases e with
    | listen resolution =>
        cases hstep
        exact singleLoops_listen hsingle
    | _ => cases hlisten
  · rw [singleLoops_other hs hsingle (by simpa using hlisten) hstep]
    cases step_cases hstep with
    | listen resolution => exact absurd rfl hlisten
    | setSslContext _ | stop | workerReturns _ _ _ | notHandler _ _ _ _ _ _ _ _ _ _
    | handler _ _ _ _ _ _ _ _ _ _ _ _ => exact iff_of_true hsingle.defined trivial
    | accept w j k outcome a i slot ha hi hslot _ =>
        have hdefined : (s.completeAccept j k).undefined = false := hsingle.defined
        rw [undefined_acceptHandler (j := j) (k := k) (U := U) hdefined]
        refine imp_congr_right fun _ => ?_
        constructor
        · intro hplace a' i' slot' ha' hi' hslot'
          cases ha.symm.trans ha'
          cases hi.symm.trans hi'
          cases hslot.symm.trans hslot'
          exact hplace
        · intro hplace
          exact hplace a i slot ha hi hslot

end Server

/-! ## Runs -/

section

variable {H U : Type} {hd : Handler H U} {s t : Server H} {n endpointCount : ℕ}

theorem paired_invariant : (server hd).Invariant Server.Paired where
  init := by
    rintro _ ⟨poolSize, pool, timeouts, -, rfl⟩ j a i ha
    cases ha
  step _ _ _ hs hstep := hs.step hstep

theorem listening_paired : (listening hd n endpointCount).Invariant Server.Paired where
  init _ hinit := paired_invariant.reachable (reachable_server (.of_init hinit))
  step := by
    intro s e t hs hstep
    dsimp only [listening] at hstep
    split_ifs at hstep
    exact hs.step hstep

/-- After one `listen` no handler ever uses a dangling reference. -/
theorem listening_inPlace : (listening hd n endpointCount).Invariant Server.InPlace where
  init := by
    rintro s ⟨pool, timeouts, sslContext, r, -, -, hlisten⟩
    have hplace := @Server.InPlace.listen H
      { pool := pool, timeouts := timeouts, sslContext := sslContext } r rfl rfl
    rwa [hlisten] at hplace
  step := by
    intro s e t hs hstep
    dsimp only [listening] at hstep
    split_ifs at hstep with hlisten
    exact hs.step (by simpa using hlisten) hstep

theorem listening_serving (hinit : (listening hd n endpointCount).init s) : s.Serving := by
  obtain ⟨pool, timeouts, sslContext, r, hmake, -, hlisten⟩ := hinit
  generalize hnew : ({ pool := pool, timeouts := timeouts, sslContext := sslContext } :
    Server H) = new at hlisten
  by_cases hbinds : new.Binds r
  · obtain ⟨m, hreturns, -⟩ := @Server.outstanding_listen H new r
    rw [Server.serving_iff]
    refine ⟨fun _ => ?_, ?_⟩
    · have heq : s = (new.listen r).2 := by rw [hlisten]
      rw [heq, hreturns hbinds, List.forall_mem_map]
      exact fun k _ => Nat.succ_ne_zero k
    · rw [Server.listen_of_binds hbinds] at hlisten
      cases hlisten
      rintro ⟨worker, hworker, exception, hthrew⟩
      change worker ∈ (Server.startAccepts _).pool.workers ++ _ at hworker
      rw [Server.startAccepts_frame.1, Server.bind_spec.1.workers] at hworker
      subst hnew
      change worker ∈ pool.workers ++ _ at hworker
      rw [(IoServicePool.make_eq_ok hmake).2, List.nil_append] at hworker
      obtain ⟨ioService, -, rfl⟩ := List.mem_map.mp hworker
      cases hthrew
  · obtain ⟨exception, hthrows⟩ := Server.listen_of_not_binds hbinds
    cases hthrows.symm.trans hlisten

/-- After one `listen`, every acceptor waits for a connection in every state before a stop
and no exception ends a thread, exactly if no `set_option` of an accept handler throws. -/
theorem serving_iff_meets {events : List (Server.Event U)}
    (hinit : (listening hd n endpointCount).init s)
    (hrun : (listening hd n endpointCount).run s events = some t) :
    (listening hd n endpointCount).Always Server.Serving s events ↔
      (listening hd n endpointCount).Meets (fun _ e => e.throws = false) s events := by
  refine System.always_iff_meets listening_paired ?_ (listening_paired.init s hinit)
    (listening_serving hinit) hrun
  intro s e t hs hserving hstep
  dsimp only [listening] at hstep
  split_ifs at hstep with hlisten
  exact Server.serving_step hs hserving (by simpa using hlisten) hstep

/-- An accept fails, another succeeds, and the timer of the connection goes off. -/
theorem serving_iff_meets_secondAccept :
    ∃ t, (listening dummyHandler 2 1).run listeningOnTwo secondAccept = some t ∧
      (listening dummyHandler 2 1).Always Server.Serving listeningOnTwo secondAccept := by
  obtain ⟨t, hrun⟩ : ∃ t, (listening dummyHandler 2 1).run listeningOnTwo secondAccept = some t :=
    ⟨_, rfl⟩
  refine ⟨t, hrun, (serving_iff_meets listeningOnTwo_init hrun).mpr ?_⟩
  refine (System.meets_cons rfl).mpr ⟨rfl, ?_⟩
  refine (System.meets_cons rfl).mpr ⟨rfl, ?_⟩
  exact (System.meets_cons rfl).mpr ⟨rfl, trivial⟩

/-- The peer is gone when the option is set. -/
def peerGone : List (Server.Event Unit) :=
  [.accept 1 0 0 (.succeeded ⟨22, "system"⟩ 0)]

theorem not_serving_peerGone :
    ∃ t, (listening dummyHandler 2 1).init listeningOnTwo ∧
      (listening dummyHandler 2 1).run listeningOnTwo peerGone = some t ∧
      t.pool.stopped = false ∧ t.outstanding = [0] ∧
      t.pool.workers = [⟨0, .running⟩, ⟨1, .threw (.systemError ⟨22, "system"⟩)⟩] ∧
      ¬ (listening dummyHandler 2 1).Always Server.Serving listeningOnTwo peerGone := by
  obtain ⟨t, hrun, hstopped, houtstanding, hworkers⟩ :
      ∃ t, (listening dummyHandler 2 1).run listeningOnTwo peerGone = some t ∧
        t.pool.stopped = false ∧ t.outstanding = [0] ∧
        t.pool.workers = [⟨0, .running⟩, ⟨1, .threw (.systemError ⟨22, "system"⟩)⟩] :=
    ⟨_, rfl, rfl, rfl, rfl⟩
  refine ⟨t, listeningOnTwo_init, hrun, hstopped, houtstanding, hworkers, ?_⟩
  intro halways
  have hserving := halways peerGone t (List.prefix_refl _) hrun
  apply hserving.noException
  rw [Server.Threw, hworkers]
  exact ⟨_, List.mem_cons_of_mem _ List.mem_cons_self, _, rfl⟩

/-- Over any run of a server, no acceptor ever has two accepts outstanding, exactly if
every `listen` that finds an acceptor accepting already is one whose `bind` throws, and
no handler comes to the next accept when the acceptors have moved since the last one. -/
theorem singleLoops_iff_meets {events : List (Server.Event U)} (hinit : (server hd).init s)
    (hrun : (server hd).run s events = some t) :
    (server hd).Always Server.SingleLoops s events ↔
      (server hd).Meets Server.AddsNoLoop s events := by
  have hsingle : s.SingleLoops := by
    obtain ⟨poolSize, pool, timeouts, -, rfl⟩ := hinit
    exact ⟨rfl, List.forall_mem_nil _⟩
  refine System.always_iff_meets paired_invariant ?_ (paired_invariant.init s hinit) hsingle hrun
  intro s e t hs hsingle hstep
  exact Server.singleLoops_step hs hsingle hstep

theorem newServer_init : (server dummyHandler).init newServer :=
  ⟨1, _, _, rfl, rfl⟩

/-- The second address cannot be resolved. -/
def unresolved : Resolution :=
  ⟨⟨1, "netdb"⟩, []⟩

/-- Two calls of `listen` throw, the second one after it has moved the acceptor; the accept
that was outstanding then completes, and its handler throws as well. -/
def triesAgain : List (Server.Event Unit) :=
  [.listen oneEndpoint, .accept 0 0 0 .failed, .listen unresolved, .listen inUseAtListen,
    .accept 0 0 0 (.succeeded ⟨22, "system"⟩ 0)]

theorem singleLoops_iff_meets_unresolved :
    ∃ t, (server dummyHandler).run newServer triesAgain = some t ∧ t.outstanding = [0, 0] ∧
      (server dummyHandler).Always Server.SingleLoops newServer triesAgain := by
  obtain ⟨t, hrun, houtstanding⟩ : ∃ t, (server dummyHandler).run newServer triesAgain = some t ∧
      t.outstanding = [0, 0] := ⟨_, rfl, rfl⟩
  refine ⟨t, hrun, houtstanding, (singleLoops_iff_meets newServer_init hrun).mpr ?_⟩
  refine (System.meets_cons rfl).mpr ⟨?_, ?_⟩
  · -- the server has no acceptors yet
    rintro ⟨a, ha, -⟩
    cases ha
  refine (System.meets_cons rfl).mpr ⟨?_, ?_⟩
  · rintro - a i slot ⟨⟩ ⟨⟩ ⟨⟩
    rfl
  refine (System.meets_cons rfl).mpr ⟨?_, ?_⟩
  · rintro - ⟨hresolved, -⟩
    cases hresolved
  refine (System.meets_cons rfl).mpr ⟨?_, ?_⟩
  · rintro - ⟨-, hreturns, -⟩
    -- `listen` throws on the second endpoint
    cases hreturns ⟨.success, .success, .success, addressInUse, 0⟩
      (List.mem_cons_of_mem _ List.mem_cons_self)
  refine (System.meets_cons rfl).mpr ⟨?_, trivial⟩
  intro hreturns
  cases hreturns

/-- The server listens on two addresses.  Or it listens on one, the next `listen` adds an
acceptor and throws, and then an accept completes. -/
theorem not_singleLoops_twice :
    ∃ t u, (server dummyHandler).init newServer ∧
      (server dummyHandler).run newServer [.listen oneEndpoint, .listen oneEndpoint] = some t ∧
      t.outstanding = [2, 1] ∧ t.undefined = false ∧
      ¬ (server dummyHandler).Always Server.SingleLoops newServer
        [.listen oneEndpoint, .listen oneEndpoint] ∧
      (server dummyHandler).run newServer
        [.listen oneEndpoint, .listen inUseAtListen, .accept 0 0 0 .failed] = some u ∧
      u.undefined = true ∧
      ¬ (server dummyHandler).Always Server.SingleLoops newServer
        [.listen oneEndpoint, .listen inUseAtListen, .accept 0 0 0 .failed] := by
  obtain ⟨t, ht, houtstanding, hdefined⟩ : ∃ t, (server dummyHandler).run newServer
      [.listen oneEndpoint, .listen oneEndpoint] = some t ∧ t.outstanding = [2, 1] ∧
      t.undefined = false := ⟨_, rfl, rfl, rfl⟩
  obtain ⟨u, hu, hundefined⟩ : ∃ u, (server dummyHandler).run newServer
      [.listen oneEndpoint, .listen inUseAtListen, .accept 0 0 0 .failed] = some u ∧
      u.undefined = true := ⟨_, rfl, rfl⟩
  refine ⟨t, u, newServer_init, ht, houtstanding, hdefined, ?_, hu, hundefined, ?_⟩
  · intro halways
    obtain ⟨-, hsingle⟩ := Server.singleLoops_iff.mp (halways _ t (List.prefix_refl _) ht)
    rw [houtstanding] at hsingle
    have htwo := hsingle 2 List.mem_cons_self
    omega
  · intro halways
    have hgood := (halways _ u (List.prefix_refl _) hu).defined
    cases hundefined.symm.trans hgood

end

end Http2Asio
