import Http2Asio.Connection.Effects
import Http2Asio.Session.Framing
import Http2Asio.Reentrancy.Machine

/-!
# nghttp2 is never re-entered

`callback_inside_` is a flag, set by the constructor of a `callback_guard` and cleared
by its destructor, whatever it was before; so one nested guard would leave it cleared
inside the outer one.  There is none.  `Shape` lists the stacks that occur: below the
library there is always exactly one guarded call, and the flag is set exactly then.  A
`signal_write` from inside a callback finds it set and returns at once; one from outside
finds it clear, with nothing guarded below it.

The proof is that every step goes from one of these shapes to another.

A stack grows at a call and shrinks at a return, and both are decided by the frame on top.  So
the shapes are given as what the machine is about to do (`Control`), with the frames below
it: `Caller` are the three ways to come to `write_data`, and `Executing` the stacks at whose
top the library runs.  `guarded_enter`, `guarded_leave` and `guarded_runLibrary` are the steps
inside a handler, `guarded_outside` those that begin one, where the stack is empty and the
flag is clear because every handler leaves it so (`inside_kept`).

`never_reentered` reads the shapes off: the number of guarded frames is the flag, and there
are no more library frames than guarded ones.
-/

namespace Http2Asio

open Transition

namespace Reentrancy

/-- A call of `on_read` or `on_write`, whose guard lives. -/
def Frame.guarded : Frame → Bool
  | .onRead => true
  | .onWrite _ => true
  | _ => false

/-- A library call. -/
def Frame.inLibrary : Frame → Bool
  | .library _ _ => true
  | _ => false

/-- A call of `on_read` or `on_write`. -/
def Call.guarded : Call → Bool
  | .onRead _ => true
  | .onWrite => true
  | _ => false

/-- A library call. -/
def Call.inLibrary : Call → Bool
  | .memRecv _ => true
  | .memSend => true
  | _ => false

/-- The stacks below a call of `write_data`. -/
inductive Caller : List Frame → Prop
  | readHandler : Caller [.readHandlerWrite]
  | writeHandler : Caller [.writeHandler]
  | signalWrite : Caller [.signalWrite]

/-- The stacks while the library is executing. -/
inductive Executing : List Frame → Prop
  | memRecv (rv : ℤ) (callbacks : List Callback) :
      Executing [.library (.memRecv rv) callbacks, .onRead, .readHandler]
  | memSend (result : MemSend) (callbacks : List Callback) (length : ℕ) {frames : List Frame}
      (hcaller : Caller frames) :
      Executing (.library (.memSend result) callbacks :: .onWrite length :: .writeData :: frames)

/-- The states of the machine: what it is about to do, the stack, and the flag. -/
inductive Shape : Control → List Frame → Bool → Prop
  | idle : Shape .idle [] false
  | enterOnRead (bytes : List UInt8) : Shape (.enter (.onRead bytes)) [.readHandler] false
  | enterMemRecv (bytes : List UInt8) : Shape (.enter (.memRecv bytes)) [.onRead, .readHandler] true
  | leaveMemRecv (rv : ℤ) : Shape (.leave (.library (.memRecv rv))) [.onRead, .readHandler] true
  | leaveOnRead (ok : Bool) : Shape (.leave (.onRead ok)) [.readHandler] false
  | enterWriteData {frames : List Frame} (hcaller : Caller frames) :
      Shape (.enter .writeData) frames false
  | enterOnWrite {frames : List Frame} (hcaller : Caller frames) :
      Shape (.enter .onWrite) (.writeData :: frames) false
  | enterMemSend (length : ℕ) {frames : List Frame} (hcaller : Caller frames) :
      Shape (.enter .memSend) (.onWrite length :: .writeData :: frames) true
  | leaveMemSend (result : MemSend) (length : ℕ) {frames : List Frame} (hcaller : Caller frames) :
      Shape (.leave (.library (.memSend result))) (.onWrite length :: .writeData :: frames) true
  | leaveOnWrite (ok : Bool) (length : ℕ) {frames : List Frame} (hcaller : Caller frames) :
      Shape (.leave (.onWrite ok length)) (.writeData :: frames) false
  | leaveWriteData {frames : List Frame} (hcaller : Caller frames) :
      Shape (.leave .unit) frames false
  | leaveHandler : Shape (.leave .unit) [] false
  | signalOutside : Shape (.enter .signalWrite) [] false
  | library {frames : List Frame} (hexecuting : Executing frames) : Shape .library frames true
  | user {frames : List Frame} (hexecuting : Executing frames) : Shape .user frames true
  | signalInside {frames : List Frame} (hexecuting : Executing frames) :
      Shape (.enter .signalWrite) (.callback :: frames) true
  | leaveInside {frames : List Frame} (hexecuting : Executing frames) :
      Shape (.leave .unit) (.callback :: frames) true

variable {G : Type} {ng : Nghttp2 G} {g : G}

/-- The flag, clear as long as there is no session. -/
def inside (c : Connection (Http2Session G)) : Bool :=
  match c.handler with
  | none => false
  | some s => s.callbackInside

theorem inside_of_handler {c : Connection (Http2Session G)} {s : Http2Session G}
    (hhandler : c.handler = some s) : inside c = s.callbackInside := by
  rw [inside, hhandler]

theorem inside_congr {c d : Connection (Http2Session G)} (hhandler : d.handler = c.handler) :
    inside d = inside c := by
  rw [inside, inside, hhandler]

@[simp] theorem inside_stop (c : Connection (Http2Session G)) (reason : StopReason) :
    inside (c.stop reason) = inside c :=
  inside_congr (Connection.handler_stop reason)

/-- The rest of a handler leaves the session as it is; `should_stop` only asks. -/
theorem handler_askShouldStop (c : Connection (Http2Session G)) :
    (c.askShouldStop (http2Handler ng g)).2.handler = c.handler := by
  unfold Connection.askShouldStop
  cases hhandler : c.handler with
  | none => exact hhandler
  | some s => rfl

theorem handler_afterOnWrite (c : Connection (Http2Session G)) (ok : Bool) (length : ℕ) :
    (c.afterOnWrite (http2Handler ng g) ok length).handler = c.handler := by
  unfold Connection.afterOnWrite
  dsimp only
  split_ifs
  · exact Connection.handler_stop _
  · rw [Connection.handler_stop, handler_askShouldStop]
  · exact handler_askShouldStop c
  · rfl

theorem handler_afterWriteData (c : Connection (Http2Session G)) :
    (c.afterWriteData (http2Handler ng g)).handler = c.handler := by
  unfold Connection.afterWriteData
  dsimp only
  split_ifs
  · rfl
  · rw [Connection.handler_stop, handler_askShouldStop]
  · exact handler_askShouldStop c

/-! ## Between the steps of a connection the flag is clear -/

theorem callbackInside_start (s : Http2Session G) :
    (s.start ng).2.callbackInside = s.callbackInside := by
  unfold Http2Session.start
  dsimp only
  split_ifs <;> rfl

/-- `on_read` and `on_write` have destroyed their guard when they return, and nothing else
touches the flag. -/
theorem inside_kept :
    Connection.Kept (http2Handler ng g)
      fun c : Connection (Http2Session G) => inside c = false where
  frame hclear hhandler _ _ := (inside_congr hhandler).trans hclear
  log hclear _ _ := hclear
  stop hclear _ := (inside_stop _ _).trans hclear
  start _ := callbackInside_start (Http2Session.make g)
  onRead _ _ _ := rfl
  onWrite _ _ := rfl
  shouldStop hclear _ hhandler := (inside_of_handler hhandler).symm.trans hclear
  submit hclear _ hhandler _ := (inside_of_handler hhandler).symm.trans hclear

/-- The invariant. -/
def Guarded (m : Machine G) : Prop :=
  Shape m.control m.stack (inside m.connection)

/-! ## The steps inside a handler -/

namespace Machine

variable {m : Machine G} {s : Http2Session G} {frames : List Frame}

theorem guarded_withSession {control : Control} {frames : List Frame} {flag : Bool}
    (hshape : Shape control frames flag) (hflag : s.callbackInside = flag) :
    Guarded ((m.withSession s).goto control frames) := by
  rw [← hflag] at hshape
  exact hshape

theorem guarded_goto {control : Control} {frames : List Frame} {flag : Bool}
    (hshape : Shape control frames flag) (hflag : inside m.connection = flag) :
    Guarded (m.goto control frames) := by
  rw [← hflag] at hshape
  exact hshape

theorem callbackInside_takeStash (s : Http2Session G) (buffer : List UInt8) :
    (s.takeStash ng buffer).2.2.callbackInside = s.callbackInside := by
  unfold Http2Session.takeStash
  split
  · rfl
  · rfl

theorem guarded_enter {call : Call} (hguarded : Guarded m)
    (hhandler : m.connection.handler = some s) (hcontrol : m.control = .enter call) :
    Guarded (m.enter ng s call) := by
  have hinside : inside m.connection = s.callbackInside := inside_of_handler hhandler
  obtain ⟨c, control, stack⟩ := m
  cases hcontrol
  have hshape : Shape (.enter call) stack (inside c) := hguarded
  generalize hflag : inside c = flag at hshape
  have hinside' : s.callbackInside = flag := hinside.symm.trans hflag
  cases hshape with
  | enterOnRead bytes => exact guarded_withSession (.enterMemRecv bytes) rfl
  | enterMemRecv bytes =>
      exact guarded_withSession (.library (.memRecv _ _)) hinside'
  | enterWriteData hcaller =>
      unfold enter
      dsimp only
      split_ifs with hwriting
      · exact guarded_goto (.leaveWriteData hcaller) hflag
      · exact guarded_goto (.enterOnWrite hcaller) hflag
  | enterOnWrite hcaller =>
      have hset : (s.enterGuard.takeStash ng c.writeBuffer).2.2.callbackInside = true :=
        callbackInside_takeStash _ _
      exact guarded_goto (.enterMemSend _ hcaller) hset
  | enterMemSend length hcaller =>
      exact guarded_withSession (.library (.memSend _ _ length hcaller)) hinside'
  | signalOutside =>
      -- the flag is clear, so the signal goes through, and nothing is on the stack
      have hthrough : s.signalWrite = true := by
        rw [Http2Session.signalWrite, hinside']
        rfl
      unfold enter
      dsimp only
      rw [if_pos hthrough]
      exact guarded_goto (.enterWriteData .signalWrite) hflag
  | signalInside hexecuting =>
      -- the flag is set, so the signal is swallowed
      have hswallowed : ¬ s.signalWrite = true := by
        rw [Http2Session.signalWrite, hinside']
        simp
      unfold enter
      dsimp only
      rw [if_neg hswallowed]
      exact guarded_goto (.leaveInside hexecuting) hflag

theorem guarded_afterMemSend (hcaller : Caller frames) (hset : s.callbackInside = true) (length : ℕ)
    (result : MemSend) : Guarded (m.afterMemSend ng s length (.writeData :: frames) result) := by
  unfold afterMemSend
  cases result with
  | error => exact guarded_withSession (.leaveOnWrite false length hcaller) rfl
  | chunk bytes =>
      dsimp only
      split_ifs with hdry hfull
      · exact guarded_withSession (.leaveOnWrite true length hcaller) rfl
      · exact guarded_withSession (.leaveOnWrite true length hcaller) rfl
      · exact guarded_goto (.enterMemSend (length + bytes.length) hcaller) hset

theorem guarded_leave {value : Value} {m' : Machine G} (hguarded : Guarded m)
    (hhandler : m.connection.handler = some s) (hcontrol : m.control = .leave value)
    (hleave : m.leave ng g s value m.stack = some m') : Guarded m' := by
  have hinside : inside m.connection = s.callbackInside := inside_of_handler hhandler
  obtain ⟨c, control, stack⟩ := m
  cases hcontrol
  have hshape : Shape (.leave value) stack (inside c) := hguarded
  generalize hflag : inside c = flag at hshape
  have hinside' : s.callbackInside = flag := hinside.symm.trans hflag
  -- the frame on top says who gets the value
  cases hshape with
  | leaveMemRecv rv =>
      cases hleave
      exact guarded_withSession (.leaveOnRead _) rfl
  | leaveOnRead ok =>
      dsimp only [leave] at hleave
      split_ifs at hleave with hok
      · cases hleave
        exact guarded_goto .leaveHandler ((inside_stop _ _).trans hflag)
      · cases hleave
        exact guarded_goto (.enterWriteData .readHandler) hflag
  | leaveMemSend result length hcaller =>
      cases hleave
      exact guarded_afterMemSend hcaller hinside' length result
  | leaveOnWrite ok length hcaller =>
      cases hleave
      exact guarded_goto (.leaveWriteData hcaller)
        ((inside_congr (@handler_afterOnWrite G ng g c ok length)).trans hflag)
  | leaveWriteData hcaller =>
      -- only the read handler goes on after `write_data`
      cases hcaller with
      | readHandler =>
          cases hleave
          exact guarded_goto .leaveHandler
            ((inside_congr (@handler_afterWriteData G ng g c)).trans hflag)
      | writeHandler =>
          cases hleave
          exact guarded_goto .leaveHandler hflag
      | signalWrite =>
          cases hleave
          exact guarded_goto .leaveHandler hflag
  | leaveHandler =>
      cases hleave
      exact guarded_goto .idle hflag
  | leaveInside hexecuting =>
      cases hleave
      exact guarded_goto (.user hexecuting) hflag

theorem callbackInside_runCallback (s : Http2Session G) (callback : Callback) :
    (s.runCallback callback).callbackInside = s.callbackInside :=
  Http2Session.callbackInside_runCallbacks [callback]

theorem guarded_runLibrary {m' : Machine G} (hguarded : Guarded m)
    (hhandler : m.connection.handler = some s) (hcontrol : m.control = .library)
    (hrun : m.runLibrary s m.stack = some m') : Guarded m' := by
  have hinside : inside m.connection = s.callbackInside := inside_of_handler hhandler
  obtain ⟨c, control, stack⟩ := m
  cases hcontrol
  have hshape : Shape .library stack (inside c) := hguarded
  generalize hflag : inside c = flag at hshape
  have hset : ∀ callback, (s.runCallback callback).callbackInside = flag := by
    intro callback
    rw [callbackInside_runCallback, ← hinside, hflag]
  cases hshape with
  | library hexecuting =>
      cases hexecuting with
      | memRecv rv callbacks =>
          cases callbacks with
          | nil =>
              cases hrun
              exact guarded_goto (.leaveMemRecv rv) hflag
          | cons callback callbacks =>
              cases hrun
              exact guarded_withSession (.user (.memRecv rv callbacks)) (hset callback)
      | memSend result callbacks length hcaller =>
          cases callbacks with
          | nil =>
              cases hrun
              exact guarded_goto (.leaveMemSend result length hcaller) hflag
          | cons callback callbacks =>
              cases hrun
              exact guarded_withSession (.user (.memSend result callbacks length hcaller))
                (hset callback)

/-! ## The steps from outside -/

theorem guarded_outside {e : Connection.Event (G → G)} {m' : Machine G} (hguarded : Guarded m)
    (hcontrol : m.control = .idle) (houtside : m.outside ng g e = some m') : Guarded m' := by
  obtain ⟨c, control, stack⟩ := m
  cases hcontrol
  have hshape : Shape .idle stack (inside c) := hguarded
  generalize hflag : inside c = flag at hshape
  cases hshape
  -- only three events enter a function of the connection that may call the session
  cases e with
  | readHandler i =>
      obtain ⟨⟨completion, reads⟩, -, rfl⟩ := Option.map_eq_some_iff.mp houtside
      dsimp only
      split
      · exact @guarded_goto G ⟨_, .idle, []⟩ _ [] _ .idle ((inside_stop _ _).trans hflag)
      · exact @guarded_goto G ⟨_, .idle, []⟩ _ [] _ .idle hflag
      · exact guarded_goto (.enterOnRead _) hflag
  | writeHandler i =>
      obtain ⟨⟨completion, writes⟩, -, rfl⟩ := Option.map_eq_some_iff.mp houtside
      dsimp only
      split
      · exact @guarded_goto G ⟨_, .idle, []⟩ _ [] _ .idle ((inside_stop _ _).trans hflag)
      · exact @guarded_goto G ⟨_, .idle, []⟩ _ [] _ .idle hflag
      · exact guarded_goto (.enterWriteData .writeHandler) hflag
  | signal u =>
      obtain ⟨s, hhandler, rfl⟩ := Option.map_eq_some_iff.mp houtside
      have hclear : s.callbackInside = false := (inside_of_handler hhandler).symm.trans hflag
      exact guarded_goto .signalOutside hclear
  | tick ticks =>
      cases houtside
      exact @guarded_goto G ⟨_, .idle, []⟩ _ [] _ .idle hflag
  | stop =>
      cases houtside
      exact @guarded_goto G ⟨_, .idle, []⟩ _ [] _ .idle ((inside_stop _ _).trans hflag)
  | _ =>
      obtain ⟨d, hstep, rfl⟩ := Option.map_eq_some_iff.mp houtside
      exact @guarded_goto G ⟨_, .idle, []⟩ _ [] _ .idle (inside_kept.step hflag hstep)

theorem guarded_step {move : Move G} {m' : Machine G} (hguarded : Guarded m)
    (hstep : m.step ng g move = some m') : Guarded m' := by
  cases move with
  | outside e =>
      dsimp only [step] at hstep
      split at hstep
      · next hcontrol => exact guarded_outside hguarded hcontrol hstep
      · cases hstep
  | advance =>
      dsimp only [step] at hstep
      split at hstep
      · next s call hhandler hcontrol =>
          cases hstep
          exact guarded_enter hguarded hhandler hcontrol
      · next s value hhandler hcontrol => exact guarded_leave hguarded hhandler hcontrol hstep
      · next s hhandler hcontrol => exact guarded_runLibrary hguarded hhandler hcontrol hstep
      · cases hstep
  | signal =>
      dsimp only [step] at hstep
      split at hstep
      · next hcontrol =>
          cases hstep
          have hexecuting : Shape .user m.stack (inside m.connection) := hcontrol ▸ hguarded
          generalize hflag : inside m.connection = flag at hexecuting
          cases hexecuting with
          | user hexecuting => exact guarded_goto (.signalInside hexecuting) hflag
      · cases hstep
  | finish =>
      dsimp only [step] at hstep
      split at hstep
      · next hcontrol =>
          cases hstep
          have hexecuting : Shape .user m.stack (inside m.connection) := hcontrol ▸ hguarded
          generalize hflag : inside m.connection = flag at hexecuting
          cases hexecuting with
          | user hexecuting => exact guarded_goto (.library hexecuting) hflag
      · cases hstep

end Machine

theorem guarded_invariant : (machine ng g).Invariant Guarded where
  init := by
    rintro m ⟨c, hinit, rfl⟩
    have hclear : inside c = false := (inside_kept.invariant fun _ _ => rfl).init c hinit
    exact @Machine.guarded_goto G ⟨c, .idle, []⟩ _ [] _ .idle hclear
  step _ _ _ hguarded hstep := Machine.guarded_step hguarded hstep

/-! ## What the shapes say -/

section Shape

variable {control : Control} {frames : List Frame} {flag : Bool}

theorem Executing.countP_guarded (hexecuting : Executing frames) :
    frames.countP Frame.guarded = 1 := by
  cases hexecuting with
  | memRecv rv callbacks => rfl
  | memSend result callbacks length hcaller =>
      cases hcaller <;> rfl

theorem Executing.countP_inLibrary (hexecuting : Executing frames) :
    frames.countP Frame.inLibrary = 1 := by
  cases hexecuting with
  | memRecv rv callbacks => rfl
  | memSend result callbacks length hcaller =>
      cases hcaller <;> rfl

/-- One guarded call when the flag is set, and none when it is clear. -/
theorem Shape.countP_guarded (hshape : Shape control frames flag) :
    frames.countP Frame.guarded = flag.toNat := by
  cases hshape with
  | enterWriteData hcaller | enterOnWrite hcaller | enterMemSend _ hcaller
  | leaveMemSend _ _ hcaller | leaveOnWrite _ _ hcaller | leaveWriteData hcaller =>
      cases hcaller <;> rfl
  | library hexecuting | user hexecuting => exact hexecuting.countP_guarded
  | signalInside hexecuting | leaveInside hexecuting =>
      rw [List.countP_cons, hexecuting.countP_guarded]
      rfl
  | _ => rfl

/-- Only a guarded call calls the library. -/
theorem Shape.countP_inLibrary_le (hshape : Shape control frames flag) :
    frames.countP Frame.inLibrary ≤ flag.toNat := by
  cases hshape with
  | enterWriteData hcaller | enterOnWrite hcaller | enterMemSend _ hcaller
  | leaveMemSend _ _ hcaller | leaveOnWrite _ _ hcaller | leaveWriteData hcaller =>
      cases hcaller <;> exact Nat.zero_le _
  | library hexecuting | user hexecuting => exact hexecuting.countP_inLibrary.le
  | signalInside hexecuting | leaveInside hexecuting =>
      rw [List.countP_cons, hexecuting.countP_inLibrary]
      rfl
  | _ => decide

theorem Shape.flag_of_enter_guarded {call : Call} (hshape : Shape (.enter call) frames flag)
    (hcall : call.guarded = true) : flag = false := by
  cases hshape with
  | enterOnRead bytes => rfl
  | enterOnWrite hcaller => rfl
  | _ => cases hcall

theorem Shape.not_inLibrary_of_enter_inLibrary {call : Call}
    (hshape : Shape (.enter call) frames flag) (hcall : call.inLibrary = true) :
    frames.countP Frame.inLibrary = 0 := by
  cases hshape with
  | enterMemRecv bytes => rfl
  | enterMemSend length hcaller => cases hcaller <;> rfl
  | _ => cases hcall

end Shape

/-- Over every run of a connection, whatever the code called from the callbacks does: the
flag is set exactly while a call of `on_read` or `on_write` is on the stack; there is
never more than one such call, nor more than one library call, and none is entered
while another one is on the stack. -/
theorem never_reentered {m : Machine G} (hm : (machine ng g).Reachable m) :
    (∀ s, m.connection.handler = some s →
      (s.callbackInside = true ↔ ∃ frame ∈ m.stack, frame.guarded = true)) ∧
    m.stack.countP Frame.guarded ≤ 1 ∧
    m.stack.countP Frame.inLibrary ≤ 1 ∧
    (∀ call, m.control = .enter call → call.guarded = true →
      ∀ frame ∈ m.stack, frame.guarded = false) ∧
    ∀ call, m.control = .enter call → call.inLibrary = true →
      ∀ frame ∈ m.stack, frame.inLibrary = false := by
  have hshape : Shape m.control m.stack (inside m.connection) := guarded_invariant.reachable hm
  have hcount : m.stack.countP Frame.guarded = (inside m.connection).toNat := hshape.countP_guarded
  refine ⟨?_, ?_, ?_, ?_, ?_⟩
  · intro s hs
    rw [← inside_of_handler hs, ← List.countP_pos_iff, hcount]
    cases inside m.connection <;> decide
  · rw [hcount]
    exact Bool.toNat_le _
  · exact hshape.countP_inLibrary_le.trans (Bool.toNat_le _)
  · intro call hcontrol hcall
    rw [hcontrol] at hshape
    have hzero : m.stack.countP Frame.guarded = 0 := by
      rw [hcount, hshape.flag_of_enter_guarded hcall]
      rfl
    simpa using hzero
  · intro call hcontrol hcall
    rw [hcontrol] at hshape
    simpa using hshape.not_inLibrary_of_enter_inLibrary hcall

/-- A library that fires a callback in every call: it echoes what it reads. -/
def chatty : Nghttp2 (List UInt8) :=
  { Http2Session.echo with
    memRecv := fun bytes g => (bytes.length, [.dataChunkRecv 0 1 bytes], g ++ bytes)
    memSend := fun g =>
      (.chunk (g.take 2), [.frameNotSend ⟨1, .data, 0, .request, 0⟩ 0], g.drop 2) }

/-- Three bytes arrive; the callback of `mem_recv` signals twice, and the callback of
`mem_send` signals once more. -/
def signalsInside : List (Move (List UInt8)) :=
  [.outside (.readReady 0 [1, 2, 3]), .outside (.readHandler 0)] ++
  -- into `on_read`, `mem_recv` and its callback
  [.advance, .advance, .advance, .signal, .advance, .advance, .signal, .advance, .advance,
    .finish] ++
  -- out again, and into `write_data`, `on_write`, `mem_send` and its callback
  [.advance, .advance, .advance, .advance, .advance, .advance, .advance, .signal]

theorem never_reentered_signalsInside :
    ∃ (m : Machine (List UInt8)) (s : Http2Session (List UInt8)),
      (machine chatty []).run
        { connection := Connection.accept (http2Handler chatty []) ⟨⊤, ⊤⟩ 0 } signalsInside =
          some m ∧
      m.connection.handler = some s ∧ s.callbackInside = true ∧
      ∃ frame ∈ m.stack, frame.guarded = true := by
  obtain ⟨m, hrun, s, hs, hset⟩ : ∃ m, (machine chatty []).run
      { connection := Connection.accept (http2Handler chatty []) ⟨⊤, ⊤⟩ 0 } signalsInside = some m ∧
      ∃ s, m.connection.handler = some s ∧ s.callbackInside = true :=
    ⟨_, rfl, _, rfl, rfl⟩
  have hreachable : (machine chatty []).Reachable m := ⟨_, _, ⟨_, ⟨_, _, Or.inl rfl⟩, rfl⟩, hrun⟩
  exact ⟨m, s, hrun, hs, hset, ((never_reentered hreachable).1 s hs).mp hset⟩

end Reentrancy

end Http2Asio
