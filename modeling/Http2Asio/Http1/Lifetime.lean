import Http2Asio.Http1.Execution
import Http2Asio.Transition.System

/-!
# The life of an HTTP/1 parser

The parser as a transition system: it is initialised once, and then its user feeds it
buffers, pauses it and lets it go on, in any order.  The callbacks are any callbacks that
may pause the parser and answer anything.

Two results hold in every state such a life reaches: no assertion of the parser fails
there, whatever comes next (`execute_total`), and the callbacks were called in the order of
`Phase`, with as many bytes of each body and each chunk as were announced
(`calls_inOrder`).
-/

namespace Http2Asio.Http1

open Transition

/-- What the user of a parser does to it. -/
inductive ParserEvent
  | execute (data : List UInt8)
  | pause (paused : Bool)

/-- Callbacks that collect the bytes of one kind. -/
def collecting (k : DataCb) : HttpParserSettings (List UInt8) where
  onData k' := if k' = k then some fun _ bytes u => ⟨0, false, u ++ bytes⟩ else none
  onNotify _ := none
  onHeadersComplete := none

section Life

variable {σ : Type} (S : HttpParserSettings σ)

/-- A parser and the state of its callbacks. -/
abbrev Life (σ : Type) : Type :=
  HttpParser × σ

/-- The life of a parser of type `t` whose callbacks start in `user`.  A step is missing if an
assertion fails. -/
def parserSystem (t : HttpParserType) (user : σ) : System (Life σ) ParserEvent where
  init s := s = (httpParserInit t, user)
  step s
    | .execute data => (httpParserExecute S s.1 s.2 data).map fun r => (r.parser, r.user)
    | .pause paused => (httpParserPause s.1 paused).map fun parser => (parser, s.2)

variable {S} {T : σ → Phase → Prop} {t : HttpParserType} {user : σ}

theorem httpParserInit_sound (t : HttpParserType) : (httpParserInit t).Sound .idle := by
  intro _
  refine ⟨rfl, Nat.zero_le _, ?_, ?_, fun _ => rfl, Nat.zero_le _, fun _ => rfl⟩
  · cases t <;> trivial
  · cases t
    · exact rfl
    · exact Or.inl rfl
    · exact rfl

theorem httpParserPause_sound {parser parser' : HttpParser} {paused : Bool} {φ : Phase}
    (hpause : httpParserPause parser paused = some parser') (h : parser.Sound φ) :
    parser'.Sound φ := by
  unfold httpParserPause at hpause
  split at hpause
  next herrno =>
    cases hpause
    exact fun _ => h herrno
  next => exact absurd hpause nofun

/-- The callbacks and the parser agree on a phase in every reachable state. -/
theorem parserSystem_invariant (hS : Tracks S T) (hinit : T user .idle) :
    (parserSystem S t user).Invariant fun s => ∃ φ, T s.2 φ ∧ s.1.Sound φ where
  init s hs := by
    subst hs
    exact ⟨.idle, hinit, httpParserInit_sound t⟩
  step s e s' hs hstep := by
    obtain ⟨φ, htracked, hsound⟩ := hs
    cases e with
    | execute data =>
        obtain ⟨r, hr, -, ψ, htracked', hsound'⟩ := httpParserExecute_sound hS htracked hsound data
        simp only [parserSystem, hr, Option.map_some, Option.some.injEq] at hstep
        subst hstep
        exact ⟨ψ, htracked', hsound'⟩
    | pause paused =>
        obtain ⟨parser, hpause, rfl⟩ := Option.map_eq_some_iff.mp hstep
        exact ⟨φ, htracked, httpParserPause_sound hpause hsound⟩

/-- **No assertion fails.**  In every state that a life reaches, whatever the callbacks did,
`http_parser_execute` returns for every buffer; it consumes the whole buffer unless it
reports an error or a pause, or the message was upgraded. -/
theorem execute_total {s : Life σ} (hs : (parserSystem S t user).Reachable s)
    (data : List UInt8) :
    ∃ r, httpParserExecute S s.1 s.2 data = some r ∧
      (data ≠ [] → s.1.httpErrno = .ok → r.count ≤ data.length ∧
        (r.count = data.length ∨ r.parser.httpErrno ≠ .ok ∨ r.parser.upgrade = true)) := by
  obtain ⟨φ, htracked, hsound⟩ :=
    (parserSystem_invariant (Tracks.trivial S) True.intro).reachable hs
  obtain ⟨r, hr, hreturns, -⟩ := httpParserExecute_sound (Tracks.trivial S) htracked hsound data
  exact ⟨r, hr, fun hdata herrno => ⟨(hreturns hdata herrno).count_le,
    (hreturns hdata herrno).consumed⟩⟩

end Life

/-- A request line in two buffers. -/
theorem execute_total_requestLine :
    ∃ s, (parserSystem (collecting .url) .request []).Reachable s ∧ s.1.httpErrno = .ok ∧
      ∃ r, httpParserExecute (collecting .url) s.1 s.2 (ascii "/ HTTP/1.1") = some r ∧
        r.count ≤ 10 := by
  have hsome : ((parserSystem (collecting .url) .request []).run (httpParserInit .request, [])
      [.execute (ascii "GET ")]).isSome = true := by
    decide +kernel
  have herrno : (Option.get _ hsome).1.httpErrno = .ok := by
    decide +kernel +revert
  have hs := System.Reachable.run (System.Reachable.of_init rfl)
    (Option.some_get hsome).symm
  obtain ⟨r, hr, hcount⟩ := execute_total hs (ascii "/ HTTP/1.1")
  exact ⟨_, hs, herrno, r, hr, (hcount (by decide) herrno).1⟩

/-! ## The order of the calls -/

section Logged

variable {σ : Type} (S : HttpParserSettings σ)

/-- The callbacks `S`, which also write down every call; a callback that is not there is
written down as well and answers 0. -/
def HttpParserSettings.logged : HttpParserSettings (σ × List Call) where
  onData k := some fun v bytes u =>
    let r := ((S.onData k).map fun f => f v bytes u.1).getD ⟨0, false, u.1⟩
    ⟨r.value, r.paused, r.user, u.2 ++ [.data k bytes v]⟩
  onNotify k := some fun v u =>
    let r := ((S.onNotify k).map fun f => f v u.1).getD ⟨0, false, u.1⟩
    ⟨r.value, r.paused, r.user, u.2 ++ [.notify k v]⟩
  onHeadersComplete := some fun v u =>
    let r := (S.onHeadersComplete.map fun f => f v u.1).getD ⟨0, false, u.1⟩
    ⟨r.value, r.paused, r.user,
      u.2 ++ [.headersComplete (if r.value = 1 then v.setSkipbody else v)]⟩

theorem afterAll_snoc {φ ψ : Phase} {calls : List Call} {call : Call}
    (hcalls : Phase.idle.afterAll calls = some φ) (hcall : φ.after call = some ψ) :
    Phase.idle.afterAll (calls ++ [call]) = some ψ := by
  rw [Phase.afterAll_append, hcalls, Option.bind_some, Phase.afterAll, hcall]
  rfl

theorem logged_tracks :
    Tracks S.logged fun u φ => Phase.idle.afterAll u.2 = some φ where
  data k f hf φ ψ v bytes u hu hφ := by
    obtain rfl := Option.some.inj hf
    exact afterAll_snoc hu hφ
  data_none k hf := absurd hf nofun
  notify k f hf φ ψ v u hu hφ := by
    obtain rfl := Option.some.inj hf
    exact afterAll_snoc hu hφ
  notify_none k hf := absurd hf nofun
  headersComplete f hf φ ψ v u hu hφ := by
    obtain rfl := Option.some.inj hf
    exact afterAll_snoc hu hφ
  headersComplete_none hf := absurd hf nofun

variable {S} {t : HttpParserType} {user : σ}

/-- **The calls come in order.**  However the input is cut, paused or broken off and whatever
the callbacks answer, the calls made so far follow the phases: every body gets as many
bytes as its length says, every chunk as its header says, and a message ends only then. -/
theorem calls_inOrder {s : Life (σ × List Call)}
    (hs : (parserSystem S.logged t (user, [])).Reachable s) :
    ∃ φ, Phase.idle.afterAll s.2.2 = some φ ∧
      (s.1.httpErrno = .ok → s.1.InPhase φ) := by
  obtain ⟨φ, htracked, hsound⟩ :=
    (parserSystem_invariant (logged_tracks S) rfl).reachable hs
  refine ⟨φ, htracked, fun herrno => ?_⟩
  have hphase := (hsound (Or.inl herrno)).inPhase
  rwa [show s.1.toRegisters.setErrno .ok = s.1.toRegisters by
    rw [Registers.setErrno, ← herrno]] at hphase

end Logged

/-- A message with a body of three bytes, of which two have come: the calls lead to the
phase in which one byte of the body is left, and the parser is in it. -/
theorem calls_inOrder_body :
    ∃ s, (parserSystem (collecting .body).logged .request ([], [])).Reachable s ∧
      s.2.1 = ascii "ab" ∧ Phase.idle.afterAll s.2.2 = some (.body 1) ∧
      s.1.InPhase (.body 1) := by
  have hrun : ((parserSystem (collecting .body).logged .request ([], [])).run
      (httpParserInit .request, ([], []))
      [.execute (ascii "PUT /a HTTP/1.1\r\nContent-Length: 3\r\n\r\nab")]).map
        (fun s => (s.1.httpErrno, s.2.1, Phase.idle.afterAll s.2.2)) =
      some (.ok, ascii "ab", some (.body 1)) := by
    decide +kernel
  obtain ⟨s, hrun, hresult⟩ := Option.map_eq_some_iff.mp hrun
  obtain ⟨herrno, hcollected⟩ := Prod.mk.inj hresult
  obtain ⟨hbody, hphase⟩ := Prod.mk.inj hcollected
  have hs := System.Reachable.run (System.Reachable.of_init rfl) hrun
  obtain ⟨φ, hafter, hin⟩ := calls_inOrder hs
  cases hphase.symm.trans hafter
  exact ⟨s, hs, hbody, hphase, hin herrno⟩

end Http2Asio.Http1
