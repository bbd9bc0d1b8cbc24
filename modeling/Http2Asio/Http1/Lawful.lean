import Http2Asio.Http1.Lawful.StartLine
import Http2Asio.Http1.Lawful.Values
import Http2Asio.Http1.Lawful.Bodies

/-!
# What the parser does with one byte

Every state has a lemma by now that its reaction is lawful.  `turn_lawful` puts them
together: a state says by its marks which byte of a callback's data the last byte was, so
for each state it is known what is marked when it gets a byte.

`iteration_lawful` adds the counting of the bytes of the header, which happens before the
state is looked at, and with it the induction over a buffer has its step.  The run of a
reaction is the subject of `Execution.lean`; nothing there looks at a state again.
-/

namespace Http2Asio.Http1

open Registers Reaction

variable {q : Registers} {c : Cursor} {ch : UInt8} {rest : List UInt8}

attribute [local simp] Lawful HttpErrno.parsing rests_iff FitsState InPhase AwaitsField MarkFits
  resumedMark
  updateState setErrno Registers.error Phase.notify Phase.data Phase.headersComplete

/-! ## The body of the loop -/

theorem MarkFits.eq_none {marked : Option DataCb} {s : State} (h : MarkFits marked s)
    (hmark : resumedMark s = none) (hbody : s.inBody = false) : marked = none := by
  rcases h with h | ⟨-, h⟩
  · exact h.trans hmark
  · exact absurd (hbody.symm.trans h) Bool.false_ne_true

theorem MarkFits.eq_some {marked : Option DataCb} {s : State} {k : DataCb}
    (h : MarkFits marked s) (hmark : resumedMark s = some k) (hbody : s.inBody = false) :
    marked = some k := by
  rcases h with h | ⟨-, h⟩
  · exact h.trans hmark
  · exact absurd (hbody.symm.trans h) Bool.false_ne_true

theorem MarkFits.inBody {marked : Option DataCb} {s : State} (h : MarkFits marked s)
    (hmark : resumedMark s = none) : marked = none ∨ marked = some .body :=
  h.imp (fun h => h.trans hmark) And.left

theorem turn_lawful (hq : Finds q c) (hmark : MarkFits c.marked q.state)
    (hleft : c.left = rest.length + 1) : (turn q ch rest).Lawful c := by
  -- outside of a body the state decides whether there is a mark, and which one
  have hnone : resumedMark q.state = none → q.state.inBody = false → c.marked = none :=
    hmark.eq_none
  have hsome : ∀ k, resumedMark q.state = some k → q.state.inBody = false → c.marked = some k :=
    fun k => hmark.eq_some
  unfold turn
  cases h : q.state <;> rw [h] at hnone hsome <;> dsimp only
  case dead => exact dead_lawful h hq (hnone rfl rfl)
  case startReqOrRes => exact startReqOrRes_lawful h hq (hnone rfl rfl)
  case resOrRespH => exact resOrRespH_lawful h hq (hnone rfl rfl)
  case startRes => exact startRes_lawful h hq (hnone rfl rfl)
  case resH | resHT | resHTT | resHTTP | reqHttpH | reqHttpHT | reqHttpHTT | reqHttpHTTP =>
      exact strictCheck_lawful hq (hnone rfl rfl) (by rw [h]; rfl) rfl
  case resFirstHttpMajor | reqFirstHttpMajor =>
      exact firstHttpMajor_lawful hq (hnone rfl rfl) (by rw [h]; rfl) rfl
  case resHttpMajor | reqHttpMajor =>
      exact httpMajorOrDot_lawful hq (hnone rfl rfl) (by rw [h]; rfl) rfl
  case resFirstHttpMinor | reqFirstHttpMinor =>
      exact firstHttpMinor_lawful hq (hnone rfl rfl) (by rw [h]; rfl) rfl
  case resHttpMinor => exact resHttpMinor_lawful h hq (hnone rfl rfl)
  case resFirstStatusCode => exact resFirstStatusCode_lawful h hq (hnone rfl rfl)
  case resStatusCode => exact resStatusCode_lawful h hq (hnone rfl rfl)
  case resStatusStart => exact resStatusStart_lawful h hq (hnone rfl rfl)
  case resStatus => exact resStatus_lawful h hq (hsome _ rfl rfl)
  case resLineAlmostDone => exact resLineAlmostDone_lawful h hq (hnone rfl rfl)
  case startReq => exact startReq_lawful h hq (hnone rfl rfl)
  case reqMethod => exact reqMethod_lawful h hq (hnone rfl rfl)
  case reqSpacesBeforeUrl => exact reqSpacesBeforeUrl_lawful h hq (hnone rfl rfl)
  case reqSchema | reqSchemaSlash | reqSchemaSlashSlash | reqServerStart =>
      exact reqSchema_lawful (by rw [h]; rfl) hq (hsome _ rfl rfl)
  case reqServer | reqServerWithAt | reqPath | reqQueryStringStart | reqQueryString
      | reqFragmentStart | reqFragment =>
      exact reqServer_lawful (by rw [h]; rfl) hq (hsome _ rfl rfl)
  case reqHttpStart => exact reqHttpStart_lawful h hq (hnone rfl rfl)
  case reqHttpMinor => exact reqHttpMinor_lawful h hq (hnone rfl rfl)
  case reqLineAlmostDone => exact reqLineAlmostDone_lawful h hq (hnone rfl rfl)
  case headerFieldStart =>
      exact headerFieldStart_lawful (hq.atField (hnone rfl rfl) (by simpa [h] using hq.inPhase))
  case headerField => exact headerField_lawful h hq (hsome _ rfl rfl) hleft
  case headerValueDiscardWs => exact headerValueDiscardWs_lawful h hq (hnone rfl rfl)
  case headerValueDiscardWsAlmostDone =>
      exact headerValueDiscardWsAlmostDone_lawful h hq (hnone rfl rfl)
  case headerValueDiscardLws => exact headerValueDiscardLws_lawful h hq (hnone rfl rfl)
  case headerValueStart =>
      exact headerValueStart_lawful (hq.atLine (hnone rfl rfl))
        (Or.inr (by simpa [h] using hq.inPhase))
  case headerValue => exact headerValue_lawful h hq (hsome _ rfl rfl) hleft
  case headerValueLws => exact headerValueLws_lawful h hq (hnone rfl rfl)
  case headerAlmostDone =>
      exact headerAlmostDone_lawful (hq.atLine (hnone rfl rfl)) (by simpa [h] using hq.inPhase)
  case chunkSizeStart => exact chunkSizeStart_lawful h hq (hnone rfl rfl)
  case chunkSize => exact chunkSize_lawful h hq (hnone rfl rfl)
  case chunkParameters => exact chunkParameters_lawful h hq (hnone rfl rfl)
  case chunkSizeAlmostDone => exact chunkSizeAlmostDone_lawful h hq (hnone rfl rfl)
  case headersAlmostDone =>
      exact headersAlmostDone_lawful (hq.atField (hnone rfl rfl) (by simpa [h] using hq.inPhase))
  case headersDone =>
      exact headersDone_lawful (hq.atLine (hnone rfl rfl)) (by simpa [h] using hq.inPhase)
  case chunkData => exact chunkData_lawful h hq (by rw [h] at hmark; exact hmark.inBody rfl) hleft
  case chunkDataAlmostDone =>
      exact chunkDataAlmostDone_lawful h hq (by rw [h] at hmark; exact hmark.inBody rfl)
  case chunkDataDone => exact chunkDataDone_lawful h hq (hnone rfl rfl)
  case bodyIdentity =>
      exact bodyIdentity_lawful h hq (by rw [h] at hmark; exact hmark.inBody rfl) hleft
  case bodyIdentityEof =>
      exact bodyIdentityEof_lawful h hq (by rw [h] at hmark; exact hmark.inBody rfl) hleft
  case messageDone =>
      exact messageDone_lawful (hq.atLine (hnone rfl rfl)) (by simpa [h] using hq.inPhase)

/-- **One iteration.**  From what holds between two bytes, no assertion fails, the callbacks
are called in order, and the same holds before the next byte. -/
theorem iteration_lawful (ch : UInt8) (rest : List UInt8) {nread : ℕ} {φ : Phase}
    {marked : Option DataCb}
    (hq : q.Rests nread φ) (hmark : MarkFits marked q.state) :
    (iteration q ch rest).Lawful ⟨rest.length + 1, nread, marked, φ⟩ := by
  obtain ⟨herrno, hlen, hfits, hphase, hheaders, hnread, hfresh⟩ := hq
  unfold iteration
  split
  · intro hle
    refine turn_lawful ⟨herrno, hlen, hfits, hphase, hheaders, hle, fun hs => ?_,
      Nat.succ_pos _⟩ hmark rfl
    simp [hfresh hs]
  next hheader =>
    refine turn_lawful ⟨herrno, hlen, hfits, hphase, hheaders, hnread, fun hs => ?_,
      Nat.succ_pos _⟩ hmark rfl
    rw [hs] at hheader
    exact absurd rfl hheader

end Http2Asio.Http1
