import Http2Asio.Http1.Lawful.Reaction

/-!
# Start lines

The states up to the end of a status line or a request line.

Most of them are steady: they ask nothing of the registers, set no mark and stand for one
phase, so a reaction that goes to another steady state of the same phase is lawful whatever
else it writes (`goto_lawful`, `stay_lawful`).  The matching of `HTTP/`, the version and
the status code are of this kind, and the lemmas for their parts take the phase as a
parameter, since the same code reads a status line after `on_message_begin` and a request
line after the target.

Three groups are not:

* the first states of a message, which call `on_message_begin`.  A status line is the
  exception: its first state goes round for blank lines, each time with a call, so it is
  found before the call and after it;
* the reason phrase and the request target, which set a mark.  All states of a target
  have the mark of `on_url` and no other, so `parse_url_char` is judged by the mark of the
  state it goes to (`parseUrlChar_mark`);
* the end of the line, which leads to the fields from either phase (`startLineEnd_rests`).
-/

namespace Http2Asio.Http1

open Registers Reaction

variable {q : Registers} {c : Cursor} {ch : UInt8} {rest : List UInt8}

attribute [local simp] Lawful HttpErrno.parsing rests_iff FitsState InPhase AwaitsField MarkFits
  resumedMark
  updateState setErrno Registers.error Phase.notify Phase.data Phase.headersComplete

/-! ## Steady states

Most states of the start line ask nothing of the registers, set no mark and stand for one
phase. -/

/-- The phase of a steady state. -/
def State.steady : State → Option Phase
  | .dead | .startReqOrRes | .startReq => some .idle
  | .resOrRespH | .resH | .resHT | .resHTT | .resHTTP | .resFirstHttpMajor => some .begun
  | .resHttpMajor | .resFirstHttpMinor | .resHttpMinor | .resFirstStatusCode => some .begun
  | .resStatusCode | .resStatusStart | .reqMethod | .reqSpacesBeforeUrl => some .begun
  | .reqHttpStart | .reqHttpH | .reqHttpHT | .reqHttpHTT | .reqHttpHTTP => some .target
  | .reqFirstHttpMajor | .reqHttpMajor | .reqFirstHttpMinor | .reqHttpMinor => some .target
  | .reqLineAlmostDone => some .target
  | _ => none

theorem State.steady_iff {φ ψ : Phase} (h : q.state.steady = some ψ) : q.InPhase φ ↔ φ = ψ := by
  cases hs : q.state <;> simp_all [State.steady]

theorem State.steady_rests {φ : Phase} {n : ℕ} (h : q.state.steady = some φ)
    (herrno : q.httpErrno = .ok) (hlen : q.contentLength ≤ ullongMax)
    (hheaders : φ = .begun ∨ φ = .target → q.flags.trailing = false)
    (hn : n ≤ httpMaxHeaderSize) : q.Rests n φ := by
  refine ⟨herrno, hlen, ?_, (State.steady_iff h).mpr rfl, hheaders, hn, ?_⟩
  · cases hs : q.state <;> simp_all [State.steady]
  · intro hs
    simp [hs, State.steady] at h

theorem State.steady_mark {s : State} {φ : Phase} (h : s.steady = some φ) :
    resumedMark s = none := by
  cases s <;> simp_all [State.steady]

theorem Finds.phase_eq {φ : Phase} (hq : Finds q c) (h : q.state.steady = some φ) :
    c.phase = φ :=
  (State.steady_iff h).mp hq.inPhase

theorem Finds.next {q' : Registers} (hq : Finds q c) (hm : c.marked = none)
    (hs : q'.state.steady = some c.phase) (herrno : q'.httpErrno = q.httpErrno)
    (hlen : q'.contentLength = q.contentLength) (hflags : q'.flags = q.flags) :
    (Reaction.next q').Lawful c :=
  next_lawful hm hq.left_pos (State.steady_mark hs) <|
    State.steady_rests hs (herrno.trans hq.errno) (hlen ▸ hq.contentLength_le)
      (hflags ▸ hq.headers) hq.nread_le

section Steady

variable {φ : Phase} {target : State} (hq : Finds q c) (hm : c.marked = none)
  (hs : q.state.steady = some φ) (htarget : target.steady = some φ)

include hq hm hs

theorem stay_lawful {q' : Registers} (hstate : q'.state = q.state)
    (herrno : q'.httpErrno = q.httpErrno) (hlen : q'.contentLength = q.contentLength)
    (hflags : q'.flags = q.flags) : (Reaction.next q').Lawful c :=
  hq.next hm (by rw [hstate, hs, hq.phase_eq hs]) herrno hlen hflags

theorem httpMinorDigit_lawful : (httpMinorDigit q ch).Lawful c := by
  unfold httpMinorDigit
  split
  · exact error_lawful rfl
  · dsimp only
    split
    · exact error_lawful rfl
    · exact stay_lawful hq hm hs rfl rfl rfl rfl

include htarget

theorem goto_lawful {q' : Registers} (hstate : q'.state = target)
    (herrno : q'.httpErrno = q.httpErrno) (hlen : q'.contentLength = q.contentLength)
    (hflags : q'.flags = q.flags) : (Reaction.next q').Lawful c :=
  hq.next hm (by rw [hstate, htarget, hq.phase_eq hs]) herrno hlen hflags

theorem strictCheck_lawful {expected : UInt8} : (strictCheck expected target q ch).Lawful c := by
  unfold strictCheck
  split
  · exact error_lawful rfl
  · exact goto_lawful hq hm hs htarget rfl rfl rfl rfl

theorem firstHttpMajor_lawful {low : UInt8} : (firstHttpMajor low target q ch).Lawful c := by
  unfold firstHttpMajor
  split
  · exact error_lawful rfl
  · exact goto_lawful hq hm hs htarget rfl rfl rfl rfl

theorem httpMajorOrDot_lawful : (httpMajorOrDot target q ch).Lawful c := by
  unfold httpMajorOrDot
  split
  · exact goto_lawful hq hm hs htarget rfl rfl rfl rfl
  · split
    · exact error_lawful rfl
    · dsimp only
      split
      · exact error_lawful rfl
      · exact stay_lawful hq hm hs rfl rfl rfl rfl

theorem firstHttpMinor_lawful : (firstHttpMinor target q ch).Lawful c := by
  unfold firstHttpMinor
  split
  · exact error_lawful rfl
  · exact goto_lawful hq hm hs htarget rfl rfl rfl rfl

end Steady

/-! ## The start of a message -/

theorem dead_lawful (h : q.state = .dead) (hq : Finds q c) (hm : c.marked = none) :
    (dead q ch).Lawful c := by
  unfold dead
  split
  · exact stay_lawful hq hm (by rw [h]; rfl) rfl rfl rfl rfl
  · exact error_lawful rfl

theorem startReq_lawful (h : q.state = .startReq) (hq : Finds q c) (hm : c.marked = none) :
    (startReq q ch).Lawful c := by
  have hphase : c.phase = .idle := hq.phase_eq (by rw [h]; rfl)
  unfold startReq
  split
  · exact stay_lawful hq hm (by rw [h]; rfl) rfl rfl rfl rfl
  · dsimp only
    split
    · exact error_lawful rfl
    · split
      · exact error_lawful rfl
      · simp [hphase, hm, hq.errno, hq.nread_le, hq.left_pos]

theorem startReqOrRes_lawful (h : q.state = .startReqOrRes) (hq : Finds q c)
    (hm : c.marked = none) : (startReqOrRes q ch).Lawful c := by
  have hphase : c.phase = .idle := hq.phase_eq (by rw [h]; rfl)
  unfold startReqOrRes
  split
  · exact stay_lawful hq hm (by rw [h]; rfl) rfl rfl rfl rfl
  · dsimp only
    split
    · simp [hphase, hm, hq.errno, hq.nread_le, hq.left_pos]
    · exact startReq_lawful rfl
        ⟨hq.errno, Nat.le_refl _, trivial, hphase, fun _ => rfl, hq.nread_le, nofun, hq.left_pos⟩ hm

theorem resOrRespH_lawful (h : q.state = .resOrRespH) (hq : Finds q c) (hm : c.marked = none) :
    (resOrRespH q ch).Lawful c := by
  have hs : q.state.steady = some .begun := by rw [h]; rfl
  unfold resOrRespH
  split_ifs
  · exact goto_lawful hq hm hs rfl rfl rfl rfl rfl
  · exact error_lawful rfl
  · exact goto_lawful hq hm hs rfl rfl rfl rfl rfl

theorem startRes_lawful (h : q.state = .startRes) (hq : Finds q c) (hm : c.marked = none) :
    (startRes q ch).Lawful c := by
  have hphase := hq.inPhase
  simp only [InPhase, h] at hphase
  unfold startRes
  dsimp only
  split_ifs
  · rcases hphase with hphase | hphase <;> simp [hphase, hm, hq.errno, hq.nread_le, hq.left_pos]
  · rcases hphase with hphase | hphase <;>
      simp [hphase, hm, hq.errno, hq.nread_le, hq.left_pos, h]
  · exact error_lawful rfl

/-! ## The status line -/

theorem resHttpMinor_lawful (h : q.state = .resHttpMinor) (hq : Finds q c)
    (hm : c.marked = none) : (resHttpMinor q ch).Lawful c := by
  have hs : q.state.steady = some .begun := by rw [h]; rfl
  unfold resHttpMinor
  split
  · exact goto_lawful hq hm hs rfl rfl rfl rfl rfl
  · exact httpMinorDigit_lawful hq hm hs

theorem resFirstStatusCode_lawful (h : q.state = .resFirstStatusCode) (hq : Finds q c)
    (hm : c.marked = none) : (resFirstStatusCode q ch).Lawful c := by
  have hs : q.state.steady = some .begun := by rw [h]; rfl
  unfold resFirstStatusCode
  split_ifs
  · exact stay_lawful hq hm hs rfl rfl rfl rfl
  · exact error_lawful rfl
  · exact goto_lawful hq hm hs rfl rfl rfl rfl rfl

/-- The end of a start line, in states other than the steady ones too. -/
theorem startLineEnd_rests {q' : Registers} (hq : Finds q c)
    (hphase : c.phase = .begun ∨ c.phase = .target) (herrno : q'.httpErrno = q.httpErrno)
    (hlen : q'.contentLength = q.contentLength) (hflags : q'.flags = q.flags)
    (hs : q'.state = .resLineAlmostDone ∨ q'.state = .headerFieldStart) :
    q'.Rests c.nread c.phase := by
  refine ⟨herrno.trans hq.errno, hlen ▸ hq.contentLength_le, ?_, ?_, hflags ▸ hq.headers,
    hq.nread_le, ?_⟩
  · rcases hs with hs | hs <;> simp [hs]
  · rcases hs with hs | hs <;> rcases hphase with hphase | hphase <;> simp [hs, hphase]
  · rcases hs with hs | hs <;> simp [hs]

theorem startLineEnd_lawful {q' : Registers} (hq : Finds q c) (hm : c.marked = none)
    (hphase : c.phase = .begun ∨ c.phase = .target) (herrno : q'.httpErrno = q.httpErrno)
    (hlen : q'.contentLength = q.contentLength) (hflags : q'.flags = q.flags)
    (hs : q'.state = .resLineAlmostDone ∨ q'.state = .headerFieldStart) :
    (Reaction.next q').Lawful c := by
  refine next_lawful hm hq.left_pos ?_ (startLineEnd_rests hq hphase herrno hlen hflags hs)
  rcases hs with hs | hs <;> rw [hs] <;> rfl

theorem resStatusCode_lawful (h : q.state = .resStatusCode) (hq : Finds q c)
    (hm : c.marked = none) : (resStatusCode q ch).Lawful c := by
  have hs : q.state.steady = some .begun := by rw [h]; rfl
  have hphase : c.phase = .begun ∨ c.phase = .target := Or.inl (hq.phase_eq hs)
  unfold resStatusCode
  split
  · split_ifs
    · exact goto_lawful hq hm hs rfl rfl rfl rfl rfl
    · exact startLineEnd_lawful hq hm hphase rfl rfl rfl (Or.inl rfl)
    · exact startLineEnd_lawful hq hm hphase rfl rfl rfl (Or.inr rfl)
    · exact error_lawful rfl
  · dsimp only
    split
    · exact error_lawful rfl
    · exact stay_lawful hq hm hs rfl rfl rfl rfl

theorem resStatusStart_lawful (h : q.state = .resStatusStart) (hq : Finds q c)
    (hm : c.marked = none) : (resStatusStart q ch).Lawful c := by
  have hphase : c.phase = .begun := hq.phase_eq (by rw [h]; rfl)
  have htrailing : q.flags.trailing = false := hq.headers (Or.inl hphase)
  unfold resStatusStart
  split_ifs
  · exact startLineEnd_lawful hq hm (Or.inl hphase) rfl rfl rfl (Or.inl rfl)
  · exact startLineEnd_lawful hq hm (Or.inl hphase) rfl rfl rfl (Or.inr rfl)
  · simp [hm, hphase, htrailing, hq.errno, hq.contentLength_le, hq.nread_le, hq.left_pos]

theorem resStatus_lawful (h : q.state = .resStatus) (hq : Finds q c)
    (hm : c.marked = some .status) : (resStatus q ch).Lawful c := by
  have hphase : c.phase = .target := by simpa [h] using hq.inPhase
  have htrailing : q.flags.trailing = false := hq.headers (Or.inr hphase)
  unfold resStatus
  split_ifs <;>
    simp [hm, h, hphase, htrailing, hq.errno, hq.contentLength_le, hq.nread_le, hq.left_pos]

theorem resLineAlmostDone_lawful (h : q.state = .resLineAlmostDone) (hq : Finds q c)
    (hm : c.marked = none) : (resLineAlmostDone q ch).Lawful c := by
  have hphase : c.phase = .begun ∨ c.phase = .target := by simpa [h] using hq.inPhase
  unfold resLineAlmostDone strictCheck
  split
  · exact error_lawful rfl
  · exact startLineEnd_lawful hq hm hphase rfl rfl rfl (Or.inr rfl)

/-! ## The request line -/

theorem reqMethod_lawful (h : q.state = .reqMethod) (hq : Finds q c) (hm : c.marked = none) :
    (reqMethod q ch).Lawful c := by
  have hs : q.state.steady = some .begun := by rw [h]; rfl
  unfold reqMethod
  dsimp only
  split_ifs
  · exact error_lawful rfl
  · exact goto_lawful hq hm hs rfl rfl rfl rfl rfl
  · exact stay_lawful hq hm hs rfl rfl rfl rfl
  · split
    · exact error_lawful rfl
    · exact stay_lawful hq hm hs rfl rfl rfl rfl

/-- The states inside a request target. -/
theorem inPhase_of_url {φ : Phase} (h : resumedMark q.state = some .url) :
    q.InPhase φ ↔ φ = .target := by
  cases hs : q.state <;> simp_all

theorem fitsState_of_url (h : resumedMark q.state = some .url) : q.FitsState := by
  cases hs : q.state <;> simp_all

/-- `parse_url_char` stays inside the target or finds an error. -/
theorem parseUrlChar_mark (s : State) (ch : UInt8) :
    parseUrlChar s ch = .dead ∨ resumedMark (parseUrlChar s ch) = some .url := by
  have hserver : parseServerChar ch = .dead ∨ resumedMark (parseServerChar ch) = some .url := by
    unfold parseServerChar
    split_ifs <;> simp
  unfold parseUrlChar
  split
  · exact Or.inl rfl
  split
  · exact Or.inl rfl
  cases s with
  | reqServerStart | reqServer => exact hserver
  | reqServerWithAt =>
      dsimp only
      split
      · exact Or.inl rfl
      · exact hserver
  | reqSpacesBeforeUrl | reqSchema | reqSchemaSlash | reqSchemaSlashSlash | reqPath
  | reqQueryStringStart | reqQueryString | reqFragmentStart | reqFragment =>
      dsimp only
      split_ifs <;> simp
  | _ => exact Or.inl rfl

theorem urlChar_lawful (hm : c.marked = some .url) (hphase : c.phase = .target)
    (herrno : q.httpErrno = .ok) (hlen : q.contentLength ≤ ullongMax)
    (htrailing : q.flags.trailing = false) (hnread : c.nread ≤ httpMaxHeaderSize)
    (hleft : 0 < c.left) : (urlChar q ch).Lawful c := by
  unfold urlChar
  dsimp only
  split
  next hdead => exact error_lawful rfl
  next hdead =>
    have hmark : resumedMark (parseUrlChar q.state ch) = some .url :=
      (parseUrlChar_mark q.state ch).resolve_left hdead
    refine ⟨hleft, Or.inl (hm.trans hmark.symm), .target, by simp [hm, hphase], herrno, hlen,
      fitsState_of_url hmark, (inPhase_of_url hmark).mpr rfl, fun _ => htrailing, hnread, ?_⟩
    intro hs
    rw [show parseUrlChar q.state ch = .chunkSizeStart from hs] at hmark
    simp at hmark

theorem reqSpacesBeforeUrl_lawful (h : q.state = .reqSpacesBeforeUrl) (hq : Finds q c)
    (hm : c.marked = none) : (reqSpacesBeforeUrl q ch).Lawful c := by
  have hs : q.state.steady = some .begun := by rw [h]; rfl
  have hphase : c.phase = .begun := hq.phase_eq hs
  have htrailing : q.flags.trailing = false := hq.headers (Or.inl hphase)
  unfold reqSpacesBeforeUrl
  split
  · exact stay_lawful hq hm hs rfl rfl rfl rfl
  · refine Or.inl ⟨hm, .target, by rw [hphase]; rfl, ?_⟩
    split <;> exact urlChar_lawful rfl rfl hq.errno hq.contentLength_le htrailing hq.nread_le
      hq.left_pos

section Url

variable (h : resumedMark q.state = some .url) (hq : Finds q c) (hm : c.marked = some .url)

include h hq hm

theorem reqSchema_lawful : (reqSchema q ch).Lawful c := by
  have hphase : c.phase = .target := (inPhase_of_url h).mp hq.inPhase
  unfold reqSchema
  split
  · exact error_lawful rfl
  · exact urlChar_lawful hm hphase hq.errno hq.contentLength_le (hq.headers (Or.inr hphase))
      hq.nread_le hq.left_pos

theorem reqServer_lawful : (reqServer q ch).Lawful c := by
  have hphase : c.phase = .target := (inPhase_of_url h).mp hq.inPhase
  have htrailing : q.flags.trailing = false := hq.headers (Or.inr hphase)
  unfold reqServer
  split
  · simp [hm, hphase, htrailing, hq.errno, hq.contentLength_le, hq.nread_le, hq.left_pos]
  split
  · by_cases hcr : ch = CR <;>
      simp [hcr, hm, hphase, htrailing, hq.errno, hq.contentLength_le, hq.nread_le, hq.left_pos]
  · exact urlChar_lawful hm hphase hq.errno hq.contentLength_le htrailing hq.nread_le hq.left_pos

end Url

theorem reqHttpStart_lawful (h : q.state = .reqHttpStart) (hq : Finds q c)
    (hm : c.marked = none) : (reqHttpStart q ch).Lawful c := by
  have hs : q.state.steady = some .target := by rw [h]; rfl
  unfold reqHttpStart
  split_ifs
  · exact goto_lawful hq hm hs rfl rfl rfl rfl rfl
  · exact stay_lawful hq hm hs rfl rfl rfl rfl
  · exact error_lawful rfl

theorem reqHttpMinor_lawful (h : q.state = .reqHttpMinor) (hq : Finds q c)
    (hm : c.marked = none) : (reqHttpMinor q ch).Lawful c := by
  have hs : q.state.steady = some .target := by rw [h]; rfl
  unfold reqHttpMinor
  split_ifs
  · exact goto_lawful hq hm hs rfl rfl rfl rfl rfl
  · exact startLineEnd_lawful hq hm (Or.inr (hq.phase_eq hs)) rfl rfl rfl (Or.inr rfl)
  · exact httpMinorDigit_lawful hq hm hs

theorem reqLineAlmostDone_lawful (h : q.state = .reqLineAlmostDone) (hq : Finds q c)
    (hm : c.marked = none) : (reqLineAlmostDone q ch).Lawful c := by
  have hs : q.state.steady = some .target := by rw [h]; rfl
  unfold reqLineAlmostDone
  split
  · exact error_lawful rfl
  · exact startLineEnd_lawful hq hm (Or.inr (hq.phase_eq hs)) rfl rfl rfl (Or.inr rfl)

end Http2Asio.Http1
