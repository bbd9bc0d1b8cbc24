import Http2Asio.Http1.Lawful.Reaction

/-!
# The end of the headers, of the message, and the names of the fields

At the beginning of a line of the headers or of the trailer there is a field or the end of
them.  `AtField` is what is known there and `AtLine` the part of it that does not depend on
what the line is for; both are stated without the state, because states fall through to
each other here, and then the parser has not been updated.

The end of the headers is the only place where the phase is computed: `framing` is what
the callbacks are told to expect, from the registers that they can see.  `headersDone`
takes the same decisions from the same registers, in another order, and
`headersDone_lawful` compares them case by case.  Since `on_headers_complete` may ask for
the body to be skipped, the reaction has two branches from there, and both are followed.

A message ends in `completeMessage`, with the phase `.body 0`: all that was announced has
been passed on.  It is reached from a message without a body, from the last byte of one,
and from the end of the trailer.

The name of a field is matched while it is read.  The loop stays in the states of a name
(`headerFieldLoop_inField`), so its assertion does not fail, and it stops at the first
byte that is not a token, or at the end of the buffer.
-/

namespace Http2Asio.Http1

open Registers Reaction

variable {q : Registers} {c : Cursor} {ch : UInt8} {rest : List UInt8}

attribute [local simp] Lawful HttpErrno.parsing rests_iff FitsState InPhase AwaitsField MarkFits
  resumedMark
  updateState setErrno Registers.error Phase.notify Phase.data Phase.headersComplete

/-! ## The end of the headers and of the message -/

/-- What the end of a message asks for, wherever it is found. -/
structure AtLine (q : Registers) (c : Cursor) : Prop where
  errno : q.httpErrno = .ok
  contentLength_le : q.contentLength ≤ ullongMax
  nread_le : c.nread ≤ httpMaxHeaderSize
  left_pos : 0 < c.left
  unmarked : c.marked = none

theorem Finds.atLine (hq : Finds q c) (hm : c.marked = none) : AtLine q c :=
  ⟨hq.errno, hq.contentLength_le, hq.nread_le, hq.left_pos, hm⟩

theorem newMessage_mark : resumedMark q.newMessage = none := by
  unfold newMessage startState
  split_ifs <;> rfl

theorem newMessage_rests {n : ℕ} (herrno : q.httpErrno = .ok) (hlen : q.contentLength ≤ ullongMax)
    (hn : n ≤ httpMaxHeaderSize) : (q.updateState q.newMessage).Rests n .idle := by
  unfold newMessage startState
  split_ifs <;> simp [herrno, hlen, hn]

theorem completeMessage_lawful {rest : Registers → Reaction} (hq : AtLine q c)
    (hphase : c.phase = .body 0)
    (hrest : (rest (q.updateState q.newMessage)).Lawful { c with phase := .idle }) :
    (q.completeMessage rest).Lawful c := by
  unfold completeMessage
  exact ⟨fun _ => hq.left_pos, hq.unmarked, .idle, by rw [hphase]; rfl,
    newMessage_rests hq.errno hq.contentLength_le hq.nread_le, hrest⟩

theorem completeMessage_next_lawful (hq : AtLine q c) (hphase : c.phase = .body 0) :
    (q.completeMessage .next).Lawful c :=
  completeMessage_lawful hq hphase <|
    next_lawful hq.unmarked hq.left_pos newMessage_mark
      (newMessage_rests hq.errno hq.contentLength_le hq.nread_le)

theorem completeMessage_exit_lawful (hq : AtLine q c) (hphase : c.phase = .body 0)
    (hupgrade : q.upgrade = true) : (q.completeMessage .exit).Lawful c :=
  completeMessage_lawful hq hphase
    ⟨hupgrade, hq.left_pos, hq.unmarked, newMessage_rests hq.errno hq.contentLength_le hq.nread_le⟩

theorem messageDone_lawful (hq : AtLine q c) (hphase : c.phase = .body 0) :
    (messageDone q).Lawful c := by
  unfold messageDone
  by_cases hupgrade : q.upgrade = true
  · have hexit := completeMessage_exit_lawful hq hphase hupgrade
    simpa [completeMessage, hupgrade] using hexit
  · have hnext := completeMessage_next_lawful hq hphase
    simpa [completeMessage, hupgrade] using hnext

theorem hasBody_view : q.view.hasBody ↔ hasBody q = true := by
  simp [ParserView.hasBody, hasBody, view]

theorem framing_view : framing q.view =
    if q.flags.skipbody then .body 0
    else if q.upgrade ∧ (q.method = .connect ∨ ¬ hasBody q) then .body 0
    else if q.flags.chunked then .chunks
    else if q.contentLength ≠ ullongMax then .body q.contentLength
    else if httpMessageNeedsEof q.view then .untilClose
    else .body 0 := by
  simp only [framing, hasBody_view]
  rfl

/-- `s_headers_done` goes on as the framing of the message says. -/
theorem headersDone_lawful (hq : AtLine q c) (hphase : c.phase = framing q.view) :
    (headersDone q ch).Lawful c := by
  have hreset : AtLine q { c with nread := 0 } :=
    ⟨hq.errno, hq.contentLength_le, Nat.zero_le _, hq.left_pos, hq.unmarked⟩
  unfold headersDone
  split
  · exact error_lawful rfl
  · rw [framing_view] at hphase
    rw [Lawful]
    split
    -- the rest of the input is another protocol, and the call returns
    next hupgrade =>
      refine completeMessage_exit_lawful hreset (hphase.trans ?_) hupgrade.1
      by_cases hskip : q.flags.skipbody = true
      · exact if_pos hskip
      · rw [if_neg hskip, if_pos ⟨hupgrade.1, by simpa [hskip] using hupgrade.2⟩]
    next hupgrade =>
    split
    -- `on_headers_complete` has answered 1
    next hskip => exact completeMessage_next_lawful hreset (hphase.trans (if_pos hskip))
    next hskip =>
    have hplain : ¬ (q.upgrade = true ∧ (q.method = .connect ∨ ¬ hasBody q = true)) := by
      intro h
      exact hupgrade ⟨h.1, h.2.imp_right fun h => Or.inr (by simpa using h)⟩
    rw [if_neg hskip, if_neg hplain] at hphase
    split
    -- chunks, whatever `Content-Length` says
    next hchunked =>
      rw [if_pos hchunked] at hphase
      exact next_lawful hq.unmarked hq.left_pos rfl
        ⟨hq.errno, hq.contentLength_le, hchunked, hphase, by simp [hphase], Nat.zero_le _,
          fun _ => rfl⟩
    next hchunked =>
    rw [if_neg hchunked] at hphase
    split
    next hzero =>
      refine completeMessage_next_lawful hreset (hphase.trans ?_)
      rw [if_pos (by rw [hzero]; decide), hzero]
    next hzero =>
    split
    -- a body of a known length
    next hlen =>
      rw [if_pos hlen] at hphase
      exact next_lawful hq.unmarked hq.left_pos rfl
        ⟨hq.errno, hq.contentLength_le, ⟨hzero, hlen⟩, hphase, by simp [hphase], Nat.zero_le _,
          nofun⟩
    next hlen =>
    rw [if_neg hlen] at hphase
    split
    -- a message that needs no end of the input has no body
    next heof =>
      rw [if_neg (by simpa using heof)] at hphase
      exact completeMessage_next_lawful hreset hphase
    next heof =>
      rw [if_pos (by simpa using heof)] at hphase
      exact next_lawful hq.unmarked hq.left_pos rfl
        ⟨hq.errno, hq.contentLength_le, trivial, hphase, by simp [hphase], Nat.zero_le _, nofun⟩

/-- A line at which a field may begin. -/
structure AtField (q : Registers) (c : Cursor) : Prop extends AtLine q c where
  awaits : AwaitsField q.flags.trailing c.phase
  headers : c.phase = .begun ∨ c.phase = .target → q.flags.trailing = false

theorem headersAlmostDone_lawful (hq : AtField q c) : (headersAlmostDone q ch).Lawful c := by
  unfold headersAlmostDone
  split
  · exact error_lawful rfl
  split
  -- the empty line after a trailer ends the message
  next htrailing =>
    have hphase : c.phase = .trailers ∨ c.phase = .value true := by
      have hawaits := hq.awaits
      have hheaders := hq.headers
      rw [htrailing] at hawaits hheaders
      cases hc : c.phase <;> simp_all
    refine ⟨nofun, hq.unmarked, .body 0, ?_, ?_, ?_⟩
    · rcases hphase with hphase | hphase <;> rw [hphase] <;> rfl
    · simp [hq.errno, hq.contentLength_le, hq.nread_le]
    · exact messageDone_lawful
        ⟨hq.errno, hq.contentLength_le, hq.nread_le, hq.left_pos, hq.unmarked⟩ rfl
  next htrailing =>
    have hphase : ∀ v, c.phase.headersComplete v = some (framing v) := by
      have hawaits := hq.awaits
      intro v
      cases hc : c.phase <;> simp_all
    have hline : ∀ q' : Registers, q'.httpErrno = q.httpErrno →
        q'.contentLength = q.contentLength → AtLine q' { c with phase := framing q'.view } :=
      fun q' herrno hlen => ⟨herrno.trans hq.errno, hlen ▸ hq.contentLength_le, hq.nread_le,
        hq.left_pos, hq.unmarked⟩
    -- the same for both answers of `on_headers_complete`, whose registers differ in one flag
    have hrests : ∀ q' : Registers, q'.httpErrno = q.httpErrno →
        q'.contentLength = q.contentLength → q'.flags.trailing = q.flags.trailing →
        q'.state = .headersDone → q'.Rests c.nread (framing q'.view) := by
      intro q' herrno hlen hflag hstate
      refine ⟨herrno.trans hq.errno, hlen ▸ hq.contentLength_le, ?_, ?_, fun _ => ?_,
        hq.nread_le, ?_⟩
      · simp [hstate]
      · simp [hstate]
      · rw [hflag]
        simpa using htrailing
      · simp [hstate]
    exact ⟨hq.unmarked,
      ⟨_, hphase _, hrests _ rfl rfl rfl rfl, headersDone_lawful (hline _ rfl rfl) rfl⟩,
      ⟨_, hphase _, hrests _ rfl rfl rfl rfl, headersDone_lawful (hline _ rfl rfl) rfl⟩⟩

/-! ## Header fields -/

theorem headerFieldStart_lawful (hq : AtField q c) : (headerFieldStart q ch).Lawful c := by
  unfold headerFieldStart
  split
  · refine next_lawful hq.unmarked hq.left_pos rfl ?_
    exact ⟨hq.errno, hq.contentLength_le, trivial, hq.awaits, hq.headers, hq.nread_le, nofun⟩
  split
  · exact headersAlmostDone_lawful
      ⟨⟨hq.errno, hq.contentLength_le, hq.nread_le, hq.left_pos, hq.unmarked⟩, hq.awaits,
        hq.headers⟩
  dsimp only
  split
  · exact error_lawful rfl
  · have hfield : c.phase.data .headerField 0 = some (.field q.flags.trailing) := by
      have hawaits := hq.awaits
      have hheaders := hq.headers
      cases hc : c.phase <;> simp_all
    refine Or.inl ⟨hq.unmarked, _, hfield, hq.left_pos, Or.inl rfl, .field q.flags.trailing, rfl,
      hq.errno, hq.contentLength_le, ?_, rfl, nofun, hq.nread_le, nofun⟩
    change HeaderState.inField (ite _ _ _) = true
    split_ifs <;> rfl

theorem Finds.atField (hq : Finds q c) (hm : c.marked = none)
    (hawaits : AwaitsField q.flags.trailing c.phase) : AtField q c :=
  ⟨hq.atLine hm, hawaits, hq.headers⟩

theorem matchWord_inField {word : List UInt8} {going found : HeaderState} {index : ℕ} {b : UInt8}
    (hgoing : going.inField = true) (hfound : found.inField = true) :
    (matchWord word going found .general index b).inField = true := by
  unfold matchWord
  split_ifs <;> first | rfl | assumption

/-- The name is matched in the states of a name, so the assertion holds. -/
theorem headerFieldChar_inField (ch : UInt8) (h : q.headerState.inField = true) :
    ∃ s i, headerFieldChar q ch = some { q with headerState := s, index := i } ∧
      s.inField = true := by
  unfold headerFieldChar
  dsimp only
  cases hs : q.headerState with
  | general => exact ⟨q.headerState, q.index, rfl, by rw [hs]; rfl⟩
  | c | co => exact ⟨_, _, rfl, by split_ifs <;> rfl⟩
  | con => exact ⟨_, _, rfl, by split_ifs <;> rfl⟩
  | matchingConnection | matchingProxyConnection | matchingContentLength
  | matchingTransferEncoding | matchingUpgrade =>
      exact ⟨_, _, rfl, matchWord_inField rfl rfl⟩
  | connection | contentLength | transferEncoding | upgrade =>
      by_cases hspace : ch = ' '.toUInt8
      · refine ⟨q.headerState, q.index, ?_, by rw [hs]; rfl⟩
        dsimp only
        rw [if_neg (not_not_intro hspace)]
      · refine ⟨.general, q.index, ?_, rfl⟩
        dsimp only
        rw [if_pos hspace]
  | _ => simp [hs, HeaderState.inField] at h

/-- The loop passes the bytes of the name that the buffer holds. -/
theorem headerFieldLoop_inField (l : List UInt8) (h : q.headerState.inField = true) :
    ∃ s i, headerFieldLoop q l =
        some ({ q with headerState := s, index := i }, (l.takeWhile (token · ≠ 0)).length) ∧
      s.inField = true := by
  induction l generalizing q with
  | nil => exact ⟨q.headerState, q.index, rfl, h⟩
  | cons b l ih =>
      unfold headerFieldLoop
      by_cases hb : token b = 0
      · rw [if_pos hb]
        exact ⟨q.headerState, q.index, by simp [hb], h⟩
      · obtain ⟨s, i, hchar, hs⟩ := headerFieldChar_inField b h
        obtain ⟨s', i', hloop, hs'⟩ := ih (q := { q with headerState := s, index := i }) hs
        refine ⟨s', i', ?_, hs'⟩
        rw [if_neg hb, hchar]
        simp [hloop, hb]

theorem headerField_lawful (h : q.state = .headerField) (hq : Finds q c)
    (hm : c.marked = some .headerField) (hleft : c.left = rest.length + 1) :
    (headerField q ch rest).Lawful c := by
  have hphase : c.phase = .field q.flags.trailing := by simpa [h] using hq.inPhase
  have hfits : q.headerState.inField = true := by simpa [h] using hq.fits
  obtain ⟨s, i, hloop, hs⟩ := headerFieldLoop_inField (ch :: rest) hfits
  unfold headerField
  rw [hloop]
  have hle : ((ch :: rest).takeWhile (token · ≠ 0)).length ≤ (ch :: rest).length :=
    (List.takeWhile_sublist _).length_le
  rw [List.length_cons, ← hleft] at hle
  dsimp only
  generalize ((ch :: rest).takeWhile (token · ≠ 0)).length = passed at hle ⊢
  refine ⟨hle, .field q.flags.trailing, by rw [hm, hphase]; rfl, fun hnread => ?_⟩
  cases hat : (ch :: rest)[passed]? with
  -- the name reaches the end of the buffer, and its mark stays
  | none =>
      have hend : c.left - passed = 0 := by
        have hlen := List.getElem?_eq_none_iff.mp hat
        rw [List.length_cons, ← hleft] at hlen
        omega
      exact ⟨hend, Or.inl (by rw [hm]; simp [h]), hq.errno, hq.contentLength_le,
        by simpa [h] using hs, by simp [h], nofun, hnread, by simp [h]⟩
  | some b =>
      have hmore : 0 < c.left - passed := by
        have hlen := (List.getElem?_eq_some_iff.mp hat).1
        rw [List.length_cons, ← hleft] at hlen
        omega
      dsimp only
      split
      · have hrests : ∀ q' : Registers, q'.httpErrno = q.httpErrno →
            q'.contentLength = q.contentLength → q'.flags = q.flags →
            q'.state = .headerValueDiscardWs → q'.Rests ((c.nread + passed) % 0x100000000)
              (.field q.flags.trailing) := by
          intro q' herrno hlen hflags hstate
          exact ⟨herrno.trans hq.errno, hlen ▸ hq.contentLength_le, by simp [hstate],
            by simp [hstate, hflags], nofun, hnread, by simp [hstate]⟩
        refine ⟨Nat.zero_le _, fun _ => hmore, Or.inr hm, .field q.flags.trailing,
          by rw [hm]; rfl, hrests _ rfl rfl rfl rfl, ?_⟩
        exact next_lawful rfl hmore rfl (hrests _ rfl rfl rfl rfl)
      · exact error_lawful rfl

end Http2Asio.Http1
