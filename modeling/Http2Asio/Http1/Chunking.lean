import Http2Asio.Http1.Twins
import Http2Asio.Http1.Scans
import Mathlib.Data.List.TakeWhile

/-!
# Where the input is cut does not matter

The source reads a buffer with loops that pass many bytes at once and with marks that span
them; the plain parser of `Plain.lean` gets one byte at a time and never holds anything back.
This module shows that a call ends as the plain parser does on the bytes of its buffer
(`httpParserExecute_plain`), unless it finds the header too long.

The relation between the two is `Outcome.Plain`: after an iteration that starts at `p` and
ends at `p'`, the plain parser, fed the bytes from `p` to `p'`, has the same registers, and
its callbacks have what those of the source will have once the marks are flushed.  An
iteration reads in one of three ways, and each has its lemma:

* one byte, in a state without a loop (`iteration_plain_of_single`): the reaction is the same
  in both, and `Twins.lean` compares its two runs;
* a stretch of a body (`iteration_plain_of_body`): all bytes but the last are passed by the
  loop, and the reaction to the last is compared as before;
* a stretch of a name or a value (`iteration_plain_of_scan`): the loop stops at a byte that
  does not belong to it, or at the end of the buffer.

What the loops pass is a fact about the plain parser alone, proved in `Scans.lean`.  The one
case that has no counterpart is a value longer than `HTTP_MAX_HEADER_SIZE`: its loop may run
past the end of the line, and the call ends with `HPE_HEADER_OVERFLOW`
(`headerValue_overflow`).
-/

namespace Http2Asio.Http1

open Feeding Registers

section Chunking

variable {σ : Type} {S : HttpParserSettings σ} {act : DataCb → List UInt8 → σ → σ}
  {data rest l : List UInt8} {b : UInt8} {p p' n : ℕ} {e e₁ : Exec σ} {c c₁ : Cursor} {k : DataCb}
  {q q' : Registers} {u u' : σ} {φ : Phase}

/-! ## Between two bytes of the plain parser -/

/-- The state of a loop whose callbacks are not looked at. -/
abbrev AtHead (data : List UInt8) (c : Cursor) (e : Exec σ) : Prop :=
  AtByte (fun _ _ => True) data c e

theorem Pending.oneMark {T : σ → Phase → Prop} {marks : DataCb → Option ℕ}
    {marked : Option DataCb} (h : Pending T marks p u marked φ) : OneMark marks := by
  cases h with
  | clear hmarks _ => exact Or.inl hmarks
  | since hmarks _ _ _ => exact Or.inr ⟨_, _, hmarks⟩

theorem Registers.Rests.uncounted (h : q.Rests n φ) : q.Rests 0 φ :=
  ⟨h.errno, h.contentLength_le, h.fits, h.inPhase, h.headers, Nat.zero_le _, fun _ => rfl⟩

namespace Registers.Rests

theorem inField (h : q.Rests n φ) (hs : q.state = .headerField) :
    q.headerState.inField = true := by
  simpa [FitsState, hs] using h.fits

theorem inValue (h : q.Rests n φ) (hs : q.state = .headerValue) :
    q.headerState.inValue = true := by
  simpa [FitsState, hs] using h.fits

theorem hasLeft (h : q.Rests n φ) (hs : q.state = .bodyIdentity) : q.HasLeft := by
  simpa [FitsState, hs] using h.fits

theorem chunkLeft (h : q.Rests n φ) (hs : q.state = .chunkData) :
    q.flags.chunked = true ∧ q.HasLeft := by
  simpa [FitsState, hs] using h.fits

end Registers.Rests

theorem plainStart (h : q.Rests n φ) :
    AtHead [b] ⟨1, 0, resumedMark q.state, φ⟩ (startExec ⟨q, 0⟩ u) :=
  startExec_atByte [b] ⟨q, 0⟩ True.intro h.uncounted

theorem plainStep_looping (hS : Incremental S act)
    (hrun : (iteration q b []).run S [b] (startExec ⟨q, 0⟩ u) = .looping e)
    (herrno : e.parser.httpErrno = .ok) (hone : OneMark e.marks) :
    plainStep S (q, u) b = .goes (e.parser.toRegisters, flush act [b] e) := by
  unfold plainStep
  rw [hrun]
  dsimp only
  rw [finish_incremental hS herrno hone]

theorem plainStep_returned {parser : HttpParser}
    (hrun : (iteration q b []).run S [b] (startExec ⟨q, 0⟩ u) = .returned n parser u') :
    plainStep S (q, u) b = .stops (parser.toRegisters, u') (n != 0) := by
  unfold plainStep
  rw [hrun]

/-- The plain parser keeps what holds between two bytes. -/
theorem plainStep_rests (hS : Incremental S act) (h : ∃ φ, q.Rests 0 φ)
    (hstep : plainStep S (q, u) b = .goes (q', u')) : ∃ φ, q'.Rests 0 φ := by
  obtain ⟨φ, h⟩ := h
  have hsound := iteration_sound (Tracks.trivial S) (plainStart (b := b) (u := u) h) rfl
  generalize hrun : (iteration (startExec ⟨q, 0⟩ u).parser.toRegisters b []).run S [b]
    (startExec ⟨q, 0⟩ u) = outcome at hsound
  cases outcome with
  | looping e =>
      obtain ⟨-, c, hat⟩ := hsound
      rw [plainStep_looping (q := q) hS hrun hat.rests.errno hat.pending.oneMark] at hstep
      cases hstep
      exact ⟨c.phase, hat.rests.uncounted⟩
  | returned n parser u =>
      rw [plainStep_returned (q := q) hrun] at hstep
      exact absurd hstep nofun
  | aborted => exact hsound.elim

theorem feed_rests (hS : Incremental S act) (h : q.Rests n φ)
    (hfeed : (plainParser S).feed (q, u) l = ⟨(q', u'), l.length, false⟩) : ∃ ψ, q'.Rests 0 ψ :=
  Feeder.feed_invariant (F := plainParser S) (P := fun s => ∃ ψ, s.1.Rests 0 ψ)
    (fun _ _ _ => plainStep_rests hS) ⟨φ, h.uncounted⟩ hfeed

/-! ## What is compared -/

/-- From `p` on, an iteration does what the plain parser does, unless it finds the header too
long. -/
def Outcome.Plain (S : HttpParserSettings σ) (act : DataCb → List UInt8 → σ → σ)
    (data : List UInt8) (s : Registers × σ) (p : ℕ) : Outcome σ → Prop
  | .looping e =>
      p ≤ e.p ∧ (plainParser S).feed s (slice data p e.p) =
        ⟨(e.parser.toRegisters, flush act data e), (slice data p e.p).length, false⟩
  | .returned n parser u =>
      parser.httpErrno = .headerOverflow ∨
        p ≤ n ∧ ∃ u', (plainParser S).feed s (data.drop p) =
            ⟨(parser.toRegisters, u'), n - p, true⟩ ∧
          (parser.httpErrno.parsing = false → u' = u)
  | .aborted => False

theorem drop_eq_slice_append (h : p ≤ p') : data.drop p = slice data p p' ++ data.drop p' := by
  rw [slice, ← Nat.add_sub_of_le h, Nat.add_sub_cancel_left, ← List.drop_drop,
    List.take_append_drop]

theorem slice_append {m : ℕ} (hm : m ≤ p) (hp : p ≤ p') :
    slice data m p' = slice data m p ++ slice data p p' := by
  have hsum : p' - m = (p - m) + (p' - p) := by omega
  rw [slice, slice, slice, hsum, List.take_add, List.drop_drop, Nat.add_sub_of_le hm]

/-- The plain parser passes some bytes, and then both do the same with one byte. -/
theorem Agree.plain (hS : Incremental S act) {s : Registers × σ} {outcome : Outcome σ}
    (hrests : q.Rests 0 φ) (hle : p ≤ p') (hdrop : data.drop p' = b :: rest)
    (hfeed : (plainParser S).feed s (slice data p p') =
      ⟨(q, u), (slice data p p').length, false⟩)
    (h : Agree act data b p' outcome
      ((iteration q b []).run S [b] (startExec ⟨q, 0⟩ u))) :
    outcome.Plain S act data s p := by
  have hsound := iteration_sound (Tracks.trivial S) (plainStart (b := b) (u := u) hrests) rfl
  generalize hrun : (iteration q b []).run S [b] (startExec ⟨q, 0⟩ u) = outcome₁ at h
  have hlength : (slice data p p').length = p' - p := by
    refine slice_length ?_
    by_contra hlt
    rw [List.drop_eq_nil_of_le (by omega)] at hdrop
    exact absurd hdrop nofun
  cases h with
  | @looping e e₁ hregisters hp hmarks hmarks₁ huser =>
      rw [show (iteration (startExec ⟨q, 0⟩ u).parser.toRegisters b []).run S [b]
        (startExec ⟨q, 0⟩ u) = .looping e₁ from hrun] at hsound
      obtain ⟨-, c₁, hat⟩ := hsound
      have hstep := plainStep_looping hS hrun hat.rests.errno hmarks₁
      have hslice : slice data p e.p = slice data p p' ++ [b] := by
        rw [hp]
        exact slice_succ hle hdrop
      refine ⟨by omega, ?_⟩
      rw [hslice, hregisters, huser]
      exact Feeder.feed_append_goes_goes hfeed (Feeder.feed_singleton_goes hstep)
  | @returned n parser parser₁ u u₁ hn hregisters huser =>
      refine Or.inr ⟨by omega, u₁, ?_, fun h => (huser h).symm⟩
      rw [drop_eq_slice_append hle, hdrop, Feeder.feed_append_goes hfeed,
        Feeder.feed_cons_stops (plainStep_returned hrun), hlength, hregisters]
      have hcount : (if (n != 0) = true then 1 else 0) = n := by
        rcases Nat.le_one_iff_eq_zero_or_eq_one.mp hn with rfl | rfl <;> rfl
      simp only [hcount]
      rw [Nat.sub_add_comm hle]
  | overflow herrno => exact Or.inl herrno

/-! ## Reactions, from both sides -/

/-- At the head of an iteration the marks are those of a byte on its own, or bytes of a body
wait. -/
theorem startExec_twin (act : DataCb → List UInt8 → σ → σ) (h : AtHead data c e) :
    (c.marked = resumedMark e.parser.state ∧
      Twin act data e.p e (startExec ⟨e.parser.toRegisters, 0⟩ (flush act data e)) c.marked) ∨
    ∃ m ≤ e.p, c.marked = some .body ∧ e.parser.state.inBody = true ∧
      e.marks = Function.update (fun _ => none) .body (some m) ∧
      act .body (slice data m e.p) e.user = flush act data e := by
  obtain ⟨⟨-, -, hpending⟩, hmark, -⟩ := h
  generalize c.marked = marked at hpending hmark ⊢
  cases hpending with
  | clear hmarks _ =>
      have hnone := hmark.resolve_right fun h => absurd h.1 nofun
      refine Or.inl ⟨hnone, .clear hmarks ?_ (flush_clear hmarks).symm⟩
      rw [startExec_eq_clear (by exact hnone.symm)]
  | @since k m _ _ hmarks hle _ _ =>
      rcases hmark with hmark | ⟨hbody, hin⟩
      · refine Or.inl ⟨hmark, .since hle hmarks ?_ (flush_since hmarks).symm⟩
        rw [startExec_eq (by exact hmark.symm)]
      · obtain rfl : k = .body := Option.some.inj hbody
        exact Or.inr ⟨m, hle, rfl, hin, hmarks, (flush_since hmarks).symm⟩

theorem run_count_cases (S : HttpParserSettings σ) (data : List UInt8) (q : Registers) (n : ℕ)
    (r : Reaction) (e : Exec σ) :
    (∃ parser, (Reaction.count q n r).run S data e = .returned e.p parser e.user ∧
      parser.httpErrno = .headerOverflow) ∨
    (e.parser.nread + n) % 0x100000000 ≤ httpMaxHeaderSize ∧
      (Reaction.count q n r).run S data e =
        r.run S data
          { e with
            parser := { e.parser with nread := (e.parser.nread + n) % 0x100000000 } } := by
  rw [Reaction.run]
  dsimp only
  split
  next => exact Or.inl ⟨_, rfl, rfl⟩
  next hover => exact Or.inr ⟨Nat.le_of_not_lt hover, rfl⟩

theorem run_move_zero {r : Reaction} : (Reaction.move 0 r).run S data e = r.run S data e :=
  rfl

theorem Lawful.mark {r : Reaction} (h : (Reaction.mark k r).Lawful c) :
    ∃ φ, r.Lawful { c with marked := some k, phase := φ } := by
  rcases h with ⟨-, φ, -, h⟩ | ⟨hm, h⟩
  · exact ⟨φ, h⟩
  · refine ⟨c.phase, ?_⟩
    rwa [← hm]

theorem turn_delivers (hloops : q.state.loops = false) (hbody : q.state.inBody = true) :
    (turn q b rest).Delivers := by
  have hs : q.state = .chunkDataAlmostDone := by
    cases hs : q.state <;> simp_all [State.loops, State.inBody]
  unfold turn
  rw [hs]
  dsimp only
  unfold chunkDataAlmostDone assertChunked
  split_ifs <;> simp [Reaction.Delivers, Registers.error]

theorem parsingHeader_inBody (h : q.state.inBody = true) : ¬ q.state.parsingHeader = true := by
  cases hs : q.state <;> simp_all [State.inBody, State.parsingHeader]

theorem resumedMark_inBody (h : q.state.inBody = true) : resumedMark q.state = none := by
  cases hs : q.state <;> rw [hs] at h <;> first | rfl | exact absurd h nofun

theorem turn_bodyIdentity (h : q.state = .bodyIdentity) : turn q b rest = bodyIdentity q rest := by
  unfold turn
  rw [h]

theorem turn_chunkData (h : q.state = .chunkData) : turn q b rest = chunkData q rest := by
  unfold turn
  rw [h]

theorem turn_headerField (h : q.state = .headerField) :
    turn q b rest = headerField q b rest := by
  unfold turn
  rw [h]

theorem turn_headerValue (h : q.state = .headerValue) :
    turn q b rest = headerValue q b rest := by
  unfold turn
  rw [h]

/-- Only the buffer counts the bytes that its loop passed. -/
theorem run_twin_count (hS : Incremental S act) (hb : data.drop p = b :: rest) {r : Reaction}
    (hsingle : r.Single) (hr : (Reaction.count q n r).Lawful c)
    (hr₁ : (Reaction.count q' 0 r).Lawful c₁) (h : Abreast p c c₁ e e₁)
    (hmarked₁ : c₁.marked = c.marked) (htwin : Twin act data p e e₁ c.marked)
    (hle : e₁.parser.nread ≤ httpMaxHeaderSize) :
    Agree act data b p ((Reaction.count q n r).run S data e)
      ((Reaction.count q' 0 r).run S [b] e₁) := by
  obtain ⟨hnread, hnread₁, hp, hp₁⟩ := h
  have hsame : (c₁.nread + 0) % 0x100000000 = e₁.parser.nread := by
    have hmax : httpMaxHeaderSize = 81920 := rfl
    omega
  rw [run_count (e := e₁) (n := 0) hle]
  rcases run_count_cases S data q n r e with ⟨parser, hrun, hover⟩ | ⟨hle', hrun⟩
  · exact hrun ▸ .overflow hover
  · have hrest := hr (hnread ▸ hle')
    have hrest₁ := hr₁ (hsame ▸ hle)
    refine hrun ▸ Reaction.run_twin hS hb hsingle hrest hrest₁ ⟨?_, hsame.symm, hp, hp₁⟩ hmarked₁
      (htwin.counted _ _)
    dsimp only
    rw [hnread]

/-- What `s_header_field` does with the byte after the name. -/
def headerFieldEnd (q : Registers) (b : UInt8) : Reaction :=
  if b = ':'.toUInt8 then
    .data .headerField 0 true (q.updateState .headerValueDiscardWs)
      (.next (q.updateState .headerValueDiscardWs))
  else q.error .invalidHeaderToken

theorem headerFieldEnd_single : (headerFieldEnd q b).Single := by
  unfold headerFieldEnd
  split <;> simp [Reaction.Single, Registers.error]

/-- A long stretch of a value is too long for a header. -/
theorem run_count_over (S : HttpParserSettings σ) (data : List UInt8) {r : Reaction}
    (hnread : e.parser.nread ≤ httpMaxHeaderSize)
    (hlong : httpMaxHeaderSize < n) (hsmall : n + httpMaxHeaderSize < 0x100000000) :
    ∃ parser, (Reaction.count q n r).run S data e = .returned e.p parser e.user ∧
      parser.httpErrno = .headerOverflow := by
  rcases run_count_cases S data q n r e with hover | ⟨hle, -⟩
  · exact hover
  · rw [Nat.mod_eq_of_lt (by omega)] at hle
    omega

/-- What `s_header_value` does where its loop stops. -/
def headerValueEnd (scan : ValueScan) : Reaction :=
  match scan.stop with
  | .bufferEnd => .count scan.after scan.passed (.endOfBuffer scan.after)
  | .cr =>
      .data .headerValue 0 true (scan.after.updateState .headerAlmostDone)
        (.count (scan.after.updateState .headerAlmostDone) scan.passed
          (.next (scan.after.updateState .headerAlmostDone)))
  | .lf =>
      .count { scan.registers with state := .headerAlmostDone } scan.passed
        (.data .headerValue 0 false (scan.after.updateState .headerAlmostDone)
          (headerAlmostDone (scan.after.updateState .headerAlmostDone) LF))
  | .error => scan.after.error .invalidContentLength
  | .assertion => .abort

theorem headerValue_eq (b : UInt8) (rest : List UInt8) {scan : ValueScan}
    (hscan : headerValueLoop q q.headerState (b :: rest) = scan) :
    headerValue q b rest = .move scan.passed (headerValueEnd scan) := by
  unfold headerValue headerValueEnd
  rw [hscan]
  rfl

/-- Before the last byte that an iteration takes of a body, one byte is left for it. -/
theorem Registers.HasLeft.last {toRead : ℕ} (hpos : 0 < toRead) (hle : toRead ≤ q.contentLength)
    (hlt : q.contentLength < ullongMax) :
    HasLeft { q with contentLength := q.contentLength - (toRead - 1) } ∧
      min (q.contentLength - (toRead - 1)) 1 = 1 ∧
        q.contentLength - (toRead - 1) - 1 = q.contentLength - toRead := by
  refine ⟨⟨?_, ?_⟩, ?_, ?_⟩
  · dsimp only
    omega
  · dsimp only
    omega
  · omega
  · omega

section Iteration

variable (hS : Incremental S act) (h : AtHead data c e) (hdrop : data.drop e.p = b :: rest)

include hS h hdrop

/-- A state that looks at one byte, after the counter. -/
theorem turn_agree (hloops : e.parser.state.loops = false) {left left₁ n n₁ : ℕ} {φ φ₁ : Phase}
    (hr : (turn e.parser.toRegisters b rest).Lawful ⟨left, n, c.marked, φ⟩)
    (hr₁ : (turn e.parser.toRegisters b rest).Lawful
      ⟨left₁, n₁, resumedMark e.parser.state, φ₁⟩) :
    Agree act data b e.p
      ((turn e.parser.toRegisters b rest).run S data
        { e with parser := { e.parser with nread := n } })
      ((turn e.parser.toRegisters b rest).run S [b]
        { startExec ⟨e.parser.toRegisters, 0⟩ (flush act data e) with
          parser := ⟨e.parser.toRegisters, n₁⟩ }) := by
  have hsingle := turn_single b rest hloops
  rcases startExec_twin act h with ⟨hm, htwin⟩ | ⟨m, hle, hm, hbody, hmarks, huser⟩
  · exact Reaction.run_twin hS hdrop hsingle hr hr₁ ⟨rfl, rfl, rfl, rfl⟩ hm.symm
      (htwin.counted n n₁)
  · have hnone : resumedMark e.parser.state = none := resumedMark_inBody hbody
    refine Reaction.run_twin_ahead hS hdrop hsingle (turn_delivers hloops hbody) hr hr₁
      ⟨rfl, rfl, rfl, rfl⟩ hm hnone hle hmarks ?_ huser
    rw [startExec_eq_clear (by exact hnone)]

theorem iteration_plain_of_single (hloops : e.parser.state.loops = false) :
    ((iteration e.parser.toRegisters b rest).run S data e).Plain S act data
      (e.parser.toRegisters, flush act data e) e.p := by
  have hl := iteration_lawful b rest h.rests h.mark
  have hl₁ := iteration_lawful b [] h.rests.uncounted (Or.inl rfl)
  have hone : (0 + 1) % 0x100000000 ≤ httpMaxHeaderSize := by decide
  refine Agree.plain hS h.rests.uncounted (Nat.le_refl _) hdrop (by rw [slice_self]; rfl) ?_
  unfold iteration at hl hl₁ ⊢
  rw [← turn_rest b rest hloops] at hl₁ ⊢
  by_cases hheader : e.parser.state.parsingHeader = true
  · rw [if_pos hheader] at hl hl₁ ⊢
    rw [run_count (e := startExec _ _) (by exact count_le_two.1)]
    rcases run_count_cases S data e.parser.toRegisters 1
      (turn e.parser.toRegisters b rest) e with ⟨parser, hrun, hover⟩ | ⟨hnread, hrun⟩
    · rw [hrun]
      exact .overflow hover
    · rw [hrun]
      exact turn_agree hS h hdrop hloops (hl hnread) (hl₁ hone)
  · rw [if_neg hheader] at hl hl₁ ⊢
    exact turn_agree hS h hdrop hloops hl hl₁

/-- A state of a body: the loop passes the bytes, the reaction to the last one is `r`. -/
theorem iteration_plain_of_body {n : ℕ} {r : Reaction}
    (hbody : e.parser.state.inBody = true) (hstate : q.state = e.parser.state)
    (hpassed : n ≤ rest.length) (hsingle : r.Single)
    (hturn : turn e.parser.toRegisters b rest = .mark .body (.move n r))
    (hturn' : ∀ b, turn q b [] = .mark .body (.move 0 r))
    (hcollects : ∀ l, l.length = n →
      Collects S act .body e.parser.state e.parser.toRegisters l q) :
    ((iteration e.parser.toRegisters b rest).run S data e).Plain S act data
      (e.parser.toRegisters, flush act data e) e.p := by
  have hheader : ¬ e.parser.state.parsingHeader = true := parsingHeader_inBody hbody
  have hnone : resumedMark e.parser.state = none := resumedMark_inBody hbody
  have hlen := congrArg List.length hdrop
  rw [List.length_drop, List.length_cons] at hlen
  -- the last byte of the stretch, which the reaction ends at
  obtain ⟨b', rest', hdrop'⟩ : ∃ b' rest', data.drop (e.p + n) = b' :: rest' :=
    ⟨_, _, List.drop_eq_getElem_cons (by omega)⟩
  have hslice : (slice data e.p (e.p + n)).length = n := by
    rw [slice_length (by omega), Nat.add_sub_cancel_left]
  have hfed := (hcollects _ hslice).feed hS (u := flush act data e)
  obtain ⟨φ, hrests⟩ := feed_rests hS h.rests hfed
  refine Agree.plain hS hrests (Nat.le_add_right _ _) hdrop' hfed ?_
  have hl := iteration_lawful b rest h.rests h.mark
  have hl' := iteration_lawful b' [] hrests (Or.inl rfl)
  unfold iteration at hl hl' ⊢
  rw [hstate] at hl'
  rw [if_neg hheader, hturn] at hl ⊢
  rw [if_neg hheader, hturn'] at hl'
  rw [if_neg (by rw [hstate]; exact hheader), hturn']
  obtain ⟨ψ, -, χ, -, hr⟩ := Lawful.mark hl
  obtain ⟨ψ', -, χ', -, hr'⟩ := Lawful.mark hl'
  refine Reaction.run_twin (r := r) hS hdrop' hsingle hr hr' ⟨rfl, rfl, rfl, rfl⟩ rfl ?_
  have hstart : ∀ u : σ, startExec ⟨q, 0⟩ u = ⟨⟨q, 0⟩, u, 0, fun _ => none⟩ := fun u =>
    startExec_eq_clear (by rw [hstate]; exact hnone)
  rcases startExec_twin act h with ⟨hm, htwin⟩ | ⟨m, hle, hm, hbody, hmarks, huser⟩
  · -- nothing waits: the byte at `p` is the first one to be marked
    rw [hm, hnone] at htwin
    cases htwin with
    | clear hmarks _ huser =>
        refine .since (m := e.p) (Nat.le_add_right _ _) ?_ ?_ ?_
        · simp [hmarks]
        · simp [hstart]
        · rw [hstart]
          exact congrArg _ huser
  · -- the mark is older, and stays
    refine .since (m := m) (by omega) ?_ ?_ ?_
    · simp [hmarks]
    · simp [hstart]
    · rw [slice_append hle (Nat.le_add_right _ _), hS.append, hstart]
      exact congrArg _ huser

theorem iteration_plain_bodyIdentity (hs : e.parser.state = .bodyIdentity) :
    ((iteration e.parser.toRegisters b rest).run S data e).Plain S act data
      (e.parser.toRegisters, flush act data e) e.p := by
  have hfits : e.parser.HasLeft := h.rests.hasLeft hs
  have hlt : e.parser.contentLength < ullongMax :=
    Nat.lt_of_le_of_ne h.rests.contentLength_le hfits.2
  obtain ⟨hpos, hbody, hbuffer⟩ := toRead_spec rest.length hfits.1
  generalize htoRead : min e.parser.contentLength (rest.length + 1) = toRead at hpos hbody hbuffer
  refine iteration_plain_of_body hS h hdrop (n := toRead - 1)
    (q := { e.parser.toRegisters with contentLength := e.parser.contentLength - (toRead - 1) })
    (r := bodyIdentityLast
      { e.parser.toRegisters with contentLength := e.parser.contentLength - toRead })
    (by rw [hs]; rfl) rfl (by omega) ?_ ?_ ?_ ?_
  · unfold bodyIdentityLast
    split <;> simp [Reaction.Single, messageDone_single]
  · rw [turn_bodyIdentity hs]
    exact bodyIdentity_eq rest hfits htoRead
  · intro b'
    obtain ⟨hleft, hone, hsub⟩ := HasLeft.last hpos hbody hlt
    have hlast := bodyIdentity_eq [] hleft hone
    dsimp only at hlast
    rw [hsub] at hlast
    rw [turn_bodyIdentity (by exact hs)]
    exact hlast
  · intro l hl
    rw [← hl, hs]
    exact collects_bodyIdentity hS hs h.rests.errno hlt (by omega)

theorem iteration_plain_chunkData (hs : e.parser.state = .chunkData) :
    ((iteration e.parser.toRegisters b rest).run S data e).Plain S act data
      (e.parser.toRegisters, flush act data e) e.p := by
  have hfits : e.parser.flags.chunked = true ∧ e.parser.HasLeft := h.rests.chunkLeft hs
  have hlt : e.parser.contentLength < ullongMax :=
    Nat.lt_of_le_of_ne h.rests.contentLength_le hfits.2.2
  obtain ⟨hpos, hbody, hbuffer⟩ := toRead_spec rest.length hfits.2.1
  generalize htoRead : min e.parser.contentLength (rest.length + 1) = toRead at hpos hbody hbuffer
  refine iteration_plain_of_body hS h hdrop (n := toRead - 1)
    (q := { e.parser.toRegisters with contentLength := e.parser.contentLength - (toRead - 1) })
    (r := chunkDataLast
      { e.parser.toRegisters with contentLength := e.parser.contentLength - toRead })
    (by rw [hs]; rfl) rfl (by omega) True.intro ?_ ?_ ?_
  · rw [turn_chunkData hs]
    exact chunkData_eq rest hfits.1 hfits.2 htoRead
  · intro b'
    obtain ⟨hleft, hone, hsub⟩ := HasLeft.last hpos hbody hlt
    have hlast := chunkData_eq [] (by exact hfits.1) hleft hone
    dsimp only at hlast
    rw [hsub] at hlast
    rw [turn_chunkData (by exact hs)]
    exact hlast
  · intro l hl
    rw [← hl, hs]
    exact collects_chunkData hS hs h.rests.errno hfits.1 hlt (by omega)

theorem iteration_plain_bodyIdentityEof (hs : e.parser.state = .bodyIdentityEof) :
    ((iteration e.parser.toRegisters b rest).run S data e).Plain S act data
      (e.parser.toRegisters, flush act data e) e.p := by
  refine iteration_plain_of_body hS h hdrop (n := rest.length) (q := e.parser.toRegisters)
    (r := .next e.parser.toRegisters) (by rw [hs]; rfl) rfl (Nat.le_refl _) True.intro ?_ ?_ ?_
  · unfold turn
    rw [hs]
    rfl
  · intro b'
    unfold turn
    rw [hs]
    rfl
  · intro l _
    rw [hs]
    exact collects_bodyIdentityEof hS hs h.rests.errno

/-- A state of a header line: the loop passes the bytes and the state goes on with `r`. -/
theorem iteration_plain_of_scan {n : ℕ} {r : Reaction}
    (hk : resumedMark e.parser.state = some k) (hstate : q.state = e.parser.state)
    (hheader : e.parser.state.parsingHeader = true)
    (hpassed : n ≤ rest.length + 1)
    (hturn : turn e.parser.toRegisters b rest = .move n r)
    (hcollects : Collects S act k e.parser.state e.parser.toRegisters ((b :: rest).take n) q)
    (hend : n = rest.length + 1 → r = .count q n (.endOfBuffer q))
    (hstop : ∀ b' rest' e' e₁' c' c₁', (b :: rest)[n]? = some b' →
      data.drop (e.p + n) = b' :: rest' → r.Lawful c' → (turn q b' []).Lawful c₁' →
      Abreast (e.p + n) c' c₁' e' e₁' → c'.marked = some k → c₁'.marked = some k →
      e'.parser.nread ≤ httpMaxHeaderSize → e₁'.parser.nread = 1 →
      Twin act data (e.p + n) e' e₁' (some k) →
        Agree act data b' (e.p + n) (r.run S data e') ((turn q b' []).run S [b'] e₁')) :
    ((iteration e.parser.toRegisters b rest).run S data e).Plain S act data
      (e.parser.toRegisters, flush act data e) e.p := by
  have hslice : slice data e.p (e.p + n) = (b :: rest).take n := by
    rw [slice, hdrop, Nat.add_sub_cancel_left]
  have hfed : (plainParser S).feed (e.parser.toRegisters, flush act data e)
      (slice data e.p (e.p + n)) =
        ⟨(q, act k (slice data e.p (e.p + n)) (flush act data e)),
          (slice data e.p (e.p + n)).length, false⟩ := by
    rw [hslice]
    exact hcollects.feed hS
  obtain ⟨φ, hrests⟩ := feed_rests hS h.rests hfed
  obtain ⟨m, hle, hmarks, huser⟩ : ∃ m ≤ e.p,
      e.marks = Function.update (fun _ => none) k (some m) ∧
        act k (slice data m e.p) e.user = flush act data e := by
    rcases startExec_twin act h with ⟨hm, htwin⟩ | ⟨m, hle, hm, hbody, hmarks, huser⟩
    · rw [hm, hk] at htwin
      cases htwin with
      | since hle hmarks _ huser => exact ⟨_, hle, hmarks, huser⟩
    · rw [resumedMark_inBody hbody] at hk
      cases hk
  have hmarked : c.marked = some k := by
    rcases h.mark with hm | ⟨-, hbody⟩
    · exact hm.trans hk
    · rw [resumedMark_inBody hbody] at hk
      cases hk
  have hpending : act k (slice data m (e.p + n)) e.user =
      act k (slice data e.p (e.p + n)) (flush act data e) := by
    rw [slice_append hle (Nat.le_add_right _ _), hS.append, huser]
  have hl := iteration_lawful b rest h.rests h.mark
  unfold iteration at hl ⊢
  rw [if_pos hheader, hturn] at hl ⊢
  rcases run_count_cases S data e.parser.toRegisters 1 (.move n r) e with
    ⟨parser, hrun, hover⟩ | ⟨hnread, hrun⟩
  · rw [hrun]
    exact Or.inl hover
  rw [hrun, Reaction.run]
  obtain ⟨-, ψ, -, hr⟩ := hl hnread
  cases hat : (b :: rest)[n]? with
  | none =>
      -- the loop goes on in the next buffer
      have hall : n = rest.length + 1 := by
        have hlen := List.getElem?_eq_none_iff.mp hat
        rw [List.length_cons] at hlen
        omega
      rw [hend hall]
      rcases run_count_cases S data q n (.endOfBuffer q) _ with
        ⟨parser, hrun', hover⟩ | ⟨-, hrun'⟩
      · rw [hrun']
        exact Or.inl hover
      · rw [hrun']
        refine ⟨Nat.le_add_right _ _, hfed.trans ?_⟩
        rw [← hpending, flush_since (by exact hmarks)]
        rfl
  | some b' =>
      -- the loop stops at `b'`, which both runs read in the same state
      have hlt : n < (b :: rest).length := (List.getElem?_eq_some_iff.mp hat).1
      have hdrop' : data.drop (e.p + n) = b' :: (b :: rest).drop (n + 1) := by
        rw [← List.drop_drop, hdrop, ← (List.getElem?_eq_some_iff.mp hat).2]
        exact List.drop_eq_getElem_cons hlt
      refine Agree.plain hS hrests (Nat.le_add_right _ _) hdrop' hfed ?_
      have hl' := iteration_lawful b' [] hrests (Or.inl rfl)
      have hone : (0 + 1) % 0x100000000 ≤ httpMaxHeaderSize := by decide
      have hheader' : q.state.parsingHeader = true := by rw [hstate]; exact hheader
      unfold iteration at hl' ⊢
      rw [if_pos hheader'] at hl' ⊢
      rw [run_count (e := startExec _ _) (by exact count_le_two.1)]
      refine hstop b' _ _ _ _ _ hat hdrop' hr (hl' hone) ⟨rfl, rfl, rfl, rfl⟩ hmarked
        (by dsimp only; rw [hstate]; exact hk) hnread rfl ?_
      refine .since (m := m) (by omega) hmarks ?_ hpending
      dsimp only
      rw [startExec_eq (by dsimp only; rw [hstate]; exact hk)]

theorem iteration_plain_headerField (hs : e.parser.state = .headerField) :
    ((iteration e.parser.toRegisters b rest).run S data e).Plain S act data
      (e.parser.toRegisters, flush act data e) e.p := by
  have hfits : e.parser.headerState.inField = true := h.rests.inField hs
  obtain ⟨s, i, hloop, hs'⟩ := headerFieldLoop_inField (b :: rest) hfits
  have hinitial : (b :: rest).takeWhile (token · ≠ 0) <+: b :: rest :=
    List.takeWhile_prefix _
  have htake := List.prefix_iff_eq_take.mp hinitial
  have hle := hinitial.length_le
  have hwhile := headerFieldLoop_takeWhile.trans hloop
  have hall : ∀ b' ∈ (b :: rest).takeWhile (token · ≠ 0), token b' ≠ 0 := fun b' hb' => by
    simpa using List.mem_takeWhile_imp hb'
  have hstop := fun b' => token_of_stop (l := b :: rest) (b := b')
  generalize (b :: rest).takeWhile (token · ≠ 0) = name at htake hle hwhile hall hstop hloop
  refine iteration_plain_of_scan hS h hdrop (k := .headerField) (n := name.length)
    (q := { e.parser.toRegisters with headerState := s, index := i })
    (by rw [hs]; rfl) rfl (by rw [hs]; rfl) hle
    (by rw [turn_headerField hs, headerField, hloop]) ?_ (fun hend => ?_) ?_
  · rw [← htake, hs]
    exact collects_headerField hS hs h.rests.errno hfits hall hwhile
  · rw [List.getElem?_eq_none (by rw [List.length_cons]; omega)]
  · intro b' rest' e' e₁' c' c₁' hat hdrop' hr hr₁ habreast hm hm₁ hn hn₁ htwin
    have hturn : turn { e.parser.toRegisters with headerState := s, index := i } b' [] =
        .move 0 (.count { e.parser.toRegisters with headerState := s, index := i } 0
          (headerFieldEnd { e.parser.toRegisters with headerState := s, index := i } b')) := by
      rw [turn_headerField (by exact hs), headerField, headerFieldLoop, if_pos (hstop b' hat)]
      rfl
    rw [hturn] at hr₁ ⊢
    obtain ⟨-, φ₁, -, hr₁⟩ := hr₁
    rw [run_move_zero]
    rw [hat] at hr ⊢
    exact run_twin_count (r := headerFieldEnd _ b') hS hdrop' headerFieldEnd_single hr hr₁
      ⟨habreast.nread, habreast.nread₁, habreast.p_eq, habreast.p₁_eq⟩ (hm₁.trans hm.symm)
      (by rw [hm]; exact htwin) (by rw [hn₁]; decide)

/-- A long value ends the parser, whatever ends the loop. -/
theorem headerValue_overflow (hs : e.parser.state = .headerValue)
    (hsmall : data.length + httpMaxHeaderSize < 0x100000000) {scan : ValueScan}
    (hscan : headerValueLoop e.parser.toRegisters e.parser.headerState (b :: rest) = scan)
    (hlong : httpMaxHeaderSize < scan.passed) (hstop : scan.stop ≠ .error) :
    ((iteration e.parser.toRegisters b rest).run S data e).Plain S act data
      (e.parser.toRegisters, flush act data e) e.p := by
  have hfits : e.parser.headerState.inValue = true := h.rests.inValue hs
  have hsound := headerValueLoop_sound (q := e.parser.toRegisters) (b :: rest) hfits
  rw [hscan] at hsound
  have hpassed : scan.passed + httpMaxHeaderSize < 0x100000000 := by
    have hlen := congrArg List.length hdrop
    have hle := hsound.passed_le
    rw [List.length_drop] at hlen
    omega
  -- the value is marked, at its first byte or at the start of the buffer
  obtain ⟨m, hmarks⟩ : ∃ m, e.marks = Function.update (fun _ => none) .headerValue (some m) := by
    rcases startExec_twin act h with ⟨hm, htwin⟩ | ⟨m, -, -, hbody, -, -⟩
    · rw [hm, hs] at htwin
      cases htwin with
      | since _ hmarks _ _ => exact ⟨_, hmarks⟩
    · rw [hs] at hbody
      exact absurd hbody nofun
  unfold iteration
  rw [if_pos (by rw [hs]; rfl), turn_headerValue hs, headerValue, hscan]
  dsimp only
  -- the loop counts its first byte alone before it counts the stretch
  rcases run_count_cases S data e.parser.toRegisters 1 _ e with
    ⟨parser, hrun, hover⟩ | ⟨hnread, hrun⟩
  · rw [hrun]
    exact Or.inl hover
  rw [hrun, Reaction.run]
  cases hend : scan.stop with
  | bufferEnd =>
      obtain ⟨parser, hrun', hover⟩ := run_count_over S data
        (e := { e with
          parser := { e.parser with nread := (e.parser.nread + 1) % 0x100000000 }
          p := e.p + scan.passed })
        (q := scan.after) (r := .endOfBuffer scan.after) hnread hlong hpassed
      exact hrun' ▸ Or.inl hover
  -- the value is passed on before the counter is found to be too high
  | cr =>
      obtain ⟨parser, hrun', hover⟩ := run_count_over S data
        (e := { Exec.load e (scan.after.updateState .headerAlmostDone) with
          parser := ⟨scan.after.updateState .headerAlmostDone,
            (e.parser.nread + 1) % 0x100000000⟩
          p := e.p + scan.passed
          user := act .headerValue (slice data m (e.p + scan.passed + 0)) e.user
          marks := fun _ => none })
        (q := scan.after.updateState .headerAlmostDone)
        (r := .next (scan.after.updateState .headerAlmostDone)) hnread hlong hpassed
      dsimp only
      rw [Reaction.run, callbackData_incremental hS
        (by exact hsound.keeps.errno.trans h.rests.errno) (by exact hmarks)]
      exact hrun' ▸ Or.inl hover
  | lf =>
      obtain ⟨parser, hrun', hover⟩ := run_count_over S data
        (e := { e with
          parser := { e.parser with nread := (e.parser.nread + 1) % 0x100000000 }
          p := e.p + scan.passed })
        (q := { scan.registers with state := .headerAlmostDone })
        (r := .data .headerValue 0 false (scan.after.updateState .headerAlmostDone)
          (headerAlmostDone (scan.after.updateState .headerAlmostDone) LF)) hnread hlong hpassed
      exact hrun' ▸ Or.inl hover
  | error => exact absurd hend hstop
  | assertion => exact absurd hend hsound.sound

theorem iteration_plain_headerValue (hs : e.parser.state = .headerValue)
    (hsmall : data.length + httpMaxHeaderSize < 0x100000000) :
    ((iteration e.parser.toRegisters b rest).run S data e).Plain S act data
      (e.parser.toRegisters, flush act data e) e.p := by
  have hfits : e.parser.headerState.inValue = true := h.rests.inValue hs
  have hsound := headerValueLoop_sound (q := e.parser.toRegisters) (b :: rest) hfits
  generalize hscan : headerValueLoop e.parser.toRegisters e.parser.headerState (b :: rest) = scan
    at hsound
  rcases collects_headerValue hS hfits hs h.rests.errno hscan with
    ⟨hlong, hstop, -⟩ | hcollects
  · exact headerValue_overflow hS h hdrop hs hsmall hscan hlong hstop
  -- the bytes that the loop passes are taken one by one as well, and the one at which it ends
  -- does the same on its own
  refine iteration_plain_of_scan hS h hdrop (k := .headerValue) (n := scan.passed)
    (q := scan.after) (r := headerValueEnd scan)
    (by rw [hs]; rfl) hsound.keeps.state (by rw [hs]; rfl) hsound.passed_le
    ((turn_headerValue hs).trans (headerValue_eq b rest hscan))
    (by rw [hs]; exact hcollects.1) (fun hend => ?_) ?_
  · have hstop : scan.stop = .bufferEnd := by
      by_contra hne
      exact absurd hend (Nat.ne_of_lt (hsound.more hne))
    unfold headerValueEnd
    rw [hstop]
  · intro b' rest' e' e₁' c' c₁' hat hdrop' hr hr₁ habreast hm hm₁ hn hn₁ htwin
    -- alone, the byte ends the loop at once and for the same reason
    have halone := hcollects.2 b' hat
    have hturn : turn scan.after b' [] =
        .move 0 (headerValueEnd ⟨scan.after, scan.hState, 0, scan.stop⟩) :=
      (turn_headerValue (q := scan.after) (hsound.keeps.state.trans hs)).trans
        (headerValue_eq b' [] halone)
    have hle₁ : e₁'.parser.nread ≤ httpMaxHeaderSize := by
      rw [hn₁]
      decide
    rw [hturn] at hr₁ ⊢
    obtain ⟨-, φ₁, -, hr₁⟩ := hr₁
    obtain ⟨hnread, hnread₁, hp, hp₁⟩ := habreast
    rw [run_move_zero]
    unfold headerValueEnd at hr hr₁ ⊢
    dsimp only at hr hr₁ ⊢
    cases hstop : scan.stop with
    | bufferEnd =>
        rw [hsound.bufferEnd hstop, List.getElem?_eq_none (Nat.le_refl _)] at hat
        exact absurd hat nofun
    | cr =>
        rw [hstop] at hr hr₁
        obtain ⟨-, -, -, φ, -, hrests, hnext⟩ := hr
        obtain ⟨-, -, -, φ', -, -, hnext₁⟩ := hr₁
        refine (htwin.loaded (scan.after.updateState .headerAlmostDone)).callbackData hS
          (Or.inr rfl) hp hp₁ hdrop' (Nat.zero_le _) hrests.errno hrests.errno fun u => ?_
        exact run_twin_count (r := .next _) hS hdrop' True.intro hnext hnext₁
          ⟨hnread, hnread₁, hp, hp₁⟩ rfl (.clear rfl rfl rfl) hle₁
    | lf =>
        rw [hstop] at hr hr₁
        exact run_twin_count (r := .data _ _ _ _ _) hS hdrop' ⟨Nat.zero_le _, strictCheck_single⟩
          hr hr₁ ⟨hnread, hnread₁, hp, hp₁⟩ (hm₁.trans hm.symm) (by rw [hm]; exact htwin) hle₁
    | error =>
        rw [hstop] at hr hr₁
        exact Reaction.run_twin hS hdrop' error_single hr hr₁ ⟨hnread, hnread₁, hp, hp₁⟩
          (hm₁.trans hm.symm) (by rw [hm]; exact htwin)
    | assertion => exact absurd hstop hsound.sound

/-- **One iteration** comes to the same as the plain parser. -/
theorem iteration_plain (hsmall : data.length + httpMaxHeaderSize < 0x100000000) :
    ((iteration e.parser.toRegisters b rest).run S data e).Plain S act data
      (e.parser.toRegisters, flush act data e) e.p := by
  by_cases hloops : e.parser.state.loops = false
  · exact iteration_plain_of_single hS h hdrop hloops
  · cases hs : e.parser.state <;> rw [hs] at hloops
    case headerField => exact iteration_plain_headerField hS h hdrop hs
    case headerValue => exact iteration_plain_headerValue hS h hdrop hs hsmall
    case chunkData => exact iteration_plain_chunkData hS h hdrop hs
    case bodyIdentity => exact iteration_plain_bodyIdentity hS h hdrop hs
    case bodyIdentityEof => exact iteration_plain_bodyIdentityEof hS h hdrop hs
    all_goals exact absurd rfl hloops

end Iteration

/-! ## Calls -/

/-- The plain parser on one byte is a call with this byte as the buffer. -/
theorem plainStep_execute (hS : Incremental S act) (h : q.Rests 0 φ) :
    match plainStep S (q, u) b with
    | .goes s => ∃ nread, httpParserExecute S ⟨q, 0⟩ u [b] = some ⟨1, ⟨s.1, nread⟩, s.2⟩
    | .stops s consumed =>
        ∃ nread, httpParserExecute S ⟨q, 0⟩ u [b] =
          some ⟨if consumed then 1 else 0, ⟨s.1, nread⟩, s.2⟩ := by
  have hsound := iteration_sound (Tracks.trivial S) (plainStart (b := b) (u := u) h) rfl
  have hcall : httpParserExecute S ⟨q, 0⟩ u [b] =
      (mainLoop S [b] 1 (startExec ⟨q, 0⟩ u)).returned? := by
    rw [httpParserExecute, if_neg (not_not_intro h.errno), if_neg (List.cons_ne_nil _ _)]
    rfl
  generalize hrun : (iteration (startExec ⟨q, 0⟩ u).parser.toRegisters b []).run S [b]
    (startExec ⟨q, 0⟩ u) = outcome at hsound
  have hdrop : List.drop (startExec ⟨q, 0⟩ u).p [b] = [b] := rfl
  rw [hcall, mainLoop, hdrop]
  dsimp only
  rw [hrun]
  cases outcome with
  | looping e =>
      obtain ⟨-, c, hat⟩ := hsound
      have hfinish : finish S [b] e = _ :=
        finish_incremental hS hat.rests.errno hat.pending.oneMark
      rw [plainStep_looping (q := q) hS hrun hat.rests.errno hat.pending.oneMark]
      dsimp only
      rw [mainLoop, hfinish]
      exact ⟨e.parser.nread, rfl⟩
  | returned n parser u =>
      have hn : n ≤ 1 := hsound.count_le
      rw [plainStep_returned (q := q) hrun]
      rcases Nat.le_one_iff_eq_zero_or_eq_one.mp hn with rfl | rfl
      · exact ⟨parser.nread, rfl⟩
      · exact ⟨parser.nread, rfl⟩
  | aborted => exact hsound.elim

/-- The plain parser, fed `l` from `s`, ends with the registers `parser`, after `n` bytes.  What
the callbacks got before an error of the input is not compared. -/
def EndsPlain (S : HttpParserSettings σ) (s : Registers × σ) (l : List UInt8) (n : ℕ)
    (parser : HttpParser) (u : σ) : Prop :=
  ∃ u' stopped, (plainParser S).feed s l = ⟨(parser.toRegisters, u'), n, stopped⟩ ∧
    (parser.httpErrno.parsing = false → u' = u) ∧
    (stopped = true → parser.httpErrno ≠ .ok ∨ parser.upgrade = true) ∧
    (stopped = false → parser.httpErrno = .ok)

/-- A loop that starts at `p` returns what the plain parser comes to, unless it finds the header
too long. -/
def Outcome.EndsPlain (S : HttpParserSettings σ) (data : List UInt8) (s : Registers × σ) (p : ℕ) :
    Outcome σ → Prop
  | .returned n parser u =>
      parser.httpErrno = .headerOverflow ∨
        ∃ m, n = p + m ∧ Http1.EndsPlain S s (data.drop p) m parser u
  | _ => False

theorem flush_startExec (hS : Incremental S act) {parser : HttpParser} :
    flush act data (startExec parser u) = u := by
  cases hk : resumedMark parser.state with
  | none =>
      rw [startExec_eq_clear hk]
      exact flush_clear rfl
  | some k =>
      rw [startExec_eq hk, flush_since rfl, slice_self, hS.nil]

theorem finish_plain (hS : Incremental S act) (h : AtHead data c e) (hend : data.length ≤ e.p) :
    (finish S data e).EndsPlain S data (e.parser.toRegisters, flush act data e) e.p := by
  have hp := h.left
  rw [finish_incremental hS h.rests.errno h.pending.oneMark]
  refine Or.inr ⟨0, by omega, flush act data e, false, ?_, fun _ => rfl, nofun,
    fun _ => h.rests.errno⟩
  rw [List.drop_eq_nil_of_le hend]
  rfl

theorem mainLoop_plain (hS : Incremental S act)
    (hsmall : data.length + httpMaxHeaderSize < 0x100000000) (fuel : ℕ) (h : AtHead data c e)
    (hfuel : data.length ≤ e.p + fuel) :
    (mainLoop S data fuel e).EndsPlain S data (e.parser.toRegisters, flush act data e) e.p := by
  induction fuel generalizing c e with
  | zero => exact finish_plain hS h hfuel
  | succ fuel ih =>
      rw [mainLoop]
      cases hdrop : data.drop e.p with
      | nil => exact finish_plain hS h (List.drop_eq_nil_iff.mp hdrop)
      | cons b rest =>
          have hplain := iteration_plain hS h hdrop hsmall
          have hsound := iteration_sound (Tracks.trivial S) h hdrop
          dsimp only
          generalize (iteration e.parser.toRegisters b rest).run S data e = outcome
            at hplain hsound ⊢
          cases outcome with
          | looping e' =>
              obtain ⟨hmoved, c', hat⟩ := hsound
              obtain ⟨hle, hfeed⟩ := hplain
              have hrest := ih hat (by omega)
              have hlength : (slice data e.p e'.p).length = e'.p - e.p := by
                have hp := hat.left
                exact slice_length (by omega)
              dsimp only
              generalize mainLoop S data fuel e' = outcome at hrest ⊢
              cases outcome with
              | returned n parser u =>
                  rcases hrest with hover | ⟨m, rfl, u', stopped, hfeed', hreturn⟩
                  · exact Or.inl hover
                  · refine Or.inr ⟨e'.p - e.p + m, by omega, u', stopped, ?_, hreturn⟩
                    rw [drop_eq_slice_append hle, Feeder.feed_append_goes hfeed, hfeed', hlength]
              | looping e => exact hrest.elim
              | aborted => exact hrest.elim
          -- this iteration is the last one
          | returned n parser u =>
              rcases hplain with hover | ⟨hle, u', hfeed, huser⟩
              · exact Or.inl hover
              · exact Or.inr ⟨n - e.p, by omega, u', true, hfeed, huser, fun _ => hsound.reason,
                  fun h => absurd h.symm Bool.false_ne_true⟩
          | aborted => exact hsound.elim

/-- **A call of `http_parser_execute`** ends as the plain parser does on its buffer, unless it
finds the header too long: the marks and the loops inside a state change nothing. -/
theorem httpParserExecute_plain (hS : Incremental S act) {parser : HttpParser}
    (hsound : parser.Sound φ) (herrno : parser.httpErrno = .ok) (hdata : data ≠ [])
    (hsmall : data.length + httpMaxHeaderSize < 0x100000000) {r : Returned σ}
    (hr : httpParserExecute S parser u data = some r) :
    r.parser.httpErrno = .headerOverflow ∨
      EndsPlain S (parser.toRegisters, u) data r.count r.parser r.user := by
  have hrests : parser.Rests parser.nread φ := by
    have hrests := hsound (Or.inl herrno)
    rwa [show parser.toRegisters.setErrno .ok = parser.toRegisters by
      rw [setErrno, ← herrno]] at hrests
  have hloop := mainLoop_plain hS hsmall data.length
    (startExec_atByte data parser (u := u) True.intro hrests) (Nat.le_add_left _ _)
  rw [flush_startExec hS] at hloop
  rw [httpParserExecute, if_neg (not_not_intro herrno), if_neg hdata] at hr
  generalize mainLoop S data data.length (startExec parser u) = outcome at hloop hr
  cases outcome with
  | returned n parser' u' =>
      cases hr
      rcases hloop with hover | ⟨m, hm, hplain⟩
      · exact Or.inl hover
      · obtain rfl : n = m := hm.trans (Nat.zero_add m)
        exact Or.inr hplain
  | looping e => exact hloop.elim
  | aborted => exact hloop.elim

end Chunking

end Http2Asio.Http1
