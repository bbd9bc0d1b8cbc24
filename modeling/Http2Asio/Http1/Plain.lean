import Http2Asio.Http1.Execution
import Http2Asio.Feeding.Feeder

/-!
# The plain HTTP/1 parser

`plainParser` takes the same steps as `http_parser_execute`, but one byte at a time: each
byte is a buffer of its own, so there are no marks to keep, no loops inside a state, and
nothing is counted.  It is what the parser means for callbacks to which only the
concatenation of the pieces of a field matters (`Incremental`).

This file says what the plain parser does with a byte in the states that have a loop of
their own in the source; `Chunking.lean` shows that the loops come to the same.
-/

namespace Http2Asio.Http1

open Feeding Registers

/-- The data callbacks only collect what they get: `act` is what they do, and several calls
do the same as one with all the bytes.  The other callbacks are arbitrary. -/
structure Incremental {σ : Type} (S : HttpParserSettings σ)
    (act : DataCb → List UInt8 → σ → σ) : Prop where
  data : ∀ k f, S.onData k = some f → ∀ v bytes u, f v bytes u = ⟨0, false, act k bytes u⟩
  absent : ∀ k, S.onData k = none → ∀ bytes u, act k bytes u = u
  nil : ∀ k u, act k [] u = u
  append : ∀ k a b u, act k (a ++ b) u = act k b (act k a u)

section Plain

variable {σ : Type} (S : HttpParserSettings σ)

/-- One byte, in a buffer of its own and with the counter at zero. -/
def plainStep (s : Registers × σ) (b : UInt8) : Reply (Registers × σ) :=
  match (iteration s.1 b []).run S [b] (startExec ⟨s.1, 0⟩ s.2) with
  | .looping e =>
      match finish S [b] e with
      | .returned _ parser u => .goes (parser.toRegisters, u)
      | _ => .stops s false
  | .returned n parser u => .stops (parser.toRegisters, u) (n != 0)
  | .aborted => .stops s false

/-- The parser that takes one byte at a time. -/
def plainParser : Feeder (Registers × σ) UInt8 where
  step := plainStep S

/-! ## Pending bytes -/

variable (act : DataCb → List UInt8 → σ → σ) (data : List UInt8)

/-- The state of the callbacks once they got the bytes from the marks to `p`. -/
def flush (e : Exec σ) : σ :=
  [.headerField, .headerValue, .url, .body, .status].foldl
    (fun u k => match e.marks k with
      | none => u
      | some mark => act k (slice data mark e.p) u) e.user

variable {S act data} {e : Exec σ} {k : DataCb} {m : ℕ}

theorem flush_clear (h : e.marks = fun _ => none) : flush act data e = e.user := by
  simp [flush, h]

theorem flush_since (h : e.marks = Function.update (fun _ => none) k (some m)) :
    flush act data e = act k (slice data m e.p) e.user := by
  unfold flush
  rw [h]
  cases k <;> simp [Function.update]

/-- No mark is set, or one. -/
def OneMark (marks : DataCb → Option ℕ) : Prop :=
  marks = (fun _ => none) ∨ ∃ k m, marks = Function.update (fun _ => none) k (some m)

theorem callbackData_incremental (hS : Incremental S act) {extra : ℕ} {advance : Bool}
    {rest : Exec σ → Outcome σ} (herrno : e.parser.httpErrno = .ok)
    (hmarks : e.marks = Function.update (fun _ => none) k (some m)) :
    callbackData S data k extra advance e rest =
      rest { e with
        user := act k (slice data m (e.p + extra)) e.user
        marks := fun _ => none } := by
  obtain ⟨parser, user, p, marks⟩ := e
  obtain rfl : marks = Function.update (fun _ => none) k (some m) := hmarks
  unfold callbackData
  rw [if_neg (not_not_intro herrno)]
  dsimp only
  rw [Function.update_self, Function.update_idem, Function.update_eq_self]
  cases hf : S.onData k with
  | none => rw [hS.absent k hf]
  | some f =>
      dsimp only
      rw [hS.data k f hf]
      have hsame : afterCallback parser (.cbData k)
          (⟨0, false, act k (slice data m (p + extra)) user⟩ : CbResult σ) = parser := rfl
      rw [hsame, if_neg (not_not_intro herrno)]

theorem leftoverMarks_clear (herrno : e.parser.httpErrno = .ok) (ks : List DataCb)
    (hmarks : e.marks = fun _ => none) :
    leftoverMarks S data ks e = .returned data.length e.parser e.user := by
  induction ks with
  | nil => rfl
  | cons k ks ih => rw [leftoverMarks, callbackData_unmarked herrno (by rw [hmarks]), ih]

theorem leftoverMarks_since (hS : Incremental S act) (herrno : e.parser.httpErrno = .ok)
    {ks : List DataCb} (hmarks : e.marks = Function.update (fun _ => none) k (some m))
    (hk : k ∈ ks) :
    leftoverMarks S data ks e =
      .returned data.length e.parser (act k (slice data m e.p) e.user) := by
  induction ks with
  | nil => exact absurd hk List.not_mem_nil
  | cons k' ks ih =>
      by_cases hsame : k = k'
      · subst hsame
        rw [leftoverMarks, callbackData_incremental hS herrno hmarks]
        exact leftoverMarks_clear
          (e := { e with
            user := act k (slice data m (e.p + 0)) e.user
            marks := fun _ => none }) herrno ks rfl
      · have hunmarked : e.marks k' = none := by
          rw [hmarks, Function.update_of_ne (Ne.symm hsame)]
        rw [leftoverMarks, callbackData_unmarked herrno hunmarked]
        exact ih ((List.mem_cons.mp hk).resolve_left hsame)

/-- What is left over at the end of a buffer is delivered. -/
theorem finish_incremental (hS : Incremental S act) (herrno : e.parser.httpErrno = .ok)
    (hmarks : OneMark e.marks) :
    finish S data e = .returned data.length e.parser (flush act data e) := by
  rcases hmarks with hmarks | ⟨k, m, hmarks⟩
  · rw [flush_clear hmarks]
    unfold finish
    dsimp only
    rw [if_neg (by simp [hmarks])]
    exact leftoverMarks_clear herrno _ hmarks
  · rw [flush_since hmarks]
    unfold finish
    dsimp only
    rw [if_neg (by rw [hmarks]; cases k <;> simp [Function.update])]
    exact leftoverMarks_since hS herrno hmarks (by cases k <;> decide)

/-! ## Bytes that are passed -/

variable {q q' : Registers} {u : σ} {b : UInt8}

theorem startExec_eq {parser : HttpParser} (h : resumedMark parser.state = some k) :
    startExec parser u =
      ⟨parser, u, 0, Function.update (fun _ => none) k (some 0)⟩ := by
  unfold startExec
  congr 1
  funext k'
  by_cases hk : k' = k
  · simp [h, hk]
  · simp [h, hk, Ne.symm hk]

theorem startExec_eq_clear {parser : HttpParser} (h : resumedMark parser.state = none) :
    startExec parser u = ⟨parser, u, 0, fun _ => none⟩ := by
  simp [startExec, h]

/-- As long as the limit is far, `COUNT_HEADER_SIZE` only counts. -/
theorem run_count {n : ℕ} {rest : Reaction} (h : e.parser.nread + n ≤ httpMaxHeaderSize) :
    (Reaction.count q n rest).run S data e =
      rest.run S data { e with parser := { e.parser with nread := e.parser.nread + n } } := by
  have hmax : httpMaxHeaderSize = 81920 := rfl
  have hsmall : (e.parser.nread + n) % 0x100000000 = e.parser.nread + n := by omega
  rw [Reaction.run]
  dsimp only
  rw [hsmall, if_neg (Nat.not_lt_of_le h)]

theorem count_le_two : 0 + 1 ≤ httpMaxHeaderSize ∧ 0 + 1 + 1 ≤ httpMaxHeaderSize := by
  decide

/-- A byte that ends with the mark of a field set belongs to the field. -/
theorem plainStep_passes (hS : Incremental S act) {n : ℕ}
    (hrun : (iteration q b []).run S [b] (startExec ⟨q, 0⟩ u) =
      .looping ⟨⟨q', n⟩, u, 1, Function.update (fun _ => none) k (some 0)⟩)
    (herrno : q'.httpErrno = .ok) : plainStep S (q, u) b = .goes (q', act k [b] u) := by
  unfold plainStep
  rw [hrun]
  dsimp only
  rw [finish_incremental hS herrno (Or.inr ⟨k, 0, rfl⟩), flush_since rfl]
  rfl

theorem plainStep_headerField (hS : Incremental S act) (h : q.state = .headerField)
    (hb : token b ≠ 0) (hchar : headerFieldChar q b = some q') (herrno : q'.httpErrno = .ok) :
    plainStep S (q, u) b = .goes (q', act .headerField [b] u) := by
  refine plainStep_passes hS (n := 2) ?_ herrno
  rw [startExec_eq (k := .headerField) (by rw [h]; rfl), iteration, if_pos (by rw [h]; rfl),
    run_count (by exact count_le_two.1), turn, h]
  dsimp only
  rw [headerField, headerFieldLoop, if_neg hb, hchar]
  change (Reaction.count q' 1 (.endOfBuffer q')).run S [b] ⟨⟨q, 0 + 1⟩, u, 0 + 1, _⟩ = _
  rw [run_count (by exact count_le_two.2)]
  rfl

theorem plainStep_headerValue (hS : Incremental S act) {h' : HeaderState}
    (h : q.state = .headerValue) (hcr : b ≠ CR) (hlf : b ≠ LF)
    (hchar : (q.headerState = .general ∧ q' = q ∧ h' = .general) ∨
      (q.headerState ≠ .general ∧ headerValueChar q q.headerState b = .going q' h'))
    (herrno : q'.httpErrno = .ok) :
    plainStep S (q, u) b =
      .goes ({ q' with headerState := h' }, act .headerValue [b] u) := by
  have hscan : headerValueLoop q q.headerState [b] = ⟨q', h', 1, .bufferEnd⟩ := by
    rw [headerValueLoop, if_neg hcr, if_neg hlf]
    rcases hchar with ⟨hgeneral, rfl, rfl⟩ | ⟨hother, hgoing⟩
    · rw [if_pos hgeneral]
      have hrun : generalRun [b] = 1 := by
        simp [generalRun, memchr, hcr, hlf]
      simp [hrun, hgeneral, valueStop]
    · rw [if_neg hother, hgoing]
      rfl
  refine plainStep_passes hS (n := 2) ?_ herrno
  rw [startExec_eq (k := .headerValue) (by rw [h]; rfl), iteration, if_pos (by rw [h]; rfl),
    run_count (by exact count_le_two.1), turn, h]
  dsimp only
  rw [headerValue, hscan]
  change (Reaction.count { q' with headerState := h' } 1 (.endOfBuffer _)).run S [b]
    ⟨⟨q, 0 + 1⟩, u, 0 + 1, _⟩ = _
  rw [run_count (by exact count_le_two.2)]
  rfl

/-- A byte of a body that is not the last one. -/
theorem plainStep_bodyIdentity (hS : Incremental S act) (h : q.state = .bodyIdentity)
    (hleft : 1 < q.contentLength) (hmax : q.contentLength ≠ ullongMax)
    (herrno : q.httpErrno = .ok) :
    plainStep S (q, u) b =
      .goes ({ q with contentLength := q.contentLength - 1 }, act .body [b] u) := by
  have hone : min q.contentLength 1 = 1 := by omega
  have hmore : q.contentLength - 1 ≠ 0 := by omega
  refine plainStep_passes hS (n := 0) ?_ herrno
  rw [startExec_eq_clear (by rw [h]; rfl), iteration, if_neg (by rw [h]; decide), turn, h]
  dsimp only
  rw [bodyIdentity, if_neg (by omega)]
  simp [hone, hmore, Reaction.run, Exec.load, h]

theorem plainStep_bodyIdentityEof (hS : Incremental S act) (h : q.state = .bodyIdentityEof)
    (herrno : q.httpErrno = .ok) :
    plainStep S (q, u) b = .goes (q, act .body [b] u) := by
  refine plainStep_passes hS (n := 0) ?_ herrno
  rw [startExec_eq_clear (by rw [h]; rfl), iteration, if_neg (by rw [h]; decide), turn, h]
  simp [bodyIdentityEof, Reaction.run, Exec.load]

/-- A byte of a chunk. -/
theorem plainStep_chunkData (hS : Incremental S act) (h : q.state = .chunkData)
    (hchunked : q.flags.chunked = true) (hleft : 0 < q.contentLength)
    (hmax : q.contentLength ≠ ullongMax) (herrno : q.httpErrno = .ok) :
    plainStep S (q, u) b =
      .goes
        ({ q with
          contentLength := q.contentLength - 1
          state := if q.contentLength = 1 then .chunkDataAlmostDone else .chunkData },
          act .body [b] u) := by
  have hone : min q.contentLength 1 = 1 := by omega
  refine plainStep_passes hS (n := 0) ?_ herrno
  rw [startExec_eq_clear (by rw [h]; rfl), iteration, if_neg (by rw [h]; decide), turn, h]
  dsimp only
  rw [chunkData, assertChunked, if_pos hchunked, if_neg (by omega)]
  by_cases hlast : q.contentLength = 1
  · simp [hlast, Reaction.run, Exec.load, updateState]
  · have hmore : q.contentLength - 1 ≠ 0 := by omega
    simp [hone, hlast, hmore, Reaction.run, Exec.load, h]

end Plain

end Http2Asio.Http1
