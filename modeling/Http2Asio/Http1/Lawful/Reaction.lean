import Http2Asio.Http1.Phases
import Mathlib.Tactic.MkIffOfInductiveProp

/-!
# What a reaction to one byte has to keep

Between two bytes three things have to agree: the state of the parser, its registers, and
what its callbacks have been told.  `Registers.Rests` is that agreement, and it is asked
for at every call of a callback too, since a callback may pause the parser there:

* the registers fit the state (`FitsState`): a field name is matched in the states of a
  name, a chunk is read only of a chunked message, and a body has bytes left;
* the state fits the phase of the callbacks (`InPhase`): this is where it says that as
  many bytes are still to be passed on as the callbacks wait for;
* no error is set, and the counter of the header is below its limit.

The model gives the reaction to a byte as a list of nodes, and `Reaction.Lawful` goes
through that list with a `Cursor`: how many bytes of the buffer are left, the counter, the
mark that is set, and the phase the callbacks are in once they got the bytes up to `p`.
A lawful reaction fails no assertion, moves `p` only inside the buffer, calls the
callbacks in the order of the phases, and leaves the parser fit for the next byte, with no
mark but that of the new state.

What a state may use is `Finds`: what holds between two bytes, after the byte has been
counted.  Every state has a lemma that its reaction is lawful if it finds this.  They are
in the modules for the start line, the end of the headers with the names of the fields,
the values, and the bodies; `Lawful.lean` puts them together.
-/

namespace Http2Asio.Http1

/-! ## Between two bytes -/

/-- The states of a field name that is being matched. -/
def HeaderState.inField : HeaderState → Bool
  | .general | .c | .co | .con | .matchingConnection | .matchingProxyConnection => true
  | .matchingContentLength | .matchingTransferEncoding | .matchingUpgrade => true
  | .connection | .contentLength | .transferEncoding | .upgrade => true
  | _ => false

/-- The states of a field value, of which two are left at its first byte. -/
def HeaderState.inValue : HeaderState → Bool
  | .connection | .transferEncoding => false
  | _ => true

namespace Registers

/-- A body or a chunk has bytes left. -/
def HasLeft (q : Registers) : Prop :=
  q.contentLength ≠ 0 ∧ q.contentLength ≠ ullongMax

/-- The registers fit the state. -/
def FitsState (q : Registers) : Prop :=
  match q.state with
  | .headerField => q.headerState.inField
  | .headerValue => q.headerState.inValue
  | .chunkSizeStart | .chunkDataDone => q.flags.chunked
  | .chunkSize | .chunkParameters | .chunkSizeAlmostDone =>
      q.flags.chunked ∧ q.contentLength ≠ ullongMax
  | .chunkData => q.flags.chunked ∧ q.HasLeft
  | .chunkDataAlmostDone => q.flags.chunked ∧ q.contentLength = 0
  | .bodyIdentity => q.HasLeft
  | _ => True

/-- A field name may begin, or the headers or the trailer end. -/
def AwaitsField (trailing : Bool) : Phase → Prop
  | .begun | .target => True
  | .value trailing' => trailing' = trailing
  | .trailers => trailing = true
  | _ => False

/-- The state fits the phase of the callbacks. -/
def InPhase (q : Registers) (φ : Phase) : Prop :=
  match q.state with
  | .dead | .startReqOrRes | .startReq => φ = .idle
  | .startRes => φ = .idle ∨ φ = .begun
  | .resLineAlmostDone => φ = .begun ∨ φ = .target
  | .resStatus | .reqSchema | .reqSchemaSlash | .reqSchemaSlashSlash => φ = .target
  | .reqServerStart | .reqServer | .reqServerWithAt | .reqPath => φ = .target
  | .reqQueryStringStart | .reqQueryString | .reqFragmentStart | .reqFragment => φ = .target
  | .reqHttpStart | .reqHttpH | .reqHttpHT | .reqHttpHTT | .reqHttpHTTP => φ = .target
  | .reqFirstHttpMajor | .reqHttpMajor | .reqFirstHttpMinor | .reqHttpMinor => φ = .target
  | .reqLineAlmostDone => φ = .target
  | .headerFieldStart | .headersAlmostDone => AwaitsField q.flags.trailing φ
  | .headerField | .headerValueDiscardWs => φ = .field q.flags.trailing
  | .headerValueDiscardWsAlmostDone | .headerValueDiscardLws => φ = .field q.flags.trailing
  | .headerValueStart | .headerValue => φ = .value q.flags.trailing
  | .headerAlmostDone | .headerValueLws => φ = .value q.flags.trailing
  | .headersDone => φ = framing q.view
  | .chunkSizeStart | .chunkSize | .chunkParameters | .chunkSizeAlmostDone => φ = .chunks
  | .chunkData | .chunkDataAlmostDone => φ = .chunk q.contentLength
  | .chunkDataDone => φ = .chunk 0
  | .bodyIdentity => φ = .body q.contentLength
  | .bodyIdentityEof => φ = .untilClose
  | .messageDone => φ = .body 0
  | _ => φ = .begun

/-- What holds between two bytes and at a callback; `nread` is the counter. -/
@[mk_iff]
structure Rests (q : Registers) (nread : ℕ) (φ : Phase) : Prop where
  errno : q.httpErrno = .ok
  contentLength_le : q.contentLength ≤ ullongMax
  fits : q.FitsState
  inPhase : q.InPhase φ
  headers : φ = .begun ∨ φ = .target → q.flags.trailing = false
  nread_le : nread ≤ httpMaxHeaderSize
  fresh : q.state = .chunkSizeStart → nread = 0

end Registers

/-- The states in which the bytes of a body may wait for their callback. -/
def State.inBody : State → Bool
  | .chunkData | .chunkDataAlmostDone | .bodyIdentity | .bodyIdentityEof => true
  | _ => false

/-- The mark that may be set between two bytes of a buffer. -/
def MarkFits (marked : Option DataCb) (s : State) : Prop :=
  marked = resumedMark s ∨ (marked = some .body ∧ s.inBody = true)

/-! ## Reactions -/

/-- The errors that a state finds in a byte; not those of a callback, nor the one of the limit on
the header. -/
def HttpErrno.parsing : HttpErrno → Bool
  | .ok | .paused | .cbNotify _ | .cbData _ | .cbHeadersComplete | .headerOverflow => false
  | _ => true

/-- Where a reaction is: the bytes from `p` to the end of the buffer, `nread`, the mark
that is set, and the phase that the callbacks are in once they got the bytes from the mark
to `p`. -/
structure Cursor where
  left : ℕ
  nread : ℕ
  marked : Option DataCb
  phase : Phase

/-- The phase of the next node of a reaction is `φ`. -/
abbrev Cursor.at (c : Cursor) (φ : Phase) : Cursor :=
  { c with phase := φ }

/-- No assertion of the reaction fails, and it leaves the parser fit for the next byte. -/
def Reaction.Lawful : Reaction → Cursor → Prop
  | .next q, c =>
      0 < c.left ∧ MarkFits c.marked q.state ∧
        ∃ φ, c.phase.pass c.marked 1 = some φ ∧ q.Rests c.nread φ
  | .endOfBuffer q, c => c.left = 0 ∧ MarkFits c.marked q.state ∧ q.Rests c.nread c.phase
  | .fail q, _ => q.httpErrno.parsing = true
  | .exit q, c => q.upgrade = true ∧ 0 < c.left ∧ c.marked = none ∧ q.Rests c.nread c.phase
  | .abort, _ => False
  | .count _ n rest, c =>
      (c.nread + n) % 0x100000000 ≤ httpMaxHeaderSize →
        rest.Lawful { c with nread := (c.nread + n) % 0x100000000 }
  | .resetCount rest, c => rest.Lawful { c with nread := 0 }
  | .assertCount n rest, c => c.nread = n ∧ rest.Lawful c
  | .mark k rest, c =>
      (c.marked = none ∧ ∃ φ, c.phase.data k 0 = some φ ∧
          rest.Lawful { c with marked := some k, phase := φ }) ∨
        (c.marked = some k ∧ rest.Lawful c)
  | .move n rest, c =>
      n ≤ c.left ∧ ∃ φ, c.phase.pass c.marked n = some φ ∧
        rest.Lawful { c with left := c.left - n, phase := φ }
  | .data k extra advance q rest, c =>
      extra ≤ c.left ∧ (advance = true → 0 < c.left) ∧
        (c.marked = none ∨ c.marked = some k) ∧
        ∃ φ, c.phase.pass c.marked extra = some φ ∧ q.Rests c.nread φ ∧
          rest.Lawful { c with marked := none, phase := φ }
  | .notify k advance q rest, c =>
      (advance = true → 0 < c.left) ∧ c.marked = none ∧
        ∃ φ, c.phase.notify k q.view = some φ ∧ q.Rests c.nread φ ∧
          rest.Lawful { c with phase := φ }
  | .headersComplete q rest skipping, c =>
      c.marked = none ∧
        (∃ φ, c.phase.headersComplete q.view = some φ ∧ q.Rests c.nread φ ∧
          rest.Lawful { c with phase := φ }) ∧
        ∃ φ, c.phase.headersComplete q.setSkipbody.view = some φ ∧
          q.setSkipbody.Rests c.nread φ ∧ skipping.Lawful { c with phase := φ }

open Registers Reaction

variable {q : Registers} {c : Cursor} {ch : UInt8} {rest : List UInt8} {e : HttpErrno}

theorem error_lawful (he : e.parsing = true) : (q.error e).Lawful c :=
  he

/-- What a state finds when it gets a byte; `nread` counts the byte already. -/
structure Finds (q : Registers) (c : Cursor) : Prop where
  errno : q.httpErrno = .ok
  contentLength_le : q.contentLength ≤ ullongMax
  fits : q.FitsState
  inPhase : q.InPhase c.phase
  headers : c.phase = .begun ∨ c.phase = .target → q.flags.trailing = false
  nread_le : c.nread ≤ httpMaxHeaderSize
  counted : q.state = .chunkSizeStart → c.nread = 1
  left_pos : 0 < c.left

/-- Nothing is marked, and the next state sets no mark. -/
theorem next_lawful {q' : Registers} (hm : c.marked = none) (hleft : 0 < c.left)
    (hmark : resumedMark q'.state = none) (hrests : q'.Rests c.nread c.phase) :
    (Reaction.next q').Lawful c := by
  refine ⟨hleft, Or.inl (hm.trans hmark.symm), c.phase, ?_, hrests⟩
  rw [hm]
  rfl

end Http2Asio.Http1
