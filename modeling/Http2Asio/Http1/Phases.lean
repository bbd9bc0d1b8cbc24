import Http2Asio.Model.HttpExecute

/-!
# What the HTTP/1 parser promises to its callbacks

`Phase` is the position of a message in the order of the callbacks, as a user of the
parser sees it: it is computed from the calls alone, with what a callback may read at
them.  A phase also holds how many bytes of the body or of the chunk are still to come,
so the order fixes the amount of data as well.

`framing` says how a message goes on after its headers.  It is stated in terms of the
message; `Lawful.lean` shows that `s_headers_done` comes to the same.
-/

namespace Http2Asio.Http1

/-- Where a message stands, as the callbacks see it. -/
inductive Phase
  /-- Between two messages. -/
  | idle
  /-- After `on_message_begin`. -/
  | begun
  /-- In or after the request target or the reason phrase. -/
  | target
  /-- In or after a field name, of the headers or of the trailer. -/
  | field (trailing : Bool)
  /-- In or after a field value. -/
  | value (trailing : Bool)
  /-- After the header of the last chunk. -/
  | trailers
  /-- So many bytes are left of the body. -/
  | body (left : ℕ)
  /-- The body lasts until the connection ends. -/
  | untilClose
  /-- Between two chunks. -/
  | chunks
  /-- So many bytes are left of the chunk. -/
  | chunk (left : ℕ)
  deriving DecidableEq

/-- A message with these headers has a body with a length or in chunks. -/
def ParserView.hasBody (v : ParserView) : Prop :=
  v.flags.chunked ∨ (0 < v.contentLength ∧ v.contentLength ≠ ullongMax)

instance (v : ParserView) : Decidable v.hasBody :=
  inferInstanceAs (Decidable (_ ∨ _))

/-- How a message goes on after its headers. -/
def framing (v : ParserView) : Phase :=
  -- the answer 1 of `on_headers_complete`
  if v.flags.skipbody then .body 0
  -- what follows the headers belongs to another protocol
  else if v.upgrade ∧ (v.method = .connect ∨ ¬ v.hasBody) then .body 0
  else if v.flags.chunked then .chunks
  else if v.contentLength ≠ ullongMax then .body v.contentLength
  else if httpMessageNeedsEof v then .untilClose
  else .body 0

namespace Phase

/-- The phase after a data callback with `n` bytes. -/
def data : DataCb → ℕ → Phase → Option Phase
  | .url, _, .begun => some .target
  | .url, _, .target => some .target
  | .status, _, .begun => some .target
  | .status, _, .target => some .target
  | .headerField, _, .begun => some (.field false)
  | .headerField, _, .target => some (.field false)
  | .headerField, _, .trailers => some (.field true)
  | .headerField, _, .field trailing => some (.field trailing)
  | .headerField, _, .value trailing => some (.field trailing)
  | .headerValue, _, .field trailing => some (.value trailing)
  | .headerValue, _, .value trailing => some (.value trailing)
  | .body, n, .body left => if n ≤ left then some (.body (left - n)) else none
  | .body, n, .chunk left => if n ≤ left then some (.chunk (left - n)) else none
  | .body, _, .untilClose => some .untilClose
  | _, _, _ => none

/-- The phase after a notification.  At the end of the input `on_message_complete` does
not end the message for the parser. -/
def notify : NotifyCb → ParserView → Phase → Option Phase
  | .messageBegin, _, .idle => some .begun
  -- an empty line before a status line
  | .messageBegin, _, .begun => some .begun
  | .chunkHeader, v, .chunks =>
      some (if v.contentLength = 0 then .trailers else .chunk v.contentLength)
  | .chunkComplete, _, .chunk 0 => some .chunks
  | .chunkComplete, _, .trailers => some (.body 0)
  | .chunkComplete, _, .value true => some (.body 0)
  | .messageComplete, _, .body 0 => some .idle
  | .messageComplete, _, .untilClose => some .untilClose
  | _, _, _ => none

/-- The phase after `on_headers_complete`, whose answer 1 is already in `v`. -/
def headersComplete (v : ParserView) : Phase → Option Phase
  | .begun | .target | .value false => some (framing v)
  | _ => none

variable {φ ψ χ : Phase} {k : DataCb} {m n : ℕ}

/-- Only the sum of the lengths of consecutive data callbacks matters. -/
theorem data_add (hfirst : φ.data k m = some ψ) (hsecond : ψ.data k n = some χ) :
    φ.data k (m + n) = some χ := by
  cases k with
  | body =>
      cases φ with
      | body left =>
          by_cases hm : m ≤ left
          · simp only [data, if_pos hm, Option.some.injEq] at hfirst
            subst hfirst
            by_cases hn : n ≤ left - m
            · simp only [data, if_pos hn, Option.some.injEq] at hsecond
              subst hsecond
              have hsum : m + n ≤ left := by omega
              simp only [data, if_pos hsum, Nat.sub_sub]
            -- a call with more bytes than are left has no phase after it
            · simp [data, hn] at hsecond
          · simp [data, hm] at hfirst
      | chunk left =>
          by_cases hm : m ≤ left
          · simp only [data, if_pos hm, Option.some.injEq] at hfirst
            subst hfirst
            by_cases hn : n ≤ left - m
            · simp only [data, if_pos hn, Option.some.injEq] at hsecond
              subst hsecond
              have hsum : m + n ≤ left := by omega
              simp only [data, if_pos hsum, Nat.sub_sub]
            · simp [data, hn] at hsecond
          · simp [data, hm] at hfirst
      | untilClose =>
          simp only [data, Option.some.injEq] at hfirst
          subst hfirst
          simpa [data] using hsecond
      | _ => simp [data] at hfirst
  | _ =>
      cases φ <;> simp [data] at hfirst <;> subst hfirst <;> simpa [data] using hsecond

/-- A callback may be called again, with no bytes. -/
theorem data_again (h : φ.data k n = some ψ) : ψ.data k 0 = some ψ := by
  cases k with
  | body =>
      cases φ with
      | body left | chunk left =>
          by_cases hn : n ≤ left
          · simp only [data, if_pos hn, Option.some.injEq] at h
            subst h
            simp [data]
          · simp [data, hn] at h
      | untilClose =>
          simp only [data, Option.some.injEq] at h
          subst h
          rfl
      | _ => simp [data] at h
  | _ => cases φ <;> simp [data] at h <;> subst h <;> rfl

/-- The phase after the bytes that a mark, if any, spans. -/
def pass (φ : Phase) (marked : Option DataCb) (n : ℕ) : Option Phase :=
  match marked with
  | none => some φ
  | some k => φ.data k n

@[simp] theorem pass_none : φ.pass none n = some φ := rfl

@[simp] theorem pass_some : φ.pass (some k) n = φ.data k n := rfl

end Phase

/-! ## Calls -/

/-- A call of a callback, with what it may read. -/
inductive Call
  | data (k : DataCb) (bytes : List UInt8) (v : ParserView)
  | notify (k : NotifyCb) (v : ParserView)
  /-- Here `v` is the view after the answer. -/
  | headersComplete (v : ParserView)
  deriving DecidableEq

/-- The phase after a call. -/
def Phase.after (φ : Phase) : Call → Option Phase
  | .data k bytes _ => φ.data k bytes.length
  | .notify k v => φ.notify k v
  | .headersComplete v => φ.headersComplete v

/-- The phase after a list of calls, `none` if they are out of order. -/
def Phase.afterAll : Phase → List Call → Option Phase
  | φ, [] => some φ
  | φ, call :: calls => (φ.after call).bind fun ψ => ψ.afterAll calls

theorem Phase.afterAll_append {φ : Phase} {calls more : List Call} :
    φ.afterAll (calls ++ more) = (φ.afterAll calls).bind fun ψ => ψ.afterAll more := by
  induction calls generalizing φ with
  | nil => rfl
  | cons call calls ih =>
      simp only [List.cons_append, Phase.afterAll, Option.bind_assoc]
      exact Option.bind_congr fun ψ _ => ih

end Http2Asio.Http1
