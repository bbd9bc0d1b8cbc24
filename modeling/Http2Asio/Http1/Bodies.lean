import Http2Asio.Http1.RequestLine
import Http2Asio.Http1.Meter

/-!
# What follows the header of a request

After the empty line the parser goes on as the framing of the message says: with the next
message, with a body of a known length, or with chunks.  Nothing of a body is counted, and
the counter is set back at the end of the header and of each line with the size of a chunk.
The size is a hexadecimal number, read exactly (`metered_sizeLine`) or refused
(`refuses_size`).

`Registers.Ordinary` leaves out the messages that end with a change of the protocol.  For the
others `headersDone_placed` says in terms of the framing where the parser goes, and there is
one lemma for each part after that: a body of a known length byte by byte, with its last byte
apart, since it ends the message; a line with a size, read as a fold over its digits; what may
follow the size on the line, of which nothing is kept; and the bytes of a chunk, which end in
a state of their own and not with the message.

A size is accepted or refused as a whole.  `refuses_size` says that the two exhaust all sizes:
it is refused where the first byte is that makes it something else than a number, or too
large a one.
-/

namespace Http2Asio.Http1

open Feeding Registers

section Bodies

variable {σ : Type} {L : Listener σ} {q : Registers} {u : σ} {h : HeaderState} {i n : ℕ} {b : UInt8}
  {l : List UInt8}

/-- What a callback may read, for registers that are placed. -/
def Registers.told (q : Registers) : ParserView :=
  { q.view with upgrade := false }

/-- The state after a whole request. -/
def Registers.next (q : Registers) : State :=
  if httpShouldKeepAlive q.told then .startReq else .dead

/-- The header asks for no change of the protocol, and it is the header of a request. -/
structure Registers.Ordinary (q : Registers) : Prop where
  type : q.type = .request
  method : q.method ≠ .connect
  upgrade : (q.flags.upgrade && q.flags.connectionUpgrade) = false
  skipbody : q.flags.skipbody = false
  trailing : q.flags.trailing = false

/-! ## The end of the header -/

theorem completeMessage_placed {s : State} (htype : q.type = .request)
    {rest : Registers → Reaction} :
    (q.placed s h i).completeMessage rest =
      .notify .messageComplete true (q.placed q.next h i) (rest (q.placed q.next h i)) := by
  have hnew : (q.placed s h i).newMessage = q.next := by
    unfold newMessage Registers.next startState
    rw [if_pos (show (q.placed s h i).type = .request from htype)]
    rfl
  unfold completeMessage
  rw [hnew]
  rfl

theorem messageDone_placed (htype : q.type = .request) :
    messageDone (q.placed .messageDone h i) =
      .notify .messageComplete true (q.placed q.next h i) (.next (q.placed q.next h i)) := by
  unfold messageDone
  rw [completeMessage_placed htype]
  rfl

/-- `s_headers_done` in terms of the framing. -/
theorem headersDone_placed (hq : q.Ordinary) :
    headersDone (q.placed .headersDone h i) LF =
      .resetCount (if q.flags.chunked then .next (q.placed .chunkSizeStart h i)
        else if q.contentLength = 0 ∨ q.contentLength = ullongMax then
          .notify .messageComplete true (q.placed q.next h i) (.next (q.placed q.next h i))
        else .next (q.placed .bodyIdentity h i)) := by
  have heof : httpMessageNeedsEof (q.placed .headersDone h i).view = false :=
    if_pos hq.type
  unfold headersDone
  by_cases hchunked : q.flags.chunked = true
  · simp [hq.skipbody, hchunked]
  by_cases hzero : q.contentLength = 0
  · simp [hq.skipbody, hchunked, hzero, completeMessage_placed hq.type]
  by_cases hmax : q.contentLength = ullongMax
  · simp [hq.skipbody, hchunked, hmax, heof, completeMessage_placed hq.type]
  · simp [hq.skipbody, hchunked, hzero, hmax]

/-- Where the parser stands after the header, and what the listener has been told. -/
def afterHeader (L : Listener σ) (q : Registers) (h : HeaderState) (i : ℕ) (u : σ) :
    Registers × σ :=
  if q.flags.chunked then (q.placed .chunkSizeStart h i, u)
  else if q.contentLength = 0 ∨ q.contentLength = ullongMax then
    (q.placed q.next h i, L.messageComplete q.told u)
  else (q.placed .bodyIdentity h i, u)

/-- The first byte of an empty line. -/
theorem settleByte_emptyLine :
    settleByte L (q.placed .headerFieldStart h i, u) CR =
      some (.goes (q.placed .headersAlmostDone h i, u)) := rfl

theorem settleByte_headerEnd (hq : q.Ordinary) :
    settleByte L (q.placed .headersAlmostDone h i, u) LF =
      some (.goes (afterHeader L q h i (L.headersComplete q.told u))) := by
  have hheaders : headersAlmostDone (q.placed .headersAlmostDone h i) LF =
      .headersComplete (q.placed .headersDone h i) (headersDone (q.placed .headersDone h i) LF)
        (headersDone (q.placed .headersDone h i).setSkipbody LF) := by
    have hupgrade : ((q.flags.upgrade && q.flags.connectionUpgrade) ||
        decide (q.method = .connect)) = false := by
      rw [hq.upgrade, decide_eq_false hq.method]
      rfl
    unfold headersAlmostDone
    rw [if_neg (not_not_intro rfl), if_neg (by simp [hq.trailing])]
    exact congrArg (fun upgrade =>
      let q' := { q.placed .headersDone h i with upgrade := upgrade }
      Reaction.headersComplete q' (headersDone q' LF) (headersDone q'.setSkipbody LF)) hupgrade
  change Reaction.settle L LF
    (.count _ 1 (headersAlmostDone (q.placed .headersAlmostDone h i) LF)) 0 0 none u = _
  rw [hheaders, headersDone_placed hq]
  unfold afterHeader
  split_ifs <;> rfl

/-! ## A body of a known length -/

@[simp] theorem setLength_contentLength : (q.setLength n).contentLength = n := rfl

/-- A byte of a body that is not the last one. -/
theorem settleByte_bodyIdentity (hn : n + 2 < ullongMax) :
    settleByte L ((q.setLength (n + 2)).placed .bodyIdentity h i, u) b =
      some (.goes ((q.setLength (n + 1)).placed .bodyIdentity h i, L.data .body [b] u)) := by
  change Reaction.settle L b (bodyIdentity ((q.setLength (n + 2)).placed .bodyIdentity h i) [])
    0 0 none u = _
  have hone : min (n + 2) 1 = 1 := by omega
  rw [bodyIdentity_eq [] ⟨Nat.succ_ne_zero _, Nat.ne_of_lt hn⟩ (by exact hone)]
  rfl

/-- The last byte of a body is the end of the message. -/
theorem settleByte_bodyEnd (htype : q.type = .request) :
    settleByte L ((q.setLength 1).placed .bodyIdentity h i, u) b =
      some (.goes ((q.setLength 0).placed (q.setLength 0).next h i,
        L.messageComplete (q.setLength 0).told (L.data .body [b] u))) := by
  change Reaction.settle L b (.mark .body (.move 0 (.data .body 1 false
    ((q.setLength 0).placed .messageDone h i)
      (messageDone ((q.setLength 0).placed .messageDone h i))))) 0 0 none u = _
  rw [messageDone_placed (q := q.setLength 0) htype]
  rfl

theorem metered_body (htype : q.type = .request) {bytes : List UInt8} (hne : bytes ≠ [])
    (hmax : bytes.length < ullongMax) :
    Metered L ((q.setLength bytes.length).placed .bodyIdentity h i, u) 0 bytes
      ((q.setLength 0).placed (q.setLength 0).next h i,
        L.messageComplete (q.setLength 0).told (L.data .body bytes u)) 0 := by
  induction bytes generalizing u with
  | nil => exact absurd rfl hne
  | cons b bytes ih =>
      cases bytes with
      | nil => exact .cons (settleByte_bodyEnd htype) (Nat.zero_le _) (.nil _ 0)
      | cons b' bytes =>
          have hrest := ih (u := L.data .body [b] u) (by simp) (Nat.lt_of_succ_lt hmax)
          rw [← L.data_append] at hrest
          exact .cons (settleByte_bodyIdentity hmax) (Nat.zero_le _) hrest

/-! ## Chunks -/

/-- Bytes that the parser takes for hexadecimal digits. -/
def IsHex (l : List UInt8) : Prop :=
  ∀ b ∈ l, (unhex b).isSome = true

instance (l : List UInt8) : Decidable (IsHex l) :=
  inferInstanceAs (Decidable (∀ b ∈ l, _))

/-- The number so far, after one more digit. -/
def appendHex (n : ℕ) (b : UInt8) : ℕ :=
  n * 16 + (unhex b).getD 0

/-- The number in the size of a chunk. -/
def sizeValue (size : List UInt8) : ℕ :=
  size.foldl appendHex 0

/-- The largest chunk that the parser takes. -/
def sizeLimit : ℕ :=
  (ullongMax - 16) / 16 * 16 + 15

/-- What may stand between the size and the end of the line: anything after a semicolon or a
space. -/
def IsExtension (l : List UInt8) : Prop :=
  (∀ b ∈ l.head?, b = ';'.toUInt8 ∨ b = ' '.toUInt8) ∧ ∀ b ∈ l, b ≠ CR

instance (l : List UInt8) : Decidable (IsExtension l) :=
  inferInstanceAs (Decidable (_ ∧ _))

theorem le_foldl_appendHex : n ≤ l.foldl appendHex n := by
  induction l generalizing n with
  | nil => exact Nat.le_refl n
  | cons b l ih =>
      refine le_trans ?_ (ih (n := appendHex n b))
      unfold appendHex
      omega

theorem assertChunked_placed {s : State} {r : Reaction} (hchunked : q.flags.chunked = true) :
    (q.placed s h i).assertChunked r = r :=
  if_pos hchunked

theorem settleByte_chunkSizeStart (hchunked : q.flags.chunked = true)
    (hb : (unhex b).isSome = true) :
    settleByte L (q.placed .chunkSizeStart h i, u) b =
      some (.goes ((q.setLength (appendHex 0 b)).placed .chunkSize h i, u)) := by
  obtain ⟨value, hvalue⟩ := Option.isSome_iff_exists.mp hb
  change Reaction.settle L b (.count _ 1 (chunkSizeStart (q.placed .chunkSizeStart h i) b)) 0 0 none
    u = _
  unfold chunkSizeStart assertChunked appendHex
  rw [if_pos (by exact hchunked), hvalue]
  simp only [Option.getD_some, Nat.zero_mul, Nat.zero_add]
  rfl

theorem settleByte_chunkSize (hchunked : q.flags.chunked = true) (hb : (unhex b).isSome = true)
    (hn : appendHex n b ≤ sizeLimit) :
    settleByte L ((q.setLength n).placed .chunkSize h i, u) b =
      some (.goes ((q.setLength (appendHex n b)).placed .chunkSize h i, u)) := by
  obtain ⟨value, hvalue⟩ := Option.isSome_iff_exists.mp hb
  have hcr : b ≠ CR := by
    rintro rfl
    cases hb
  have hlimit : sizeLimit = 18446744073709551599 := rfl
  have hmax : (ullongMax - 16) / 16 = 1152921504606846974 := rfl
  have hlt := unhex_lt hvalue
  unfold appendHex at hn ⊢
  rw [hvalue, Option.getD_some] at hn ⊢
  have hsmall : (n * 16 + value) % 0x10000000000000000 = n * 16 + value := by omega
  change Reaction.settle L b (.count _ 1 (chunkSize ((q.setLength n).placed .chunkSize h i) b)) 0 0
    none u = _
  unfold chunkSize assertChunked
  rw [if_pos (by exact hchunked), if_neg hcr, hvalue]
  change Reaction.settle L b (.count _ 1 (if (ullongMax - 16) / 16 < n then _ else
    .next ((q.setLength ((n * 16 + value) % 0x10000000000000000)).placed .chunkSize h i))) 0 0
    none u = _
  rw [if_neg (by omega), hsmall]
  rfl

theorem settleAll_chunkSize (hchunked : q.flags.chunked = true) (hhex : IsHex l)
    (hn : l.foldl appendHex n ≤ sizeLimit) :
    settleAll L ((q.setLength n).placed .chunkSize h i, u) l =
      some ((q.setLength (l.foldl appendHex n)).placed .chunkSize h i, u) := by
  induction l generalizing n with
  | nil => rfl
  | cons b l ih =>
      obtain ⟨hb, hhex⟩ := List.forall_mem_cons.mp hhex
      have hbyte := settleByte_chunkSize (L := L) (q := q) (h := h) (i := i) (u := u) hchunked hb
        (le_foldl_appendHex.trans hn)
      rw [settleAll_cons hbyte, ih hhex hn]
      rfl

theorem settleByte_parameters (hchunked : q.flags.chunked = true) (hb : b ≠ CR) :
    settleByte L (q.placed .chunkParameters h i, u) b =
      some (.goes (q.placed .chunkParameters h i, u)) := by
  change Reaction.settle L b
    (.count _ 1 ((q.placed .chunkParameters h i).assertChunked (if b = CR then _ else _))) 0 0 none
    u = _
  rw [assertChunked_placed hchunked, if_neg hb]
  rfl

theorem settleAll_parameters (hchunked : q.flags.chunked = true) (hl : ∀ b ∈ l, b ≠ CR) :
    settleAll L (q.placed .chunkParameters h i, u) l = some (q.placed .chunkParameters h i, u) := by
  induction l with
  | nil => rfl
  | cons b l ih =>
      obtain ⟨hb, hl⟩ := List.forall_mem_cons.mp hl
      rw [settleAll_cons (settleByte_parameters hchunked hb), ih hl]

theorem settleByte_chunkSizeEnd {s : State} (hchunked : q.flags.chunked = true)
    (hs : s = .chunkSize ∨ s = .chunkParameters) :
    settleByte L (q.placed s h i, u) CR = some (.goes (q.placed .chunkSizeAlmostDone h i, u)) := by
  rcases hs with rfl | rfl
  · change Reaction.settle L CR (.count _ 1 ((q.placed .chunkSize h i).assertChunked
      (.next (q.placed .chunkSizeAlmostDone h i)))) 0 0 none u = _
    rw [assertChunked_placed hchunked]
    rfl
  · change Reaction.settle L CR (.count _ 1 ((q.placed .chunkParameters h i).assertChunked
      (.next (q.placed .chunkSizeAlmostDone h i)))) 0 0 none u = _
    rw [assertChunked_placed hchunked]
    rfl

/-- What stands between the size and the end of the line does not matter. -/
theorem settleAll_extension (hchunked : q.flags.chunked = true) (hext : IsExtension l) :
    settleAll L (q.placed .chunkSize h i, u) (l ++ ascii "\r") =
      some (q.placed .chunkSizeAlmostDone h i, u) := by
  obtain ⟨hhead, hl⟩ := hext
  cases l with
  | nil => exact settleAll_cons (settleByte_chunkSizeEnd hchunked (Or.inl rfl))
  | cons b l =>
      have hbyte : settleByte L (q.placed .chunkSize h i, u) b =
          some (.goes (q.placed .chunkParameters h i, u)) := by
        rcases hhead b rfl with rfl | rfl
        all_goals
          change Reaction.settle L _ (.count _ 1 ((q.placed .chunkSize h i).assertChunked
            (.next (q.placed .chunkParameters h i)))) 0 0 none u = _
          rw [assertChunked_placed hchunked]
          rfl
      rw [List.cons_append, settleAll_cons hbyte, settleAll_append
        (settleAll_parameters hchunked (List.forall_mem_cons.mp hl).2)]
      exact settleAll_cons (settleByte_chunkSizeEnd hchunked (Or.inr rfl))

/-- The registers after the size of the last chunk. -/
def Registers.setTrailing (q : Registers) : Registers :=
  { q with flags := { q.flags with trailing := true } }

/-- Where the parser stands after the size of a chunk. -/
def Registers.afterSize (q : Registers) (n : ℕ) (h : HeaderState) (i : ℕ) : Registers :=
  if n = 0 then (q.setLength 0).setTrailing.placed .headerFieldStart h i
  else (q.setLength n).placed .chunkData h i

theorem settleByte_chunkSizeAlmostDone (hchunked : q.flags.chunked = true) :
    settleByte L ((q.setLength n).placed .chunkSizeAlmostDone h i, u) LF =
      some (.goes (q.afterSize n h i, L.chunkHeader (q.afterSize n h i).view u)) := by
  change Reaction.settle L LF (.count _ 1
    (((q.setLength n).placed .chunkSizeAlmostDone h i).assertChunked (if LF ≠ LF then _ else
      .resetCount (.notify .chunkHeader true (if n = 0 then _ else _)
        (.next (if n = 0 then _ else _))))))
    0 0 none u = _
  rw [assertChunked_placed (by exact hchunked), if_neg (not_not_intro rfl)]
  unfold Registers.afterSize
  by_cases hn : n = 0
  · subst hn
    rfl
  · rw [if_neg hn, if_neg hn]
    rfl

/-- A line with the size of a chunk. -/
structure SizeLine where
  size : List UInt8
  extension : List UInt8 := []
  size_ne : size ≠ [] := by decide +kernel
  size_hex : IsHex size := by decide +kernel
  size_le : sizeValue size ≤ sizeLimit := by decide +kernel
  extension_ok : IsExtension extension := by decide +kernel

/-- The line as it is sent. -/
def SizeLine.render (line : SizeLine) : List UInt8 :=
  line.size ++ line.extension ++ ascii "\r\n"

/-- The size of a chunk is read exactly. -/
theorem metered_sizeLine (hchunked : q.flags.chunked = true) {line : SizeLine}
    (hfits : 2 * line.render.length ≤ httpMaxHeaderSize) :
    Metered L (q.placed .chunkSizeStart h i, u) 0 line.render
      (q.afterSize (sizeValue line.size) h i,
        L.chunkHeader (q.afterSize (sizeValue line.size) h i).view u) 0 := by
  have hrender : line.render = line.size ++ (line.extension ++ ascii "\r") ++ [LF] := by
    rw [SizeLine.render, List.append_assoc, List.append_assoc, List.append_assoc]
    rfl
  have hline : settleAll L (q.placed .chunkSizeStart h i, u)
      (line.size ++ (line.extension ++ ascii "\r")) =
        some ((q.setLength (sizeValue line.size)).placed .chunkSizeAlmostDone h i, u) := by
    obtain ⟨size, extension, hne, hhex, hle, hext⟩ := line
    cases size with
    | nil => exact absurd rfl hne
    | cons b size =>
        obtain ⟨hb, hhex⟩ := List.forall_mem_cons.mp hhex
        rw [List.cons_append, settleAll_cons (settleByte_chunkSizeStart hchunked hb),
          settleAll_append (settleAll_chunkSize hchunked hhex hle)]
        exact settleAll_extension (by exact hchunked) hext
  rw [hrender, List.length_append] at hfits
  rw [hrender]
  exact metered_reset hline (settleByte_chunkSizeAlmostDone hchunked) rfl
    (by rw [Nat.zero_add]; exact hfits)

/-! ## Sizes that are refused -/

/-- What stands before a semicolon, a space or the end of the line. -/
def IsSize (l : List UInt8) : Prop :=
  ∀ b ∈ l, b ≠ CR ∧ b ≠ ';'.toUInt8 ∧ b ≠ ' '.toUInt8

instance (l : List UInt8) : Decidable (IsSize l) :=
  inferInstanceAs (Decidable (∀ b ∈ l, _ ∧ _ ∧ _))

/-- The errors of a size: not a number, or too large. -/
def HttpErrno.ofSize (err : HttpErrno) : Prop :=
  err = .invalidChunkSize ∨ err = .invalidContentLength

theorem settleByte_sizeStart_error (hchunked : q.flags.chunked = true) (hb : unhex b = none) :
    settleByte L (q.placed .chunkSizeStart h i, u) b =
      some (.stops ((q.placed .chunkSizeStart h i).setErrno .invalidChunkSize, u) false) := by
  change Reaction.settle L b (.count _ 1 (chunkSizeStart (q.placed .chunkSizeStart h i) b)) 0 0 none
    u = _
  unfold chunkSizeStart
  rw [assertChunked_placed hchunked, hb]
  rfl

theorem settleByte_size_error (hchunked : q.flags.chunked = true) (hb : unhex b = none)
    (hcr : b ≠ CR) (hsemicolon : b ≠ ';'.toUInt8) (hspace : b ≠ ' '.toUInt8) :
    settleByte L (q.placed .chunkSize h i, u) b =
      some (.stops ((q.placed .chunkSize h i).setErrno .invalidChunkSize, u) false) := by
  change Reaction.settle L b (.count _ 1 (chunkSize (q.placed .chunkSize h i) b)) 0 0 none u = _
  unfold chunkSize
  rw [assertChunked_placed hchunked, if_neg hcr, hb]
  dsimp only
  rw [if_neg (not_or.mpr ⟨hsemicolon, hspace⟩)]
  rfl

theorem settleByte_size_big (hchunked : q.flags.chunked = true) (hb : (unhex b).isSome = true)
    (hn : sizeLimit < appendHex n b) :
    settleByte L ((q.setLength n).placed .chunkSize h i, u) b =
      some (.stops (((q.setLength n).placed .chunkSize h i).setErrno .invalidContentLength, u)
        false) := by
  obtain ⟨value, hvalue⟩ := Option.isSome_iff_exists.mp hb
  have hcr : b ≠ CR := by
    rintro rfl
    cases hb
  have hlimit : sizeLimit = 18446744073709551599 := rfl
  have hmax : (ullongMax - 16) / 16 = 1152921504606846974 := rfl
  have hlt := unhex_lt hvalue
  unfold appendHex at hn
  rw [hvalue, Option.getD_some] at hn
  change Reaction.settle L b (.count _ 1 (chunkSize ((q.setLength n).placed .chunkSize h i) b)) 0 0
    none u = _
  unfold chunkSize
  rw [assertChunked_placed (by exact hchunked), if_neg hcr, hvalue]
  change Reaction.settle L b (.count _ 1 (if (ullongMax - 16) / 16 < n then _ else _)) 0 0
    none u = _
  rw [if_pos (by omega)]
  rfl

theorem refuses_size_going (hchunked : q.flags.chunked = true) (hl : IsSize l)
    (hn : n ≤ sizeLimit) (hbad : ¬ (IsHex l ∧ l.foldl appendHex n ≤ sizeLimit)) :
    ∃ err, HttpErrno.ofSize err ∧
      Refuses L err ((q.setLength n).placed .chunkSize h i, u) l := by
  induction l generalizing n with
  | nil => exact absurd ⟨List.forall_mem_nil _, hn⟩ hbad
  | cons b l ih =>
      obtain ⟨⟨hcr, hsemicolon, hspace⟩, hl⟩ := List.forall_mem_cons.mp hl
      cases hb : unhex b with
      | none =>
          exact ⟨_, Or.inl rfl,
            .here (settleByte_size_error (by exact hchunked) hb hcr hsemicolon hspace) rfl⟩
      | some value =>
          have hsome : (unhex b).isSome = true := by rw [hb]; rfl
          by_cases hbig : sizeLimit < appendHex n b
          · exact ⟨_, Or.inr rfl, .here (settleByte_size_big hchunked hsome hbig) rfl⟩
          · have hnext : appendHex n b ≤ sizeLimit := Nat.le_of_not_lt hbig
            obtain ⟨err, herr, hrefuses⟩ := ih hl hnext fun hrest =>
              hbad ⟨List.forall_mem_cons.mpr ⟨hsome, hrest.1⟩, hrest.2⟩
            exact ⟨err, herr, .later (settleByte_chunkSize hchunked hsome hnext) hrefuses⟩

/-- A size that is not a number, or too large a one, is refused. -/
theorem refuses_size (hchunked : q.flags.chunked = true) (hl : IsSize l) (hne : l ≠ [])
    (hbad : ¬ (IsHex l ∧ sizeValue l ≤ sizeLimit)) :
    ∃ err, HttpErrno.ofSize err ∧ Refuses L err (q.placed .chunkSizeStart h i, u) l := by
  cases l with
  | nil => exact absurd rfl hne
  | cons b l =>
      cases hb : unhex b with
      | none => exact ⟨_, Or.inl rfl, .here (settleByte_sizeStart_error hchunked hb) rfl⟩
      | some value =>
          have hsome : (unhex b).isSome = true := by rw [hb]; rfl
          have hfirst : appendHex 0 b ≤ sizeLimit := by
            have hlt := unhex_lt hb
            have hlimit : sizeLimit = 18446744073709551599 := rfl
            rw [appendHex, hb, Option.getD_some]
            omega
          obtain ⟨err, herr, hrefuses⟩ := refuses_size_going (L := L) (h := h) (i := i) (u := u)
            hchunked (List.forall_mem_cons.mp hl).2 hfirst fun hrest =>
              hbad ⟨List.forall_mem_cons.mpr ⟨hsome, hrest.1⟩, hrest.2⟩
          exact ⟨err, herr, .later (settleByte_chunkSizeStart hchunked hsome) hrefuses⟩

/-! ## The bytes of a chunk -/

theorem settleByte_chunkData (hchunked : q.flags.chunked = true) (hn : n + 1 < ullongMax) :
    settleByte L ((q.setLength (n + 1)).placed .chunkData h i, u) b =
      some (.goes ((q.setLength n).placed (if n = 0 then .chunkDataAlmostDone else .chunkData) h i,
        L.data .body [b] u)) := by
  change Reaction.settle L b (chunkData ((q.setLength (n + 1)).placed .chunkData h i) []) 0 0 none
    u = _
  have hone : min (n + 1) 1 = 1 := by omega
  rw [chunkData_eq [] (by exact hchunked) ⟨Nat.succ_ne_zero _, Nat.ne_of_lt hn⟩ (by exact hone)]
  by_cases hzero : n = 0
  · subst hzero
    rfl
  · change Reaction.settle L b (.mark .body (.move 0 (.next (if n = 0 then _ else _)))) 0 0 none
      u = _
    rw [if_neg hzero, if_neg hzero]
    rfl

theorem metered_chunkData (hchunked : q.flags.chunked = true) {bytes : List UInt8}
    (hne : bytes ≠ []) (hmax : bytes.length < ullongMax) :
    Metered L ((q.setLength bytes.length).placed .chunkData h i, u) 0 bytes
      ((q.setLength 0).placed .chunkDataAlmostDone h i, L.data .body bytes u) 0 := by
  induction bytes generalizing u with
  | nil => exact absurd rfl hne
  | cons b bytes ih =>
      have hbyte := settleByte_chunkData (L := L) (h := h) (i := i) (u := u) (b := b)
        (n := bytes.length) hchunked hmax
      cases bytes with
      | nil => exact .cons hbyte (Nat.zero_le _) (.nil _ 0)
      | cons b' bytes =>
          have hrest := ih (u := L.data .body [b] u) (by simp) (Nat.lt_of_succ_lt hmax)
          rw [← L.data_append] at hrest
          exact .cons hbyte (Nat.zero_le _) hrest

theorem metered_chunkEnd (hchunked : q.flags.chunked = true) :
    Metered L ((q.setLength 0).placed .chunkDataAlmostDone h i, u) 0 (ascii "\r\n")
      ((q.setLength 0).placed .chunkSizeStart h i, L.chunkComplete (q.setLength 0).told u) 0 := by
  have hcr : settleByte L ((q.setLength 0).placed .chunkDataAlmostDone h i, u) CR =
      some (.goes ((q.setLength 0).placed .chunkDataDone h i, u)) := by
    change Reaction.settle L CR
      (((q.setLength 0).placed .chunkDataAlmostDone h i).assertChunked _) 0 0 none u = _
    rw [assertChunked_placed (by exact hchunked)]
    rfl
  have hlf : settleByte L ((q.setLength 0).placed .chunkDataDone h i, u) LF =
      some (.goes ((q.setLength 0).placed .chunkSizeStart h i,
        L.chunkComplete (q.setLength 0).told u)) := by
    change Reaction.settle L LF
      (((q.setLength 0).placed .chunkDataDone h i).assertChunked _) 0 0 none u = _
    rw [assertChunked_placed (by exact hchunked)]
    rfl
  exact .cons hcr (Nat.zero_le _) (.cons hlf (Nat.zero_le _) (.nil _ 0))

/-- The empty line after the trailer is the end of the message. -/
theorem settleAll_trailerEnd (htype : q.type = .request) (htrailing : q.flags.trailing = true) :
    settleAll L (q.placed .headerFieldStart h i, u) (ascii "\r\n") =
      some (q.placed q.next h i, L.messageComplete q.told (L.chunkComplete q.told u)) := by
  have hlf : settleByte L (q.placed .headersAlmostDone h i, u) LF =
      some (.goes (q.placed q.next h i, L.messageComplete q.told (L.chunkComplete q.told u))) := by
    change Reaction.settle L LF
      (.count _ 1 (headersAlmostDone (q.placed .headersAlmostDone h i) LF)) 0 0 none u = _
    unfold headersAlmostDone
    rw [if_neg (not_not_intro rfl), if_pos (by exact htrailing)]
    change Reaction.settle L LF (.count _ 1 (.notify .chunkComplete false
      (q.placed .messageDone h i) (messageDone (q.placed .messageDone h i)))) 0 0 none u = _
    rw [messageDone_placed htype]
    rfl
  exact (settleAll_cons settleByte_emptyLine).trans (settleAll_cons hlf)

end Bodies

end Http2Asio.Http1
