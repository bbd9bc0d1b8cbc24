import Http2Asio.Http1.Bodies

/-!
# Requests

A `Request` is a whole request as a peer writes it, in a form that cannot be malformed: its
body has the framing that its header fields announce.  `Request.tell` is what a listener
should be told of it, in terms of the request alone.  `metered_requests` says that the parser
tells just this, of one request after the other, if each of their headers is short enough.

What is told depends on what a callback may read, and that on the registers; so `tell` is
given the registers at the end of the header (`Request.header`), which are computed from the
fields by `Field.effect`, and those at the end of the message (`Request.final`).  Fields
change few registers (`SameMessage`), and the next request line sets the rest anew, so nothing
of a request shows in what is told of the next one.

The exception is the counter.  Nothing sets it back after a trailer, so a trailer counts
together with the header that follows it: `carry` is what it leaves, and `ShortFrom` asks of
each request that its header fits together with what the one before has left.
-/

namespace Http2Asio.Http1

open Feeding Registers

/-! ## Chunks -/

/-- A chunk that is not the last one. -/
structure Chunk where
  line : SizeLine
  bytes : List UInt8
  bytes_ne : bytes ≠ [] := by decide +kernel
  size_eq : sizeValue line.size = bytes.length := by decide +kernel

namespace Chunk

variable (c : Chunk)

/-- The chunk as it is sent. -/
def render : List UInt8 :=
  c.line.render ++ c.bytes ++ ascii "\r\n"

/-- What the listener is told of the chunk. -/
def tell {σ : Type} (L : Listener σ) (q : Registers) (u : σ) : σ :=
  L.chunkComplete (q.setLength 0).told
    (L.data .body c.bytes (L.chunkHeader (q.setLength c.bytes.length).told u))

end Chunk

section Chunks

variable {σ : Type} {L : Listener σ} {q : Registers} {u : σ} {h : HeaderState} {i : ℕ}
  {chunks : List Chunk}

theorem metered_chunk (hchunked : q.flags.chunked = true) {c : Chunk}
    (hfits : 2 * c.line.render.length ≤ httpMaxHeaderSize) :
    Metered L (q.placed .chunkSizeStart h i, u) 0 c.render
      ((q.setLength 0).placed .chunkSizeStart h i, c.tell L q u) 0 := by
  have hmax : c.bytes.length < ullongMax :=
    lt_of_le_of_lt (c.size_eq ▸ c.line.size_le) (by decide)
  have hpos : c.bytes.length ≠ 0 := fun h => c.bytes_ne (List.eq_nil_of_length_eq_zero h)
  have hsize := metered_sizeLine (L := L) (h := h) (i := i) (u := u) hchunked hfits
  rw [c.size_eq, Registers.afterSize, if_neg hpos] at hsize
  exact (hsize.append (metered_chunkData hchunked c.bytes_ne hmax)).append
    (metered_chunkEnd hchunked)

/-- Chunks leave no register changed but the length. -/
theorem metered_chunkList (hchunked : q.flags.chunked = true)
    (hfits : ∀ c ∈ chunks, 2 * c.line.render.length ≤ httpMaxHeaderSize) :
    ∃ n, Metered L (q.placed .chunkSizeStart h i, u) 0 (chunks.flatMap Chunk.render)
      ((q.setLength n).placed .chunkSizeStart h i,
        chunks.foldl (fun u c => c.tell L q u) u) 0 := by
  induction chunks generalizing q u with
  | nil => exact ⟨q.contentLength, .nil _ 0⟩
  | cons c chunks ih =>
      obtain ⟨hc, hchunks⟩ := List.forall_mem_cons.mp hfits
      obtain ⟨n, hrest⟩ := ih (q := q.setLength 0) (u := c.tell L q u) hchunked hchunks
      exact ⟨n, (metered_chunk hchunked hc).append hrest⟩

/-- Chunks, and the line that ends them. -/
theorem metered_chunks (hchunked : q.flags.chunked = true) {last : SizeLine}
    (hlast : sizeValue last.size = 0)
    (hfits : ∀ c ∈ chunks, 2 * c.line.render.length ≤ httpMaxHeaderSize)
    (hfitsLast : 2 * last.render.length ≤ httpMaxHeaderSize) :
    Metered L (q.placed .chunkSizeStart h i, u) 0 (chunks.flatMap Chunk.render ++ last.render)
      ((q.setLength 0).setTrailing.placed .headerFieldStart h i,
        L.chunkHeader (q.setLength 0).setTrailing.told
          (chunks.foldl (fun u c => c.tell L q u) u)) 0 := by
  obtain ⟨n, hchunks⟩ := metered_chunkList (L := L) (h := h) (i := i) (u := u) hchunked hfits
  have hsize := metered_sizeLine (L := L) (q := q.setLength n) (h := h) (i := i)
    (u := chunks.foldl (fun u c => c.tell L q u) u) hchunked hfitsLast
  rw [hlast] at hsize
  exact hchunks.append hsize

end Chunks

/-! ## What fields keep -/

/-- The registers that no header field changes. -/
structure SameMessage (q q' : Registers) : Prop where
  type : q'.type = q.type
  statusCode : q'.statusCode = q.statusCode
  method : q'.method = q.method
  skipbody : q'.flags.skipbody = q.flags.skipbody
  trailing : q'.flags.trailing = q.flags.trailing

variable {q q' : Registers} {f : Field} {fields : List Field}

theorem SameMessage.refl : SameMessage q q :=
  ⟨rfl, rfl, rfl, rfl, rfl⟩

theorem SameMessage.trans {q'' : Registers} (h : SameMessage q q') (h' : SameMessage q' q'') :
    SameMessage q q'' :=
  ⟨h'.type.trans h.type, h'.statusCode.trans h.statusCode, h'.method.trans h.method,
    h'.skipbody.trans h.skipbody, h'.trailing.trans h.trailing⟩

theorem setValueFlag_same (h : HeaderState) :
    SameMessage q (setValueFlag h q) ∧ (setValueFlag h q).contentLength = q.contentLength := by
  cases h <;> exact ⟨⟨rfl, rfl, rfl, rfl, rfl⟩, rfl⟩

theorem WordFamily.effect_same (F : WordFamily) (value : List UInt8) :
    SameMessage q (F.effect value q) ∧ (F.effect value q).contentLength = q.contentLength := by
  unfold WordFamily.effect
  cases F.words.find? (·.word = optionWord value) with
  | none => exact ⟨.refl, rfl⟩
  | some k => exact setValueFlag_same k.found

theorem Field.effect_same : SameMessage q (f.effect q) := by
  unfold Field.effect
  split
  · exact .refl
  · split
    · exact ⟨rfl, rfl, rfl, rfl, rfl⟩
    · exact (codings.effect_same _).1
    · exact (options.effect_same _).1
    · exact ⟨rfl, rfl, rfl, rfl, rfl⟩
    · exact .refl

theorem Field.effect_length (hread : f.IsRead) (hq : q.contentLength ≤ ullongMax) :
    (f.effect q).contentLength ≤ ullongMax := by
  unfold Field.effect
  split
  · exact hq
  next hne =>
    split
    next hmeaning => exact (hread.length hmeaning hne).le_limit.trans (by decide)
    · exact (codings.effect_same _).2.symm ▸ hq
    · exact (options.effect_same _).2.symm ▸ hq
    · exact hq
    · exact hq

theorem fields_same : SameMessage q (fields.foldl (fun q f => f.effect q) q) := by
  induction fields generalizing q with
  | nil => exact .refl
  | cons f fields ih => exact Field.effect_same.trans ih

theorem fields_length (hread : ∀ f ∈ fields, f.IsRead) (hq : q.contentLength ≤ ullongMax) :
    (fields.foldl (fun q f => f.effect q) q).contentLength ≤ ullongMax := by
  induction fields generalizing q with
  | nil => exact hq
  | cons f fields ih =>
      obtain ⟨hf, hfields⟩ := List.forall_mem_cons.mp hread
      exact ih hfields (Field.effect_length hf hq)

/-! ## Requests -/

/-- The body of a request. -/
inductive Body
  | sized (bytes : List UInt8)
  | chunked (chunks : List Chunk) (last : SizeLine) (trailer : List Field)

namespace Body

/-- The body as it is sent. -/
def render : Body → List UInt8
  | .sized bytes => bytes
  | .chunked chunks last trailer =>
      chunks.flatMap Chunk.render ++ last.render ++ trailer.flatMap Field.render ++ ascii "\r\n"

/-- The body has the framing that the header announces. -/
def Fits (q : Registers) : Body → Prop
  | .sized bytes => framing q.told = .body bytes.length
  | .chunked _ last trailer =>
      framing q.told = .chunks ∧ sizeValue last.size = 0 ∧ ∀ f ∈ trailer, f.IsRead

/-- The registers after the body. -/
def after (q : Registers) : Body → Registers
  | .sized bytes => if bytes = [] then q else q.setLength 0
  | .chunked _ _ trailer => trailer.foldl (fun q f => f.effect q) (q.setLength 0).setTrailing

/-- The lines of the body are short enough for the limit. -/
def Short : Body → Prop
  | .sized _ => True
  | .chunked chunks last trailer =>
      (∀ c ∈ chunks, 2 * c.line.render.length ≤ httpMaxHeaderSize) ∧
        2 * last.render.length ≤ httpMaxHeaderSize ∧
        2 * (trailer.flatMap Field.render ++ ascii "\r\n").length ≤ httpMaxHeaderSize

instance (body : Body) : Decidable body.Short := by
  unfold Short
  split <;> infer_instance

/-- What the counter may have reached after the body: nothing sets it back after a trailer. -/
def carry : Body → ℕ
  | .sized _ => 0
  | .chunked _ _ trailer => 2 * (trailer.flatMap Field.render ++ ascii "\r\n").length

/-- What the listener is told of the body. -/
def tell {σ : Type} (L : Listener σ) (q : Registers) (u : σ) : Body → σ
  | .sized bytes => L.data .body bytes u
  | body@(.chunked chunks _ trailer) =>
      L.chunkComplete (body.after q).told
        (trailer.foldl (fun u f => f.tell L u)
          (L.chunkHeader (q.setLength 0).setTrailing.told
            (chunks.foldl (fun u c => c.tell L q u) u)))

end Body

/-- A request whose body is framed as its header says, and which asks for no change of the
protocol. -/
structure Request where
  method : HttpMethod
  target : List UInt8
  fields : List Field
  body : Body
  method_ne : method ≠ .connect
  target_ok : IsTarget target
  fields_read : ∀ f ∈ fields, f.IsRead
  keeps_protocol : let flags := (fields.foldl (fun q f => f.effect q) (Registers.line method)).flags
    (flags.upgrade && flags.connectionUpgrade) = false
  framed : body.Fits (fields.foldl (fun q f => f.effect q) (Registers.line method))

namespace Request

variable (r : Request)

/-- The registers at the end of the header. -/
def header : Registers :=
  r.fields.foldl (fun q f => f.effect q) (Registers.line r.method)

/-- The registers at the end of the request. -/
def final : Registers :=
  r.body.after r.header

/-- The header as it is sent. -/
def renderHeader : List UInt8 :=
  requestLine r.method r.target ++ r.fields.flatMap Field.render ++ ascii "\r\n"

/-- The request as it is sent. -/
def render : List UInt8 :=
  r.renderHeader ++ r.body.render

/-- What the listener is told of the header. -/
def tellHeader {σ : Type} (L : Listener σ) (u : σ) : σ :=
  L.headersComplete r.header.told
    (r.fields.foldl (fun u f => f.tell L u) (L.data .url r.target (L.messageBegin u)))

/-- What the listener is told of the request. -/
def tell {σ : Type} (L : Listener σ) (u : σ) : σ :=
  L.messageComplete r.final.told (r.body.tell L r.header (r.tellHeader L u))

/-- The header and the lines of the body are short enough for the limit, when the counter may
have reached `m`. -/
def Short (m : ℕ) : Prop :=
  m + 2 * r.renderHeader.length ≤ httpMaxHeaderSize ∧ r.body.Short

instance (m : ℕ) : Decidable (r.Short m) :=
  inferInstanceAs (Decidable (_ ∧ _))

/-- Another request may follow. -/
def keepsAlive : Bool :=
  httpShouldKeepAlive r.final.told

theorem header_ordinary : r.header.Ordinary := by
  have hsame : SameMessage (Registers.line r.method) r.header := fields_same
  exact ⟨hsame.type, fun h => r.method_ne (hsame.method.symm.trans h), r.keeps_protocol,
    hsame.skipbody, hsame.trailing⟩

end Request

section Settle

variable {σ : Type} {L : Listener σ} {u : σ} {h : HeaderState} {i : ℕ} {r : Request} {body : Body}
  {requests : List Request}

/-- The framing of an ordinary request. -/
theorem framing_told (hq : q.Ordinary) :
    framing q.told =
      if q.flags.chunked then .chunks
      else if q.contentLength = ullongMax then .body 0
      else .body q.contentLength := by
  have heof : httpMessageNeedsEof q.told = false := if_pos hq.type
  have hskip : q.told.flags.skipbody = false := hq.skipbody
  unfold framing
  rw [if_neg (by rw [hskip]; simp), if_neg (fun h => Bool.false_ne_true h.1), heof]
  by_cases hmax : q.contentLength = ullongMax
  · rw [if_neg (not_not_intro (show q.told.contentLength = ullongMax from hmax)), if_pos hmax]
    rfl
  · rw [if_pos (show q.told.contentLength ≠ ullongMax from hmax), if_neg hmax]
    rfl

theorem setLength_self {n : ℕ} (hn : q.contentLength = n) : q.setLength n = q := by
  subst hn
  rfl

theorem metered_sized (hq : q.Ordinary) (hlength : q.contentLength ≤ ullongMax)
    {bytes : List UInt8} (hfits : (Body.sized bytes).Fits q) :
    Metered L (afterHeader L q h i u) 0 bytes
      (((Body.sized bytes).after q).placed ((Body.sized bytes).after q).next h i,
        L.messageComplete ((Body.sized bytes).after q).told (L.data .body bytes u)) 0 := by
  rw [Body.Fits, framing_told hq] at hfits
  split at hfits
  next => cases hfits
  next hchunked =>
    -- the header is the end of the message, with no length and with the length 0
    have hempty : bytes = [] → q.contentLength = 0 ∨ q.contentLength = ullongMax →
        Metered L (afterHeader L q h i u) 0 bytes
          (((Body.sized bytes).after q).placed ((Body.sized bytes).after q).next h i,
            L.messageComplete ((Body.sized bytes).after q).told (L.data .body bytes u)) 0 := by
      rintro rfl hend
      unfold afterHeader
      rw [if_neg hchunked, if_pos hend, Body.after, if_pos rfl, L.data_nil]
      exact .nil _ 0
    split at hfits
    next hmax =>
      exact hempty (List.eq_nil_of_length_eq_zero (Phase.body.inj hfits).symm) (Or.inr hmax)
    next hmax =>
      have hlen : q.contentLength = bytes.length := Phase.body.inj hfits
      by_cases hzero : q.contentLength = 0
      · exact hempty (List.eq_nil_of_length_eq_zero (hlen.symm.trans hzero)) (Or.inl hzero)
      · have hne : bytes ≠ [] := by
          rintro rfl
          exact hzero hlen
        have hbody := metered_body (L := L) (h := h) (i := i) (u := u) hq.type hne
          (lt_of_le_of_ne (hlen ▸ hlength) (hlen ▸ hmax))
        rw [setLength_self hlen] at hbody
        unfold afterHeader
        rw [if_neg hchunked, if_neg (not_or.mpr ⟨hzero, hmax⟩), Body.after, if_neg hne]
        exact hbody

/-- The header before chunks announces them. -/
theorem chunked_of_fits {chunks : List Chunk} {line : SizeLine} {trailer : List Field}
    (hq : q.Ordinary) (hfits : (Body.chunked chunks line trailer).Fits q) :
    q.flags.chunked = true := by
  have hframing := hfits.1
  rw [framing_told hq] at hframing
  by_contra hchunked
  rw [if_neg hchunked] at hframing
  split at hframing <;> cases hframing

/-- The body is told as it is, and the parser finds its end. -/
theorem metered_bodyOf (hq : q.Ordinary) (hlength : q.contentLength ≤ ullongMax)
    (hfits : body.Fits q) (hshort : body.Short) :
    ∃ s j, ∃ m ≤ body.carry, Metered L (afterHeader L q h i u) 0 body.render
      ((body.after q).placed (body.after q).next s j,
        L.messageComplete (body.after q).told (body.tell L q u)) m := by
  cases body with
  | sized bytes => exact ⟨h, i, 0, Nat.le_refl 0, metered_sized hq hlength hfits⟩
  | chunked chunks last trailer =>
      have hchunked := chunked_of_fits hq hfits
      obtain ⟨-, hlast, hread⟩ := hfits
      obtain ⟨hlines, hline, htrail⟩ := hshort
      have hsame : SameMessage (q.setLength 0).setTrailing
          ((Body.chunked chunks last trailer).after q) := fields_same
      have hchunks := metered_chunks (L := L) (h := h) (i := i) (u := u) hchunked hlast hlines hline
      obtain ⟨s, j, htrailer⟩ := settleAll_fields (L := L) (q := (q.setLength 0).setTrailing)
        (h := h) (i := i) (b := CR) (l := [LF]) (u := L.chunkHeader (q.setLength 0).setTrailing.told
          (chunks.foldl (fun u c => c.tell L q u) u)) hread (by decide)
      -- nothing sets the counter back after the trailer
      obtain ⟨m, hm, htail⟩ := metered_of_settles (m := 0)
        (htrailer.trans (settleAll_trailerEnd (hsame.type.trans hq.type) hsame.trailing))
        (by rw [Nat.zero_add]; exact htrail)
      rw [Nat.zero_add] at hm
      refine ⟨s, j, m, hm, ?_⟩
      unfold afterHeader
      rw [if_pos hchunked]
      simp only [Body.render]
      rw [List.append_assoc]
      exact hchunks.append htail

/-- The header of a request, up to its last byte. -/
theorem settleAll_header (hq : q.Requesting) (r : Request) :
    ∃ s j, settleAll L (q.placed .startReq h i, u)
        (requestLine r.method r.target ++ (r.fields.flatMap Field.render ++ [CR])) =
      some (r.header.placed .headersAlmostDone s j,
        r.fields.foldl (fun u f => f.tell L u) (L.data .url r.target (L.messageBegin u))) := by
  obtain ⟨j, hline⟩ := settleAll_requestLine (L := L) (h := h) (i := i) (u := u) hq r.method_ne
    r.target_ok
  obtain ⟨s, j', hfields⟩ := settleAll_fields (L := L) (q := Registers.line r.method) (h := h)
    (i := j) (u := L.data .url r.target (L.messageBegin u)) (b := CR) (l := [])
    r.fields_read (by decide)
  refine ⟨s, j', ?_⟩
  rw [settleAll_append hline]
  exact hfields.trans (settleAll_cons settleByte_emptyLine)

/-- The whole header, after which nothing is counted. -/
theorem metered_header {m : ℕ} (hq : q.Requesting) {r : Request}
    (hheader : m + 2 * r.renderHeader.length ≤ httpMaxHeaderSize) :
    ∃ s j, Metered L (q.placed .startReq h i, u) m r.renderHeader
      (afterHeader L r.header s j (r.tellHeader L u)) 0 := by
  obtain ⟨s, j, hlines⟩ := settleAll_header (L := L) (h := h) (i := i) (u := u) hq r
  have hrender : r.renderHeader =
      requestLine r.method r.target ++ (r.fields.flatMap Field.render ++ [CR]) ++ [LF] := by
    unfold Request.renderHeader
    rw [List.append_assoc, List.append_assoc, List.append_assoc]
    rfl
  have hresets : (r.header.placed .headersAlmostDone s j).resets = true := by
    simp [resets, r.header_ordinary.trailing]
  rw [hrender, List.length_append] at hheader
  rw [hrender]
  exact ⟨s, j, metered_reset hlines (settleByte_headerEnd r.header_ordinary) hresets hheader⟩

/-- **One request.**  The parser takes it whole and tells what it says. -/
theorem metered_request {m : ℕ} (hq : q.Requesting) {r : Request} (hshort : r.Short m) :
    ∃ s j, ∃ m' ≤ r.body.carry, Metered L (q.placed .startReq h i, u) m r.render
      (r.final.placed r.final.next s j, r.tell L u) m' := by
  obtain ⟨s, j, hheader⟩ := metered_header (L := L) (h := h) (i := i) (u := u) hq hshort.1
  obtain ⟨s', j', m', hm', hrest⟩ := metered_bodyOf (L := L) (h := s) (i := j)
    (u := r.tellHeader L u) r.header_ordinary (fields_length r.fields_read (Nat.le_refl _))
    r.framed hshort.2
  exact ⟨s', j', m', hm', hheader.append hrest⟩

theorem Body.after_same :
    (body.after q).type = q.type ∧ (body.after q).statusCode = q.statusCode := by
  cases body with
  | sized bytes =>
      rw [Body.after]
      split <;> exact ⟨rfl, rfl⟩
  | chunked chunks last trailer =>
      have hsame : SameMessage (q.setLength 0).setTrailing
          ((Body.chunked chunks last trailer).after q) := fields_same
      exact ⟨hsame.type, hsame.statusCode⟩

theorem Request.final_requesting (r : Request) : r.final.Requesting := by
  have hsame : SameMessage (Registers.line r.method) r.header := fields_same
  exact ⟨Body.after_same.1.trans hsame.type, Body.after_same.2.trans hsame.statusCode⟩

theorem Request.final_next (r : Request) :
    r.final.next = if r.keepsAlive then .startReq else .dead := rfl

/-- The requests are short enough one after the other, when the counter may have reached `m`. -/
def ShortFrom : ℕ → List Request → Prop
  | _, [] => True
  | m, r :: requests => r.Short m ∧ ShortFrom r.body.carry requests

instance ShortFrom.decidable : (m : ℕ) → (requests : List Request) →
    Decidable (ShortFrom m requests)
  | _, [] => inferInstanceAs (Decidable True)
  | _, r :: requests =>
      have := ShortFrom.decidable r.body.carry requests
      inferInstanceAs (Decidable (_ ∧ _))

/-- What the counter may have reached after the requests. -/
def carryFrom : ℕ → List Request → ℕ
  | m, [] => m
  | _, r :: requests => carryFrom r.body.carry requests

variable {m m' : ℕ} {last : Request}

theorem shortFrom_concat :
    ShortFrom m (requests ++ [last]) ↔
      ShortFrom m requests ∧ last.Short (carryFrom m requests) := by
  induction requests generalizing m with
  | nil => simp [ShortFrom, carryFrom]
  | cons r requests ih => simp only [List.cons_append, ShortFrom, carryFrom, ih, and_assoc]

theorem Request.Short.mono (h : r.Short m) (hle : m' ≤ m) : r.Short m' :=
  ⟨by have hheader := h.1; omega, h.2⟩

/-- Requests that keep the connection, one after the other. -/
theorem metered_kept (hq : q.Requesting) (hkeeps : ∀ r ∈ requests, r.keepsAlive = true)
    (hshort : ShortFrom m requests) (hle : m' ≤ m) :
    ∃ (q' : Registers) (s : HeaderState) (j : ℕ), q'.Requesting ∧ ∃ n ≤ carryFrom m requests,
      Metered L (q.placed .startReq h i, u) m' (requests.flatMap Request.render)
        (q'.placed .startReq s j, requests.foldl (fun u r => r.tell L u) u) n := by
  induction requests generalizing q u h i m m' with
  | nil => exact ⟨q, h, i, hq, m', hle, .nil _ m'⟩
  | cons r requests ih =>
      obtain ⟨hr, hkeeps⟩ := List.forall_mem_cons.mp hkeeps
      obtain ⟨hfirstShort, hrestShort⟩ := hshort
      obtain ⟨s, j, m₁, hm₁, hfirst⟩ :=
        metered_request (L := L) (h := h) (i := i) (u := u) hq (hfirstShort.mono hle)
      rw [r.final_next, if_pos hr] at hfirst
      obtain ⟨q', s', j', hq', n, hn, hrest⟩ :=
        ih (u := r.tell L u) (h := s) (i := j) r.final_requesting hkeeps hrestShort hm₁
      refine ⟨q', s', j', hq', n, hn, ?_⟩
      rw [List.flatMap_cons]
      exact hfirst.append hrest

/-- Requests one after the other; all but the last keep the connection. -/
theorem metered_requests (hq : q.Requesting) (hkeeps : ∀ r ∈ requests, r.keepsAlive = true)
    (hshort : ShortFrom m (requests ++ [last])) :
    ∃ s j, ∃ m' ≤ last.body.carry, Metered L (q.placed .startReq h i, u) m
      (requests.flatMap Request.render ++ last.render)
      (last.final.placed last.final.next s j,
        last.tell L (requests.foldl (fun u r => r.tell L u) u)) m' := by
  obtain ⟨hfirst, hlast⟩ := shortFrom_concat.mp hshort
  obtain ⟨q', s, j, hq', n, hn, hkept⟩ := metered_kept (L := L) (h := h) (i := i) (u := u) hq hkeeps
    hfirst (Nat.le_refl m)
  obtain ⟨s', j', m', hm', hend⟩ := metered_request (L := L) (h := s) (i := j)
    (u := requests.foldl (fun u r => r.tell L u) u) hq' (hlast.mono hn)
  exact ⟨s', j', m', hm', hkept.append hend⟩

end Settle

end Http2Asio.Http1
