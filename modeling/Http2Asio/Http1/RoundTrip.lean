import Http2Asio.Http1.Requests

/-!
# Round trips

What a peer writes is what the callbacks are told.  `executeAll_requests`: a new parser that
is fed a list of requests, in buffers that are cut anywhere, takes all of them and tells
just what they say.  `executeAll_closed`: after a request that ends the connection the parser
refuses anything but blank lines.  `executeAll_length`: a request with a length that is not a
number, or a number too large, is refused; `executeAll_chunkSize`: so is the size of a chunk;
`executeAll_target`: so is a target that `parse_url_char` does not take, and
`executeAll_fieldName`: a field with something between its name and the colon.

A `Note` is what a callback that writes everything down writes; `transcript` is the listener
that keeps them.
-/

namespace Http2Asio.Http1

open Feeding Registers Transition

/-! ## A listener that writes everything down -/

/-- One thing that a callback was told. -/
inductive Note
  | byte (k : DataCb) (b : UInt8)
  | messageBegin
  | headersComplete (v : ParserView)
  | chunkHeader (v : ParserView)
  | chunkComplete (v : ParserView)
  | messageComplete (v : ParserView)
  deriving DecidableEq

/-- The listener that writes everything down. -/
def transcript : Listener (List Note) where
  data k bytes u := u ++ bytes.map (.byte k)
  messageBegin u := u ++ [.messageBegin]
  headersComplete v u := u ++ [.headersComplete v]
  chunkHeader v u := u ++ [.chunkHeader v]
  chunkComplete v u := u ++ [.chunkComplete v]
  messageComplete v u := u ++ [.messageComplete v]
  data_nil k u := List.append_nil u
  data_append k a b u := by rw [List.map_append, List.append_assoc]

/-- The callbacks of `L`. -/
def Listener.settings {σ : Type} (L : Listener σ) : HttpParserSettings σ where
  onData k := some fun _ bytes u => ⟨0, false, L.data k bytes u⟩
  onNotify k := some fun v u => ⟨0, false, L.notify k v u⟩
  onHeadersComplete := some fun v u => ⟨0, false, L.headersComplete v u⟩

theorem Listener.settings_quiet {σ : Type} (L : Listener σ) : Quiet L.settings L where
  data k f hf v bytes u := by
    cases hf
    rfl
  data_absent k hk := by cases hk
  notify k f hf v u := by
    cases hf
    rfl
  notify_absent k hk := by cases hk
  headersComplete f hf v u := by
    cases hf
    rfl
  headersComplete_absent h := by cases h

section RoundTrip

variable {σ : Type} {S : HttpParserSettings σ} {L : Listener σ} {u : σ}
  {datas : List (List UInt8)} {requests : List Request} {last : Request}

theorem httpParserInit_requesting : (httpParserInit .request).Requesting :=
  ⟨rfl, rfl⟩

theorem httpParserInit_placed :
    (httpParserInit .request).placed .startReq .general 0 =
      (httpParserInit .request).toRegisters := rfl

/-- **Requests are told as they were written.**  However the requests are cut into buffers,
a new parser takes all of them, and its callbacks are told each of them: the target, the
fields, the body and the trailer, with what the parser has found out from them.  Each header
may have up to half of the limit, less the trailer before it; bodies may be of any length. -/
theorem executeAll_requests (hS : Quiet S L) (hdatas : Buffers datas)
    (hbytes : datas.flatten = requests.flatMap Request.render ++ last.render)
    (hkeeps : ∀ r ∈ requests, r.keepsAlive = true)
    (hshort : ShortFrom 0 (requests ++ [last])) :
    ∃ parser, executeAll S (httpParserInit .request) u datas =
        some ⟨datas.flatten.length, parser,
          last.tell L (requests.foldl (fun u r => r.tell L u) u)⟩ ∧
      parser.httpErrno = .ok ∧
        parser.state = if last.keepsAlive then .startReq else .dead := by
  obtain ⟨s, j, m, -, hmetered⟩ := metered_requests (L := L) (h := .general) (i := 0) (u := u)
    httpParserInit_requesting hkeeps hshort
  rw [httpParserInit_placed, ← hbytes] at hmetered
  obtain ⟨n, hr⟩ := executeAll_metered hS (httpParserInit_sound .request) ⟨rfl, rfl⟩ hdatas
    (Nat.le_refl 0) hmetered
  exact ⟨_, hr, rfl, last.final_next⟩

end RoundTrip

/-- A request with a length, one in chunks with a trailer, and one that ends the connection, in
four buffers. -/
def threeRequests : List (List UInt8) :=
  [ascii "POST /a HTTP/1.1\r\nContent-Len", ascii "gth: 3\r\n\r\nab",
    ascii "cPOST /b HTTP/1.1\r\nTransfer-Encoding: chunked\r\n\r\n2\r",
    ascii "\nhi\r\n0\r\nX: y\r\n\r\nGET /c HTTP/1.1\r\nConnection: close\r\n\r\n"]

theorem executeAll_requests_three :
    ∃ (requests : List Request) (last : Request),
      requests.map Request.target = [ascii "/a", ascii "/b"] ∧ last.target = ascii "/c" ∧
      ∃ parser, executeAll transcript.settings (httpParserInit .request) [] threeRequests =
          some ⟨146, parser,
            last.tell transcript (requests.foldl (fun u r => r.tell transcript u) [])⟩ ∧
        parser.httpErrno = .ok ∧ parser.state = .dead := by
  have hlength : threeRequests.flatten.length = 146 := by decide +kernel
  have hbuffers : Buffers threeRequests := by decide +kernel
  refine ⟨[
    { method := .post
      target := ascii "/a"
      fields := [{ name := ascii "Content-Length", value := ascii "3" }]
      body := .sized (ascii "abc")
      method_ne := by decide
      target_ok := by decide +kernel
      fields_read := List.forall_mem_singleton.mpr
        ⟨fun _ _ => ⟨⟨_, rfl, rfl⟩, by decide +kernel, by decide +kernel⟩,
          fun h => absurd h (by decide +kernel)⟩
      keeps_protocol := rfl
      framed := by
        rw [Body.Fits]
        decide +kernel },
    { method := .post
      target := ascii "/b"
      fields := [{ name := ascii "Transfer-Encoding", value := ascii "chunked" }]
      body := .chunked [{ line := { size := ascii "2" }, bytes := ascii "hi" }]
        { size := ascii "0" } [{ name := ascii "X", value := ascii "y" }]
      method_ne := by decide
      target_ok := by decide +kernel
      fields_read := List.forall_mem_singleton.mpr
        ⟨fun h => absurd h (by decide +kernel), fun h => absurd h (by decide +kernel)⟩
      keeps_protocol := rfl
      framed := ⟨by decide +kernel, by decide +kernel, List.forall_mem_singleton.mpr
        ⟨fun h => absurd h (by decide +kernel), fun h => absurd h (by decide +kernel)⟩⟩ }],
    { method := .get
      target := ascii "/c"
      fields := [{ name := ascii "Connection", value := ascii "close" }]
      body := .sized []
      method_ne := by decide
      target_ok := by decide +kernel
      fields_read := List.forall_mem_singleton.mpr
        ⟨fun h => absurd h (by decide +kernel), fun _ => by decide +kernel⟩
      keeps_protocol := rfl
      framed := by
        rw [Body.Fits]
        decide +kernel }, rfl, rfl, ?_⟩
  rw [← hlength]
  exact executeAll_requests transcript.settings_quiet hbuffers (by decide +kernel)
    (by decide +kernel) (by decide +kernel)

/-! ## After the last request -/

section Closed

variable {σ : Type} {S : HttpParserSettings σ} {L : Listener σ} {u : σ}
  {datas : List (List UInt8)} {requests : List Request} {last : Request}

variable {q : Registers} {h : HeaderState} {i : ℕ} {b : UInt8} {blank more : List UInt8}

/-- A dead parser passes blank lines. -/
theorem settleAll_dead (hblank : ∀ b ∈ blank, b = CR ∨ b = LF) :
    settleAll L (q.placed .dead h i, u) blank = some (q.placed .dead h i, u) := by
  induction blank with
  | nil => rfl
  | cons b blank ih =>
      obtain ⟨hb, hblank⟩ := List.forall_mem_cons.mp hblank
      have hbyte : settleByte L (q.placed .dead h i, u) b =
          some (.goes (q.placed .dead h i, u)) := by
        rcases hb with rfl | rfl <;> rfl
      rw [settleAll_cons hbyte, ih hblank]

theorem settleByte_dead (hcr : b ≠ CR) (hlf : b ≠ LF) :
    settleByte L (q.placed .dead h i, u) b =
      some (.stops ((q.placed .dead h i).setErrno .closedConnection, u) false) := by
  change Reaction.settle L b (.count _ 1 (dead (q.placed .dead h i) b)) 0 0 none u = _
  unfold dead
  rw [if_neg (not_or.mpr ⟨hcr, hlf⟩)]
  rfl

/-- **A closed connection stays closed.**  After a request that does not keep the connection a
parser takes blank lines and nothing else: the first byte that is not one is refused, and no
byte before it. -/
theorem executeAll_closed (hS : Quiet S L) (hdatas : Buffers datas)
    (hbytes : datas.flatten =
      requests.flatMap Request.render ++ last.render ++ blank ++ b :: more)
    (hkeeps : ∀ r ∈ requests, r.keepsAlive = true) (hcloses : last.keepsAlive = false)
    (hblank : ∀ b ∈ blank, b = CR ∨ b = LF) (hcr : b ≠ CR) (hlf : b ≠ LF)
    (hshort : ShortFrom 0 (requests ++ [last]))
    (hfits : last.body.carry + 2 * (blank.length + 1) ≤ httpMaxHeaderSize) :
    ∃ r, executeAll S (httpParserInit .request) u datas = some r ∧
      r.parser.httpErrno = .closedConnection ∧
        r.count = (requests.flatMap Request.render ++ last.render ++ blank).length := by
  obtain ⟨s, j, m, hm, hmetered⟩ := metered_requests (L := L) (h := .general) (i := 0) (u := u)
    httpParserInit_requesting hkeeps hshort
  rw [httpParserInit_placed, last.final_next, hcloses] at hmetered
  -- a dead parser counts the blank lines too
  obtain ⟨m₁, hm₁, hlines⟩ := metered_of_settles (m := m)
    (settleAll_dead (L := L) (q := last.final) (h := s) (i := j)
      (u := last.tell L (requests.foldl (fun u r => r.tell L u) u)) hblank) (by omega)
  have hall := hmetered.append hlines
  have hbyte := settleByte_dead (L := L) (q := last.final) (h := s) (i := j)
    (u := last.tell L (requests.foldl (fun u r => r.tell L u) u)) hcr hlf
  have hrate := perByte_le (q := last.final.placed .dead s j)
  have hbounded := hall.bounded (.stops (l := more) hbyte (by dsimp only; omega))
  have hrefuses : Refuses L .closedConnection (last.final.placed .dead s j,
      last.tell L (requests.foldl (fun u r => r.tell L u) u)) (b :: more) := .here hbyte rfl
  have hrefuses := Refuses.after hall.settles hrefuses
  rw [← hbytes] at hbounded hrefuses
  have herr : HttpErrno.closedConnection ≠ .ok := by decide
  obtain ⟨r, hr, herrno, hcount⟩ := executeAll_stops hS herr (httpParserInit_sound .request)
    ⟨rfl, rfl⟩ hdatas (Nat.le_refl 0) hbounded hrefuses
  refine ⟨r, hr, herrno, ?_⟩
  have hstep : (plainParser S).step (last.final.placed .dead s j, _) b = .stops _ false :=
    plainStep_settleByte hS hbyte
  rw [hcount, hbytes, Feeder.feed_append_goes (metered_feed hS hall),
    Feeder.feed_cons_stops hstep]
  rfl

end Closed

/-- A request that ends the connection. -/
theorem exists_closing : ∃ last : Request,
    last.render = ascii "GET /c HTTP/1.1\r\nConnection: close\r\n\r\n" ∧
      last.keepsAlive = false ∧ last.Short 0 ∧ last.body.carry = 0 := by
  refine ⟨{
    method := .get
    target := ascii "/c"
    fields := [{ name := ascii "Connection", value := ascii "close" }]
    body := .sized []
    method_ne := by decide
    target_ok := by decide +kernel
    fields_read := List.forall_mem_singleton.mpr
      ⟨fun h => absurd h (by decide +kernel), fun _ => by decide +kernel⟩
    keeps_protocol := rfl
    framed := by
      rw [Body.Fits]
      decide +kernel }, ?_, ?_, ?_, rfl⟩ <;> decide +kernel

/-- A request after it, and a blank line between. -/
theorem executeAll_closed_get :
    ∃ r, executeAll transcript.settings (httpParserInit .request) []
        [ascii "GET /c HTTP/1.1\r\nConnection: clo", ascii "se\r\n\r\n\r\nGET / HTTP/1.1\r\n"] =
          some r ∧ r.parser.httpErrno = .closedConnection ∧ r.count = 40 := by
  obtain ⟨last, hrender, hcloses, hshort, hcarry⟩ := exists_closing
  have hbuffers : Buffers [ascii "GET /c HTTP/1.1\r\nConnection: clo",
      ascii "se\r\n\r\n\r\nGET / HTTP/1.1\r\n"] := by
    decide +kernel
  have hbytes : [ascii "GET /c HTTP/1.1\r\nConnection: clo",
      ascii "se\r\n\r\n\r\nGET / HTTP/1.1\r\n"].flatten =
        ([] : List Request).flatMap Request.render ++ last.render ++ ascii "\r\n" ++
          'G'.toUInt8 :: ascii "ET / HTTP/1.1\r\n" := by
    rw [hrender]
    decide +kernel
  have hlength : (([] : List Request).flatMap Request.render ++ last.render ++
      ascii "\r\n").length = 40 := by
    rw [hrender]
    decide +kernel
  rw [← hlength]
  exact executeAll_closed transcript.settings_quiet hbuffers hbytes (List.forall_mem_nil _) hcloses
    (by decide +kernel) (by decide) (by decide) ⟨hshort, True.intro⟩
    (by rw [hcarry]; decide +kernel)

/-! ## What is refused -/

section Refused

variable {σ : Type} {S : HttpParserSettings σ} {L : Listener σ} {u : σ} {t : Registers × σ}
  {datas : List (List UInt8)} {l refused more : List UInt8} {m : ℕ} {err : HttpErrno}

/-- What is refused after a run that is metered is refused wherever the input is cut. -/
theorem executeAll_metered_refuses (hS : Quiet S L) (hdatas : Buffers datas)
    (hbytes : datas.flatten = l ++ refused ++ more) (herr : err ≠ .ok)
    (hmetered : Metered L ((httpParserInit .request).placed .startReq .general 0, u) 0 l t m)
    (hrefuses : Refuses L err t refused)
    (hfits : m + 2 * refused.length ≤ httpMaxHeaderSize) :
    ∃ r, executeAll S (httpParserInit .request) u datas = some r ∧ r.parser.httpErrno = err := by
  rw [httpParserInit_placed] at hmetered
  have hbounded : Bounded L ((httpParserInit .request).toRegisters, u) 0 datas.flatten := by
    rw [hbytes, List.append_assoc]
    exact hmetered.bounded (hrefuses.bounded hfits)
  have hall : Refuses L err ((httpParserInit .request).toRegisters, u) datas.flatten := by
    rw [hbytes]
    exact (Refuses.after hmetered.settles hrefuses).append
  obtain ⟨r, hr, herrno, -⟩ := executeAll_stops hS herr (httpParserInit_sound .request)
    ⟨rfl, rfl⟩ hdatas (Nat.le_refl 0) hbounded hall
  exact ⟨r, hr, herrno⟩

end Refused

/-! ## Targets -/

section Target

variable {σ : Type} {S : HttpParserSettings σ} {L : Listener σ} {u : σ}
  {datas : List (List UInt8)} {requests : List Request} {b : UInt8} {more : List UInt8}

variable {method : HttpMethod} {target : List UInt8}

/-- **A target is what `parse_url_char` takes.**  Any other text up to a blank is refused as a
target, whatever was before it and whatever follows. -/
theorem executeAll_target (hS : Quiet S L) (hdatas : Buffers datas)
    (hbytes : datas.flatten = requests.flatMap Request.render ++
      (methodString method ++ ascii " " ++ (target ++ [b])) ++ more)
    (hkeeps : ∀ r ∈ requests, r.keepsAlive = true) (hmethod : method ≠ .connect)
    (hne : target ≠ []) (hblank : ∀ b ∈ target, ¬ (b = ' '.toUInt8 ∨ b = CR ∨ b = LF))
    (hbad : ¬ IsTarget target) (hb : b = ' '.toUInt8 ∨ b = CR ∨ b = LF)
    (hshort : ShortFrom 0 requests)
    (hfits : carryFrom 0 requests +
        2 * (methodString method ++ ascii " " ++ (target ++ [b])).length ≤ httpMaxHeaderSize) :
    ∃ r, executeAll S (httpParserInit .request) u datas = some r ∧
      r.parser.httpErrno = .invalidUrl := by
  obtain ⟨q', s, j, hq', n, hn, hkept⟩ := metered_kept (L := L) (h := .general) (i := 0) (u := u)
    httpParserInit_requesting hkeeps hshort (Nat.le_refl 0)
  have hline := settleAll_method (L := L) (q := q') (h := s) (i := j)
    (u := requests.foldl (fun u r => r.tell L u) u) method
  have hrefuses := Refuses.after hline (refuses_target (L := L) (q := q'.begun method) (h := s)
    (i := (methodString method).length + 1)
    (u := L.messageBegin (requests.foldl (fun u r => r.tell L u) u)) hmethod hne hblank hbad hb)
  exact executeAll_metered_refuses hS hdatas hbytes (by decide) hkept hrefuses (by omega)

end Target

/-- A target with a control character. -/
theorem executeAll_target_control :
    ∃ r, executeAll transcript.settings (httpParserInit .request) []
        [ascii "GET /a", 1 :: ascii "b HTT", ascii "P/1.1\r\n\r\n"] = some r ∧
      r.parser.httpErrno = .invalidUrl := by
  have hbuffers : Buffers [ascii "GET /a", 1 :: ascii "b HTT", ascii "P/1.1\r\n\r\n"] := by
    decide +kernel
  have hbytes : [ascii "GET /a", 1 :: ascii "b HTT", ascii "P/1.1\r\n\r\n"].flatten =
      ([] : List Request).flatMap Request.render ++
        (methodString .get ++ ascii " " ++ (ascii "/a" ++ 1 :: ascii "b" ++ [' '.toUInt8])) ++
          ascii "HTTP/1.1\r\n\r\n" := by
    decide +kernel
  exact executeAll_target transcript.settings_quiet hbuffers hbytes (List.forall_mem_nil _)
    (by decide) (by decide +kernel) (by decide +kernel) (by decide +kernel) (Or.inl rfl)
    True.intro (by decide +kernel)

/-! ## Names of fields -/

section Name

variable {σ : Type} {S : HttpParserSettings σ} {L : Listener σ} {u : σ}
  {datas : List (List UInt8)} {requests : List Request} {b : UInt8} {more : List UInt8}

variable {method : HttpMethod} {target name : List UInt8} {fields : List Field}

/-- **A name ends at its colon.**  A header with a name after which something other than the
colon stands is refused, whatever was before it and whatever follows. -/
theorem executeAll_fieldName (hS : Quiet S L) (hdatas : Buffers datas)
    (hbytes : datas.flatten = requests.flatMap Request.render ++
      (requestLine method target ++ (fields.flatMap Field.render ++ (name ++ [b]))) ++ more)
    (hkeeps : ∀ r ∈ requests, r.keepsAlive = true) (hmethod : method ≠ .connect)
    (htarget : IsTarget target) (hread : ∀ f ∈ fields, f.IsRead)
    (hname : IsToken name) (hne : name ≠ []) (hb : token b = 0) (hcolon : b ≠ ':'.toUInt8)
    (hshort : ShortFrom 0 requests)
    (hfits : carryFrom 0 requests + 2 * (requestLine method target ++
        (fields.flatMap Field.render ++ (name ++ [b]))).length ≤ httpMaxHeaderSize) :
    ∃ r, executeAll S (httpParserInit .request) u datas = some r ∧
      r.parser.httpErrno = .invalidHeaderToken := by
  obtain ⟨q', s, j, hq', n, hn, hkept⟩ := metered_kept (L := L) (h := .general) (i := 0) (u := u)
    httpParserInit_requesting hkeeps hshort (Nat.le_refl 0)
  obtain ⟨j', hline⟩ := settleAll_requestLine (L := L) (h := s) (i := j)
    (u := requests.foldl (fun u r => r.tell L u) u) hq' hmethod htarget
  have hrefuses := Refuses.after hline (refuses_fields_name (L := L) (q := Registers.line method)
    (h := s) (i := j')
    (u := L.data .url target (L.messageBegin (requests.foldl (fun u r => r.tell L u) u)))
    hread hname hne hb hcolon)
  exact executeAll_metered_refuses hS hdatas hbytes (by decide) hkept hrefuses (by omega)

end Name

/-- A space before the colon. -/
theorem executeAll_fieldName_space :
    ∃ r, executeAll transcript.settings (httpParserInit .request) []
        [ascii "GET / HTTP/1.1\r\nContent-Le", ascii "ngth : 3\r\n\r\nabc"] = some r ∧
      r.parser.httpErrno = .invalidHeaderToken := by
  have hbuffers : Buffers [ascii "GET / HTTP/1.1\r\nContent-Le",
      ascii "ngth : 3\r\n\r\nabc"] := by
    decide +kernel
  have hbytes : [ascii "GET / HTTP/1.1\r\nContent-Le", ascii "ngth : 3\r\n\r\nabc"].flatten =
      ([] : List Request).flatMap Request.render ++
        (requestLine .get (ascii "/") ++ (([] : List Field).flatMap Field.render ++
          (ascii "Content-Length" ++ [' '.toUInt8]))) ++ ascii ": 3\r\n\r\nabc" := by
    decide +kernel
  exact executeAll_fieldName transcript.settings_quiet hbuffers hbytes (List.forall_mem_nil _)
    (by decide) (by decide +kernel) (List.forall_mem_nil _) (by decide +kernel)
    (by decide +kernel) (by decide) (by decide) True.intro (by decide +kernel)

/-! ## Lengths -/

section Length

variable {σ : Type} {S : HttpParserSettings σ} {L : Listener σ} {u : σ}
  {datas : List (List UInt8)} {requests : List Request} {more : List UInt8}

variable {method : HttpMethod} {target : List UInt8} {fields : List Field} {f : Field}

/-- **A length is a number.**  A header with a length that is not a decimal number up to the
limit of the parser is refused, whatever was before it and whatever follows. -/
theorem executeAll_length (hS : Quiet S L) (hdatas : Buffers datas)
    (hbytes : datas.flatten = requests.flatMap Request.render ++
      (requestLine method target ++ fields.flatMap Field.render ++ f.render) ++ more)
    (hkeeps : ∀ r ∈ requests, r.keepsAlive = true) (hmethod : method ≠ .connect)
    (htarget : IsTarget target) (hread : ∀ f ∈ fields, f.IsRead)
    (hname : fieldMeaning f.name = .contentLength) (hne : f.value ≠ [])
    (hbad : ¬ ReadsLength f.value) (hshort : ShortFrom 0 requests)
    (hfits : carryFrom 0 requests +
        2 * (requestLine method target ++ fields.flatMap Field.render ++ f.render).length ≤
      httpMaxHeaderSize) :
    ∃ r, executeAll S (httpParserInit .request) u datas = some r ∧
      r.parser.httpErrno = .invalidContentLength := by
  obtain ⟨q', s, j, hq', n, hn, hkept⟩ := metered_kept (L := L) (h := .general) (i := 0) (u := u)
    httpParserInit_requesting hkeeps hshort (Nat.le_refl 0)
  obtain ⟨j', hline⟩ := settleAll_requestLine (L := L) (h := s) (i := j)
    (u := requests.foldl (fun u r => r.tell L u) u) hq' hmethod htarget
  have hheader := Refuses.after hline (refuses_fields (L := L) (q := Registers.line method) (h := s)
    (i := j') (u := L.data .url target (L.messageBegin (requests.foldl (fun u r => r.tell L u) u)))
    hread hname hne hbad)
  rw [← List.append_assoc] at hheader
  exact executeAll_metered_refuses hS hdatas hbytes (by decide) hkept hheader (by omega)

end Length

/-- A length with a sign. -/
theorem executeAll_length_sign :
    ∃ r, executeAll transcript.settings (httpParserInit .request) []
        [ascii "GET / HTTP/1.1\r\nHost: h\r\nContent-Le", ascii "ngth: +3\r\n\r\nabc"] =
          some r ∧ r.parser.httpErrno = .invalidContentLength := by
  have hbuffers : Buffers [ascii "GET / HTTP/1.1\r\nHost: h\r\nContent-Le",
      ascii "ngth: +3\r\n\r\nabc"] := by
    decide +kernel
  obtain ⟨host, hhost, hread⟩ : ∃ f : Field, f.render = ascii "Host: h\r\n" ∧ f.IsRead := by
    refine ⟨{ name := ascii "Host", value := ascii "h" }, by decide +kernel, ?_, ?_⟩
    · exact fun h => absurd h (by decide +kernel)
    · exact fun h => absurd h (by decide +kernel)
  obtain ⟨f, hrender, hname, hvalue⟩ : ∃ f : Field, f.render = ascii "Content-Length: +3\r\n" ∧
      fieldMeaning f.name = .contentLength ∧ f.value = ascii "+3" :=
    ⟨{ name := ascii "Content-Length", value := ascii "+3" }, by decide +kernel,
      by decide +kernel, rfl⟩
  have hheader : requestLine .get (ascii "/") ++ [host].flatMap Field.render ++ f.render =
      ascii "GET / HTTP/1.1\r\nHost: h\r\nContent-Length: +3\r\n" := by
    rw [List.flatMap_singleton, hhost, hrender]
    decide +kernel
  have hbytes : [ascii "GET / HTTP/1.1\r\nHost: h\r\nContent-Le",
      ascii "ngth: +3\r\n\r\nabc"].flatten = ([] : List Request).flatMap Request.render ++
        (requestLine .get (ascii "/") ++ [host].flatMap Field.render ++ f.render) ++
          ascii "\r\nabc" := by
    rw [hheader]
    decide +kernel
  have hne : f.value ≠ [] := by
    rw [hvalue]
    decide +kernel
  have hbad : ¬ ReadsLength f.value := by
    intro hreads
    have hnumeral := hreads.numeral
    rw [hvalue] at hnumeral
    exact absurd hnumeral (by decide +kernel)
  have hfits : carryFrom 0 [] + 2 * (requestLine .get (ascii "/") ++
      [host].flatMap Field.render ++ f.render).length ≤ httpMaxHeaderSize := by
    rw [hheader]
    decide +kernel
  exact executeAll_length transcript.settings_quiet hbuffers hbytes (List.forall_mem_nil _)
    (by decide) (by decide +kernel) (List.forall_mem_singleton.mpr hread) hname hne hbad True.intro
    hfits

/-! ## Sizes of chunks -/

section Size

variable {σ : Type} {S : HttpParserSettings σ} {L : Listener σ} {u : σ}
  {datas : List (List UInt8)} {requests : List Request} {last : Request} {more : List UInt8}

variable {chunks : List Chunk} {line : SizeLine} {trailer : List Field} {size : List UInt8}

/-- **The size of a chunk is a number.**  Where a chunk may begin, a size that is not a
hexadecimal number up to the limit of the parser is refused, whatever was before it and
whatever follows. -/
theorem executeAll_chunkSize (hS : Quiet S L) (hdatas : Buffers datas)
    (hbytes : datas.flatten = requests.flatMap Request.render ++
      (last.renderHeader ++ chunks.flatMap Chunk.render) ++ size ++ more)
    (hkeeps : ∀ r ∈ requests, r.keepsAlive = true)
    (hbody : last.body = .chunked chunks line trailer)
    (hsize : IsSize size) (hne : size ≠ []) (hbad : ¬ (IsHex size ∧ sizeValue size ≤ sizeLimit))
    (hshort : ShortFrom 0 (requests ++ [last])) (hfits : 2 * size.length ≤ httpMaxHeaderSize) :
    ∃ r, executeAll S (httpParserInit .request) u datas = some r ∧
      HttpErrno.ofSize r.parser.httpErrno := by
  obtain ⟨hfirst, hlast⟩ := shortFrom_concat.mp hshort
  obtain ⟨q', s, j, hq', n, hn, hkept⟩ := metered_kept (L := L) (h := .general) (i := 0) (u := u)
    httpParserInit_requesting hkeeps hfirst (Nat.le_refl 0)
  obtain ⟨s', j', hheader⟩ := metered_header (L := L) (h := s) (i := j)
    (u := requests.foldl (fun u r => r.tell L u) u) hq' (hlast.mono hn).1
  have hframed := last.framed
  have hlines := hlast.2
  rw [hbody] at hframed hlines
  have hchunked : last.header.flags.chunked = true :=
    chunked_of_fits last.header_ordinary hframed
  obtain ⟨k, hchunks⟩ := metered_chunkList (L := L) (h := s') (i := j')
    (u := last.tellHeader L (requests.foldl (fun u r => r.tell L u) u)) hchunked hlines.1
  unfold afterHeader at hheader
  rw [if_pos hchunked] at hheader
  have hall := hkept.append (hheader.append hchunks)
  obtain ⟨err, herr, hsized⟩ := refuses_size (L := L) (q := last.header.setLength k) (h := s')
    (i := j') (u := chunks.foldl (fun u c => c.tell L last.header u)
      (last.tellHeader L (requests.foldl (fun u r => r.tell L u) u))) hchunked hsize hne hbad
  have hstops : err ≠ .ok := by
    rcases herr with rfl | rfl <;> decide
  obtain ⟨r, hr, herrno⟩ :=
    executeAll_metered_refuses hS hdatas hbytes hstops hall hsized (by omega)
  exact ⟨r, hr, herrno ▸ herr⟩

end Size

/-- A size that is 3 in 64 bits. -/
theorem executeAll_chunkSize_wraps :
    ∃ r, executeAll transcript.settings (httpParserInit .request) []
        [ascii "POST /b HTTP/1.1\r\nTransfer-Encoding: chunked\r\n\r\n2\r",
          ascii "\nhi\r\n100000000", ascii "00000003\r\nabc\r\n"] = some r ∧
      HttpErrno.ofSize r.parser.httpErrno := by
  have hbuffers : Buffers [ascii "POST /b HTTP/1.1\r\nTransfer-Encoding: chunked\r\n\r\n2\r",
      ascii "\nhi\r\n100000000", ascii "00000003\r\nabc\r\n"] := by
    decide +kernel
  obtain ⟨last, chunks, line, hbody, hrender, hshort⟩ :
      ∃ (last : Request) (chunks : List Chunk) (line : SizeLine),
        last.body = .chunked chunks line [] ∧
        last.renderHeader ++ chunks.flatMap Chunk.render =
          ascii "POST /b HTTP/1.1\r\nTransfer-Encoding: chunked\r\n\r\n2\r\nhi\r\n" ∧
        last.Short 0 := by
    refine ⟨{
      method := .post
      target := ascii "/b"
      fields := [{ name := ascii "Transfer-Encoding", value := ascii "chunked" }]
      body := .chunked [{ line := { size := ascii "2" }, bytes := ascii "hi" }]
        { size := ascii "0" } []
      method_ne := by decide
      target_ok := by decide +kernel
      fields_read := List.forall_mem_singleton.mpr
        ⟨fun h => absurd h (by decide +kernel), fun h => absurd h (by decide +kernel)⟩
      keeps_protocol := rfl
      framed := ⟨by decide +kernel, by decide +kernel, List.forall_mem_nil _⟩ }, _, _, rfl, ?_, ?_⟩
    all_goals decide +kernel
  have hbytes : [ascii "POST /b HTTP/1.1\r\nTransfer-Encoding: chunked\r\n\r\n2\r",
      ascii "\nhi\r\n100000000", ascii "00000003\r\nabc\r\n"].flatten =
        ([] : List Request).flatMap Request.render ++
          (last.renderHeader ++ chunks.flatMap Chunk.render) ++ ascii "10000000000000003" ++
            ascii "\r\nabc\r\n" := by
    rw [hrender]
    decide +kernel
  have hbad : ¬ (IsHex (ascii "10000000000000003") ∧
      sizeValue (ascii "10000000000000003") ≤ sizeLimit) := by
    decide +kernel
  exact executeAll_chunkSize transcript.settings_quiet hbuffers hbytes (List.forall_mem_nil _) hbody
    (by decide +kernel) (by decide +kernel) hbad ⟨hshort, True.intro⟩ (by decide +kernel)

end Http2Asio.Http1
