import Http2Asio.Model.HttpParser
import Mathlib.Data.Int.Notation
import Mathlib.Logic.Function.Basic

/-!
# `http_parser_execute`

The main loop of `http_parser.cpp`.  What the `switch` does for the byte at `p` is a
`Reaction`: the tree of the macros that run on the way, with the registers as they stand
at each of them, so `p_state` and `parser->state` need no telling apart.  `REEXECUTE` is
the reaction of the next state to the same byte.  `Reaction.run` gives the macros their
meaning in terms of `p`, the marks and the callbacks, `mainLoop` is the `for` loop.

The loops inside `s_header_field`, `s_header_value`, `s_body_identity`, `s_chunk_data`
and `s_body_identity_eof` move `p` themselves.  They see the rest of the buffer, the
other states see one byte.

A callback may keep a state of its own, pause the parser and return any value; that it
writes to the parser otherwise is not modelled.
-/

namespace Http2Asio.Http1

/-- What a macro, or a group of them, does at `p`. -/
inductive Reaction
  /-- `break`, and `p++` of the `for` loop. -/
  | next (q : Registers)
  /-- `p == data + len` after an inner loop: `--p`, `break`, and `p++` again. -/
  | endOfBuffer (q : Registers)
  /-- `goto error` with the error already set. -/
  | fail (q : Registers)
  /-- `RETURN((p - data) + 1)`. -/
  | exit (q : Registers)
  /-- A failed assertion. -/
  | abort
  /-- `COUNT_HEADER_SIZE (n)`. -/
  | count (q : Registers) (n : ℕ) (rest : Reaction)
  /-- `parser->nread = 0`. -/
  | resetCount (rest : Reaction)
  /-- `assert(parser->nread == n)`. -/
  | assertCount (n : ℕ) (rest : Reaction)
  /-- `MARK`. -/
  | mark (k : DataCb) (rest : Reaction)
  /-- `p += n`. -/
  | move (n : ℕ) (rest : Reaction)
  /-- `CALLBACK_DATA_` with the bytes from the mark to `p + extra`.  If the callback
  stops the parser, the byte at `p` is consumed or not. -/
  | data (k : DataCb) (extra : ℕ) (advance : Bool) (q : Registers) (rest : Reaction)
  /-- `CALLBACK_NOTIFY` and `CALLBACK_NOTIFY_NOADVANCE`. -/
  | notify (k : NotifyCb) (advance : Bool) (q : Registers) (rest : Reaction)
  /-- The call of `on_headers_complete`, and what follows the answers 0 and 1. -/
  | headersComplete (q : Registers) (rest skipping : Reaction)

namespace Registers

/-- `SET_ERRNO` and `goto error`. -/
def error (q : Registers) (e : HttpErrno) : Reaction :=
  .fail (q.setErrno e)

/-- `start_state`. -/
def startState (q : Registers) : State :=
  if q.type = .request then .startReq else .startRes

/-- `NEW_MESSAGE`. -/
def newMessage (q : Registers) : State :=
  if httpShouldKeepAlive q.view then q.startState else .dead

def setSkipbody (q : Registers) : Registers :=
  { q with flags := { q.flags with skipbody := true } }

/-- `UPDATE_STATE(NEW_MESSAGE()); CALLBACK_NOTIFY(message_complete)`. -/
def completeMessage (q : Registers) (rest : Registers → Reaction) : Reaction :=
  let q := q.updateState q.newMessage
  .notify .messageComplete true q (rest q)

/-- `assert(parser->flags & F_CHUNKED)`. -/
def assertChunked (q : Registers) (rest : Reaction) : Reaction :=
  if q.flags.chunked then rest else .abort

end Registers

/-! ## Shapes that several states share -/

/-- `STRICT_CHECK(ch != expected)`, then another state. -/
def strictCheck (expected : UInt8) (target : State) (q : Registers) (ch : UInt8) : Reaction :=
  if ch ≠ expected then q.error .strict else .next (q.updateState target)

/-- A number of at most three digits gets one more; the field has 16 bits. -/
def appendDigit (n : ℕ) (ch : UInt8) : ℕ :=
  (n * 10 + digit ch) % 0x10000

/-- The first digit of a major version, at least `low`. -/
def firstHttpMajor (low : UInt8) (target : State) (q : Registers) (ch : UInt8) : Reaction :=
  if ch < low ∨ '9'.toUInt8 < ch then q.error .invalidVersion
  else .next { q with httpMajor := digit ch, state := target }

/-- Major HTTP version or dot. -/
def httpMajorOrDot (target : State) (q : Registers) (ch : UInt8) : Reaction :=
  if ch = '.'.toUInt8 then .next (q.updateState target)
  else if !isNum ch then q.error .invalidVersion
  else
    let q := { q with httpMajor := appendDigit q.httpMajor ch }
    if 999 < q.httpMajor then q.error .invalidVersion else .next q

/-- The first digit of a minor version. -/
def firstHttpMinor (target : State) (q : Registers) (ch : UInt8) : Reaction :=
  if !isNum ch then q.error .invalidVersion
  else .next { q with httpMinor := digit ch, state := target }

/-- One more digit of a minor version. -/
def httpMinorDigit (q : Registers) (ch : UInt8) : Reaction :=
  if !isNum ch then q.error .invalidVersion
  else
    let q := { q with httpMinor := appendDigit q.httpMinor ch }
    if 999 < q.httpMinor then q.error .invalidVersion else .next q

/-! ## The start of a message -/

/-- `s_dead`. -/
def dead (q : Registers) (ch : UInt8) : Reaction :=
  if ch = CR ∨ ch = LF then .next q else q.error .closedConnection

/-- The method that the first byte of a request line selects. -/
def firstMethod (ch : UInt8) : Option HttpMethod :=
  if ch = 'A'.toUInt8 then some .acl
  else if ch = 'B'.toUInt8 then some .bind
  else if ch = 'C'.toUInt8 then some .connect
  else if ch = 'D'.toUInt8 then some .delete
  else if ch = 'G'.toUInt8 then some .get
  else if ch = 'H'.toUInt8 then some .head
  else if ch = 'L'.toUInt8 then some .lock
  else if ch = 'M'.toUInt8 then some .mkcol
  else if ch = 'N'.toUInt8 then some .notify
  else if ch = 'O'.toUInt8 then some .options
  else if ch = 'P'.toUInt8 then some .post
  else if ch = 'R'.toUInt8 then some .report
  else if ch = 'S'.toUInt8 then some .subscribe
  else if ch = 'T'.toUInt8 then some .trace
  else if ch = 'U'.toUInt8 then some .unlock
  else none

/-- `s_start_req`. -/
def startReq (q : Registers) (ch : UInt8) : Reaction :=
  if ch = CR ∨ ch = LF then .next q
  else
    let q := { q with flags := {}, contentLength := ullongMax }
    if !isAlpha ch then q.error .invalidMethod
    else
      let q := { q with method := .delete, index := 1 }
      match firstMethod ch with
      | none => q.error .invalidMethod
      | some method =>
          let q := { q with method := method, state := .reqMethod }
          .notify .messageBegin true q (.next q)

/-- `s_start_req_or_res`. -/
def startReqOrRes (q : Registers) (ch : UInt8) : Reaction :=
  if ch = CR ∨ ch = LF then .next q
  else
    let q := { q with flags := {}, contentLength := ullongMax }
    if ch = 'H'.toUInt8 then
      let q := q.updateState .resOrRespH
      .notify .messageBegin true q (.next q)
    else startReq { q with type := .request, state := .startReq } ch

/-- `s_res_or_resp_H`. -/
def resOrRespH (q : Registers) (ch : UInt8) : Reaction :=
  if ch = 'T'.toUInt8 then .next { q with type := .response, state := .resHT }
  else if ch ≠ 'E'.toUInt8 then q.error .invalidConstant
  else .next { q with type := .request, method := .head, index := 2, state := .reqMethod }

/-- `s_start_res`.  The callback also runs for an empty line, which leaves the state. -/
def startRes (q : Registers) (ch : UInt8) : Reaction :=
  let q := { q with flags := {}, contentLength := ullongMax }
  if ch = 'H'.toUInt8 then
    let q := q.updateState .resH
    .notify .messageBegin true q (.next q)
  else if ch = CR ∨ ch = LF then .notify .messageBegin true q (.next q)
  else q.error .invalidConstant

/-! ## The status line -/

def resH := strictCheck 'T'.toUInt8 .resHT

def resHT := strictCheck 'T'.toUInt8 .resHTT

def resHTT := strictCheck 'P'.toUInt8 .resHTTP

def resHTTP := strictCheck '/'.toUInt8 .resFirstHttpMajor

def resFirstHttpMajor := firstHttpMajor '0'.toUInt8 .resHttpMajor

def resHttpMajor := httpMajorOrDot .resFirstHttpMinor

def resFirstHttpMinor := firstHttpMinor .resHttpMinor

/-- `s_res_http_minor`. -/
def resHttpMinor (q : Registers) (ch : UInt8) : Reaction :=
  if ch = ' '.toUInt8 then .next (q.updateState .resFirstStatusCode) else httpMinorDigit q ch

/-- `s_res_first_status_code`. -/
def resFirstStatusCode (q : Registers) (ch : UInt8) : Reaction :=
  if !isNum ch then
    if ch = ' '.toUInt8 then .next q else q.error .invalidStatus
  else .next { q with statusCode := digit ch, state := .resStatusCode }

/-- `s_res_status_code`. -/
def resStatusCode (q : Registers) (ch : UInt8) : Reaction :=
  if !isNum ch then
    if ch = ' '.toUInt8 then .next (q.updateState .resStatusStart)
    else if ch = CR then .next (q.updateState .resLineAlmostDone)
    else if ch = LF then .next (q.updateState .headerFieldStart)
    else q.error .invalidStatus
  else
    let q := { q with statusCode := appendDigit q.statusCode ch }
    if 999 < q.statusCode then q.error .invalidStatus else .next q

/-- `s_res_status_start`. -/
def resStatusStart (q : Registers) (ch : UInt8) : Reaction :=
  if ch = CR then .next (q.updateState .resLineAlmostDone)
  else if ch = LF then .next (q.updateState .headerFieldStart)
  else .mark .status (.next { q with state := .resStatus, index := 0 })

/-- `s_res_status`. -/
def resStatus (q : Registers) (ch : UInt8) : Reaction :=
  if ch = CR then
    let q := q.updateState .resLineAlmostDone
    .data .status 0 true q (.next q)
  else if ch = LF then
    let q := q.updateState .headerFieldStart
    .data .status 0 true q (.next q)
  else .next q

def resLineAlmostDone := strictCheck LF .headerFieldStart

/-! ## The request line -/

/-- The branches of `s_req_method` for a byte that is not the next one of the method
string: the method it selects instead, `none` for an error.  At index 1 a method other than
those named goes on with any byte. -/
def otherMethod (method : HttpMethod) (index : ℕ) (ch : UInt8) : Option HttpMethod :=
  match method with
  | .connect =>
      if index = 1 ∧ ch = 'H'.toUInt8 then some .checkout
      else if index = 2 ∧ ch = 'P'.toUInt8 then some .copy
      else none
  | .mkcol =>
      if index = 1 ∧ ch = 'O'.toUInt8 then some .move
      else if index = 1 ∧ ch = 'E'.toUInt8 then some .merge
      else if index = 1 ∧ ch = '-'.toUInt8 then some .msearch
      else if index = 2 ∧ ch = 'A'.toUInt8 then some .mkactivity
      else if index = 3 ∧ ch = 'A'.toUInt8 then some .mkcalendar
      else none
  | .subscribe => if index = 1 ∧ ch = 'E'.toUInt8 then some .search else none
  | .report => if index = 2 ∧ ch = 'B'.toUInt8 then some .rebind else none
  | _ =>
      if index = 1 then
        match method with
        | .post =>
            if ch = 'R'.toUInt8 then some .propfind
            else if ch = 'U'.toUInt8 then some .put
            else if ch = 'A'.toUInt8 then some .patch
            else none
        | .lock => if ch = 'I'.toUInt8 then some .link else none
        | _ => some method
      else if index = 2 then
        match method with
        | .put => if ch = 'R'.toUInt8 then some .purge else none
        | .unlock =>
            if ch = 'S'.toUInt8 then some .unsubscribe
            else if ch = 'B'.toUInt8 then some .unbind
            else none
        | _ => none
      else if index = 4 ∧ method = .propfind ∧ ch = 'P'.toUInt8 then some .proppatch
      else if index = 3 ∧ method = .unlock ∧ ch = 'I'.toUInt8 then some .unlink
      else none

/-- `s_req_method`. -/
def reqMethod (q : Registers) (ch : UInt8) : Reaction :=
  if ch = 0 then q.error .invalidMethod
  else
    let expected := (methodString q.method).getD q.index 0
    let index := (q.index + 1) % 0x100
    if ch = ' '.toUInt8 ∧ expected = 0 then
      .next { q with state := .reqSpacesBeforeUrl, index := index }
    else if ch = expected then .next { q with index := index }
    else
      match otherMethod q.method q.index ch with
      | none => q.error .invalidMethod
      | some method => .next { q with method := method, index := index }

/-- `UPDATE_STATE(parse_url_char(CURRENT_STATE(), ch))` with the check after it. -/
def urlChar (q : Registers) (ch : UInt8) : Reaction :=
  let q := q.updateState (parseUrlChar q.state ch)
  if q.state = .dead then q.error .invalidUrl else .next q

/-- `s_req_spaces_before_url`. -/
def reqSpacesBeforeUrl (q : Registers) (ch : UInt8) : Reaction :=
  if ch = ' '.toUInt8 then .next q
  else .mark .url (urlChar (if q.method = .connect then q.updateState .reqServerStart else q) ch)

/-- `s_req_schema` to `s_req_server_start`. -/
def reqSchema (q : Registers) (ch : UInt8) : Reaction :=
  if ch = ' '.toUInt8 ∨ ch = CR ∨ ch = LF then q.error .invalidUrl else urlChar q ch

/-- `s_req_server` to `s_req_fragment`. -/
def reqServer (q : Registers) (ch : UInt8) : Reaction :=
  if ch = ' '.toUInt8 then
    let q := q.updateState .reqHttpStart
    .data .url 0 true q (.next q)
  else if ch = CR ∨ ch = LF then
    let q :=
      { q with
        httpMajor := 0
        httpMinor := 9
        state := if ch = CR then .reqLineAlmostDone else .headerFieldStart }
    .data .url 0 true q (.next q)
  else urlChar q ch

/-- `s_req_http_start`. -/
def reqHttpStart (q : Registers) (ch : UInt8) : Reaction :=
  if ch = 'H'.toUInt8 then .next (q.updateState .reqHttpH)
  else if ch = ' '.toUInt8 then .next q
  else q.error .invalidConstant

def reqHttpH := strictCheck 'T'.toUInt8 .reqHttpHT

def reqHttpHT := strictCheck 'T'.toUInt8 .reqHttpHTT

def reqHttpHTT := strictCheck 'P'.toUInt8 .reqHttpHTTP

def reqHttpHTTP := strictCheck '/'.toUInt8 .reqFirstHttpMajor

def reqFirstHttpMajor := firstHttpMajor '1'.toUInt8 .reqHttpMajor

def reqHttpMajor := httpMajorOrDot .reqFirstHttpMinor

def reqFirstHttpMinor := firstHttpMinor .reqHttpMinor

/-- `s_req_http_minor`. -/
def reqHttpMinor (q : Registers) (ch : UInt8) : Reaction :=
  if ch = CR then .next (q.updateState .reqLineAlmostDone)
  else if ch = LF then .next (q.updateState .headerFieldStart)
  else httpMinorDigit q ch

/-- `s_req_line_almost_done`. -/
def reqLineAlmostDone (q : Registers) (ch : UInt8) : Reaction :=
  if ch ≠ LF then q.error .lfExpected else .next (q.updateState .headerFieldStart)

/-! ## The end of the headers and of the message -/

/-- `s_message_done`. -/
def messageDone (q : Registers) : Reaction :=
  q.completeMessage fun q => if q.upgrade then .exit q else .next q

/-- `hasBody` of `s_headers_done`. -/
def hasBody (q : Registers) : Bool :=
  q.flags.chunked || (0 < q.contentLength && q.contentLength ≠ ullongMax)

/-- `s_headers_done`. -/
def headersDone (q : Registers) (ch : UInt8) : Reaction :=
  if ch ≠ LF then q.error .strict
  else
    .resetCount <|
      if q.upgrade ∧ (q.method = .connect ∨ q.flags.skipbody ∨ !hasBody q) then
        -- the rest of the message is in a different protocol
        q.completeMessage .exit
      else if q.flags.skipbody then q.completeMessage .next
      else if q.flags.chunked then .next (q.updateState .chunkSizeStart)
      else if q.contentLength = 0 then q.completeMessage .next
      else if q.contentLength ≠ ullongMax then .next (q.updateState .bodyIdentity)
      else if !httpMessageNeedsEof q.view then q.completeMessage .next
      else .next (q.updateState .bodyIdentityEof)

/-- `s_headers_almost_done`. -/
def headersAlmostDone (q : Registers) (ch : UInt8) : Reaction :=
  if ch ≠ LF then q.error .strict
  else if q.flags.trailing then
    -- the end of a chunked message
    let q := q.updateState .messageDone
    .notify .chunkComplete false q (messageDone q)
  else
    let q :=
      { q with
        state := .headersDone
        upgrade := (q.flags.upgrade && q.flags.connectionUpgrade) || q.method = .connect }
    .headersComplete q (headersDone q ch) (headersDone q.setSkipbody ch)

/-! ## Header fields -/

/-- A word is matched byte by byte: what state follows when `c` is compared at `index`. -/
def matchWord (word : List UInt8) (going found other : HeaderState) (index : ℕ) (c : UInt8) :
    HeaderState :=
  if word.length < index ∨ c ≠ word.getD index 0 then other
  else if index = word.length - 1 then found
  else going

/-- `s_header_field_start`. -/
def headerFieldStart (q : Registers) (ch : UInt8) : Reaction :=
  if ch = CR then .next (q.updateState .headersAlmostDone)
  else if ch = LF then headersAlmostDone (q.updateState .headersAlmostDone) ch
  else
    let c := token ch
    if c = 0 then q.error .invalidHeaderToken
    else
      .mark .headerField <| .next
        { q with
          index := 0
          state := .headerField
          headerState :=
            if c = 'c'.toUInt8 then .c
            else if c = 'p'.toUInt8 then .matchingProxyConnection
            else if c = 't'.toUInt8 then .matchingTransferEncoding
            else if c = 'u'.toUInt8 then .matchingUpgrade
            else .general }

/-- The `switch` in the loop of `s_header_field`; `none` is the failed assertion. -/
def headerFieldChar (q : Registers) (ch : UInt8) : Option Registers :=
  let c := token ch
  let index := (q.index + 1) % 0x100
  let matching (word : List UInt8) (found : HeaderState) : Registers :=
    { q with
      index := index
      headerState := matchWord word q.headerState found .general index c }
  match q.headerState with
  | .general => some q
  | .c => some { q with index := index, headerState := if c = 'o'.toUInt8 then .co else .general }
  | .co => some { q with index := index, headerState := if c = 'n'.toUInt8 then .con else .general }
  | .con =>
      some
        { q with
          index := index
          headerState :=
            if c = 'n'.toUInt8 then .matchingConnection
            else if c = 't'.toUInt8 then .matchingContentLength
            else .general }
  | .matchingConnection => some (matching (ascii "connection") .connection)
  | .matchingProxyConnection => some (matching (ascii "proxy-connection") .connection)
  | .matchingContentLength => some (matching (ascii "content-length") .contentLength)
  | .matchingTransferEncoding => some (matching (ascii "transfer-encoding") .transferEncoding)
  | .matchingUpgrade => some (matching (ascii "upgrade") .upgrade)
  | .connection | .contentLength | .transferEncoding | .upgrade =>
      some (if ch ≠ ' '.toUInt8 then { q with headerState := .general } else q)
  | _ => none

/-- The loop of `s_header_field`: the registers and the number of bytes it passes. -/
def headerFieldLoop : Registers → List UInt8 → Option (Registers × ℕ)
  | q, [] => some (q, 0)
  | q, ch :: rest =>
      if token ch = 0 then some (q, 0)
      else
        (headerFieldChar q ch).bind fun q =>
          (headerFieldLoop q rest).map fun (q, passed) => (q, passed + 1)

/-- `s_header_field`. -/
def headerField (q : Registers) (ch : UInt8) (rest : List UInt8) : Reaction :=
  match headerFieldLoop q (ch :: rest) with
  | none => .abort
  | some (q, passed) =>
      .move passed <| .count q passed <|
        match (ch :: rest)[passed]? with
        | none => .endOfBuffer q
        | some ch =>
            if ch = ':'.toUInt8 then
              let q := q.updateState .headerValueDiscardWs
              .data .headerField 0 true q (.next q)
            else q.error .invalidHeaderToken

/-! ## Header values -/

/-- `s_header_value_start`. -/
def headerValueStart (q : Registers) (ch : UInt8) : Reaction :=
  .mark .headerValue <|
    let q := { q with state := .headerValue, index := 0 }
    let c := lower ch
    match q.headerState with
    | .upgrade =>
        .next { q with flags := { q.flags with upgrade := true }, headerState := .general }
    | .transferEncoding =>
        .next
          { q with
            headerState :=
              if c = 'c'.toUInt8 then .matchingTransferEncodingChunked else .general }
    | .contentLength =>
        if !isNum ch then q.error .invalidContentLength
        else .next { q with contentLength := digit ch }
    | .connection =>
        .next
          { q with
            headerState :=
              if c = 'k'.toUInt8 then .matchingConnectionKeepAlive
              else if c = 'c'.toUInt8 then .matchingConnectionClose
              else if c = 'u'.toUInt8 then .matchingConnectionUpgrade
              else .matchingConnectionToken }
    | .matchingConnectionTokenStart => .next q
    | _ => .next { q with headerState := .general }

/-- `s_header_value_discard_ws`. -/
def headerValueDiscardWs (q : Registers) (ch : UInt8) : Reaction :=
  if ch = ' '.toUInt8 ∨ ch = 9 then .next q
  else if ch = CR then .next (q.updateState .headerValueDiscardWsAlmostDone)
  else if ch = LF then .next (q.updateState .headerValueDiscardLws)
  else headerValueStart q ch

/-- The flag that a finished value sets, in `s_header_value_lws` and
`s_header_value_discard_lws`, and a finished token of `Connection` in `s_header_value`. -/
def setValueFlag (h : HeaderState) (q : Registers) : Registers :=
  match h with
  | .connectionKeepAlive => { q with flags := { q.flags with connectionKeepAlive := true } }
  | .connectionClose => { q with flags := { q.flags with connectionClose := true } }
  | .transferEncodingChunked => { q with flags := { q.flags with chunked := true } }
  | .connectionUpgrade => { q with flags := { q.flags with connectionUpgrade := true } }
  | _ => q

/-- `s_header_value_lws`. -/
def headerValueLws (q : Registers) (ch : UInt8) : Reaction :=
  if ch = ' '.toUInt8 ∨ ch = 9 then headerValueStart (q.updateState .headerValueStart) ch
  else headerFieldStart ((setValueFlag q.headerState q).updateState .headerFieldStart) ch

def headerAlmostDone := strictCheck LF .headerValueLws

def headerValueDiscardWsAlmostDone := strictCheck LF .headerValueDiscardLws

/-- `s_header_value_discard_lws`. -/
def headerValueDiscardLws (q : Registers) (ch : UInt8) : Reaction :=
  if ch = ' '.toUInt8 ∨ ch = 9 then .next (q.updateState .headerValueDiscardWs)
  else
    -- the header value was empty
    .mark .headerValue <|
      let q := (setValueFlag q.headerState q).updateState .headerFieldStart
      .data .headerValue 0 false q (headerFieldStart q ch)

/-- What one turn of the loop of `s_header_value` does, `h_general` apart. -/
inductive ValueStep
  | going (q : Registers) (h : HeaderState)
  | error
  | assertion

/-- The `switch` in the loop of `s_header_value`, without the case `h_general`; `h` is
`h_state`. -/
def headerValueChar (q : Registers) (h : HeaderState) (ch : UInt8) : ValueStep :=
  let c := lower ch
  let index := (q.index + 1) % 0x100
  let matching (word : List UInt8) (found other : HeaderState) : ValueStep :=
    .going { q with index := index } (matchWord word h found other index c)
  match h with
  | .connection | .transferEncoding => .assertion
  | .contentLength =>
      if ch = ' '.toUInt8 then .going q h
      else if !isNum ch then .error
      else if (ullongMax - 10) / 10 < q.contentLength then .error
      else
        .going { q with contentLength := (q.contentLength * 10 + digit ch) % 0x10000000000000000 } h
  | .matchingTransferEncodingChunked =>
      matching (ascii "chunked") .transferEncodingChunked .general
  | .matchingConnectionTokenStart =>
      .going q <|
        if c = 'k'.toUInt8 then .matchingConnectionKeepAlive
        else if c = 'c'.toUInt8 then .matchingConnectionClose
        else if c = 'u'.toUInt8 then .matchingConnectionUpgrade
        else if token c ≠ 0 then .matchingConnectionToken
        else if c = ' '.toUInt8 ∨ c = 9 then h
        else .general
  | .matchingConnectionKeepAlive =>
      matching (ascii "keep-alive") .connectionKeepAlive .matchingConnectionToken
  | .matchingConnectionClose =>
      matching (ascii "close") .connectionClose .matchingConnectionToken
  | .matchingConnectionUpgrade =>
      matching (ascii "upgrade") .connectionUpgrade .matchingConnectionToken
  | .matchingConnectionToken =>
      if ch = ','.toUInt8 then .going { q with index := 0 } .matchingConnectionTokenStart
      else .going q h
  | .transferEncodingChunked => .going q (if ch ≠ ' '.toUInt8 then .general else h)
  | .connectionKeepAlive | .connectionClose | .connectionUpgrade =>
      if ch = ','.toUInt8 then
        .going { setValueFlag h q with index := 0 } .matchingConnectionTokenStart
      else .going q (if ch ≠ ' '.toUInt8 then .matchingConnectionToken else h)
  | _ => .going q .general

/-- `memchr`. -/
def memchr (bytes : List UInt8) (ch : UInt8) (limit : ℕ) : Option ℕ :=
  (bytes.take limit).findIdx? (· = ch)

/-- The bytes that `h_general` passes at once: up to the first end of line in the next
`HTTP_MAX_HEADER_SIZE` bytes, all bytes of the buffer if there is none. -/
def generalRun (bytes : List UInt8) : ℕ :=
  let limit := min bytes.length httpMaxHeaderSize
  match memchr bytes CR limit, memchr bytes LF limit with
  | some cr, some lf => if lf ≤ cr then lf else cr
  | some cr, none => cr
  | none, some lf => lf
  | none, none => bytes.length

/-- Why the loop of `s_header_value` ends. -/
inductive ValueStop
  | bufferEnd
  | cr
  | lf
  | error
  | assertion

/-- Where the loop of `s_header_value` ends. -/
structure ValueScan where
  registers : Registers
  /-- `h_state`. -/
  hState : HeaderState
  /-- `p - start`. -/
  passed : ℕ
  stop : ValueStop

/-- The tests at the head of the loop, for a loop that ends there. -/
def valueStop : List UInt8 → ValueStop
  | [] => .bufferEnd
  | ch :: _ => if ch = CR then .cr else .lf

/-- The loop of `s_header_value`. -/
def headerValueLoop : Registers → HeaderState → List UInt8 → ValueScan
  | q, h, [] => ⟨q, h, 0, .bufferEnd⟩
  | q, h, ch :: rest =>
      if ch = CR then ⟨q, h, 0, .cr⟩
      else if ch = LF then ⟨q, h, 0, .lf⟩
      else if h = .general then
        let passed := generalRun (ch :: rest)
        ⟨q, h, passed, valueStop ((ch :: rest).drop passed)⟩
      else
        match headerValueChar q h ch with
        | .going q h =>
            let scan := headerValueLoop q h rest
            { scan with passed := scan.passed + 1 }
        | .error => ⟨q, h, 0, .error⟩
        | .assertion => ⟨q, h, 0, .assertion⟩

/-- `s_header_value`. -/
def headerValue (q : Registers) (ch : UInt8) (rest : List UInt8) : Reaction :=
  let scan := headerValueLoop q q.headerState (ch :: rest)
  let q := { scan.registers with headerState := scan.hState }
  .move scan.passed <|
    match scan.stop with
    | .bufferEnd => .count q scan.passed (.endOfBuffer q)
    | .cr =>
        let q := q.updateState .headerAlmostDone
        .data .headerValue 0 true q (.count q scan.passed (.next q))
    | .lf =>
        let q := q.updateState .headerAlmostDone
        .count { scan.registers with state := .headerAlmostDone } scan.passed <|
          .data .headerValue 0 false q (headerAlmostDone q LF)
    | .error => q.error .invalidContentLength
    | .assertion => .abort

/-! ## Bodies -/

/-- `s_body_identity`. -/
def bodyIdentity (q : Registers) (rest : List UInt8) : Reaction :=
  let toRead := min q.contentLength (rest.length + 1)
  if q.contentLength = 0 ∨ q.contentLength = ullongMax then .abort
  else
    .mark .body <|
      let q := { q with contentLength := q.contentLength - toRead }
      .move (toRead - 1) <|
        if q.contentLength = 0 then
          let q := q.updateState .messageDone
          .data .body 1 false q (messageDone q)
        else .next q

/-- `s_body_identity_eof`. -/
def bodyIdentityEof (q : Registers) (rest : List UInt8) : Reaction :=
  .mark .body (.move rest.length (.next q))

/-- `s_chunk_size_start`. -/
def chunkSizeStart (q : Registers) (ch : UInt8) : Reaction :=
  .assertCount 1 <| q.assertChunked <|
    match unhex ch with
    | none => q.error .invalidChunkSize
    | some value => .next { q with contentLength := value, state := .chunkSize }

/-- `s_chunk_size`. -/
def chunkSize (q : Registers) (ch : UInt8) : Reaction :=
  q.assertChunked <|
    if ch = CR then .next (q.updateState .chunkSizeAlmostDone)
    else
      match unhex ch with
      | none =>
          if ch = ';'.toUInt8 ∨ ch = ' '.toUInt8 then .next (q.updateState .chunkParameters)
          else q.error .invalidChunkSize
      | some value =>
          if (ullongMax - 16) / 16 < q.contentLength then q.error .invalidContentLength
          else
            .next { q with contentLength := (q.contentLength * 16 + value) % 0x10000000000000000 }

/-- `s_chunk_parameters`. -/
def chunkParameters (q : Registers) (ch : UInt8) : Reaction :=
  q.assertChunked <|
    if ch = CR then .next (q.updateState .chunkSizeAlmostDone) else .next q

/-- `s_chunk_size_almost_done`. -/
def chunkSizeAlmostDone (q : Registers) (ch : UInt8) : Reaction :=
  q.assertChunked <|
    if ch ≠ LF then q.error .strict
    else
      .resetCount <|
        let q :=
          if q.contentLength = 0 then
            { q with flags := { q.flags with trailing := true }, state := .headerFieldStart }
          else q.updateState .chunkData
        .notify .chunkHeader true q (.next q)

/-- `s_chunk_data`. -/
def chunkData (q : Registers) (rest : List UInt8) : Reaction :=
  q.assertChunked <|
    let toRead := min q.contentLength (rest.length + 1)
    if q.contentLength = 0 ∨ q.contentLength = ullongMax then .abort
    else
      .mark .body <|
        let q := { q with contentLength := q.contentLength - toRead }
        .move (toRead - 1) <|
          .next (if q.contentLength = 0 then q.updateState .chunkDataAlmostDone else q)

/-- `s_chunk_data_almost_done`. -/
def chunkDataAlmostDone (q : Registers) (ch : UInt8) : Reaction :=
  q.assertChunked <|
    if q.contentLength ≠ 0 then .abort
    else if ch ≠ CR then q.error .strict
    else
      let q := q.updateState .chunkDataDone
      .data .body 0 true q (.next q)

/-- `s_chunk_data_done`. -/
def chunkDataDone (q : Registers) (ch : UInt8) : Reaction :=
  q.assertChunked <|
    if ch ≠ LF then q.error .strict
    else
      .resetCount <|
        let q := q.updateState .chunkSizeStart
        .notify .chunkComplete true q (.next q)

/-! ## The loop -/

/-- The `switch` on the state: `rest` are the bytes after `ch`. -/
def turn (q : Registers) (ch : UInt8) (rest : List UInt8) : Reaction :=
  match q.state with
  | .dead => dead q ch
  | .startReqOrRes => startReqOrRes q ch
  | .resOrRespH => resOrRespH q ch
  | .startRes => startRes q ch
  | .resH => resH q ch
  | .resHT => resHT q ch
  | .resHTT => resHTT q ch
  | .resHTTP => resHTTP q ch
  | .resFirstHttpMajor => resFirstHttpMajor q ch
  | .resHttpMajor => resHttpMajor q ch
  | .resFirstHttpMinor => resFirstHttpMinor q ch
  | .resHttpMinor => resHttpMinor q ch
  | .resFirstStatusCode => resFirstStatusCode q ch
  | .resStatusCode => resStatusCode q ch
  | .resStatusStart => resStatusStart q ch
  | .resStatus => resStatus q ch
  | .resLineAlmostDone => resLineAlmostDone q ch
  | .startReq => startReq q ch
  | .reqMethod => reqMethod q ch
  | .reqSpacesBeforeUrl => reqSpacesBeforeUrl q ch
  | .reqSchema | .reqSchemaSlash | .reqSchemaSlashSlash | .reqServerStart => reqSchema q ch
  | .reqServer | .reqServerWithAt | .reqPath => reqServer q ch
  | .reqQueryStringStart | .reqQueryString => reqServer q ch
  | .reqFragmentStart | .reqFragment => reqServer q ch
  | .reqHttpStart => reqHttpStart q ch
  | .reqHttpH => reqHttpH q ch
  | .reqHttpHT => reqHttpHT q ch
  | .reqHttpHTT => reqHttpHTT q ch
  | .reqHttpHTTP => reqHttpHTTP q ch
  | .reqFirstHttpMajor => reqFirstHttpMajor q ch
  | .reqHttpMajor => reqHttpMajor q ch
  | .reqFirstHttpMinor => reqFirstHttpMinor q ch
  | .reqHttpMinor => reqHttpMinor q ch
  | .reqLineAlmostDone => reqLineAlmostDone q ch
  | .headerFieldStart => headerFieldStart q ch
  | .headerField => headerField q ch rest
  | .headerValueDiscardWs => headerValueDiscardWs q ch
  | .headerValueDiscardWsAlmostDone => headerValueDiscardWsAlmostDone q ch
  | .headerValueDiscardLws => headerValueDiscardLws q ch
  | .headerValueStart => headerValueStart q ch
  | .headerValue => headerValue q ch rest
  | .headerValueLws => headerValueLws q ch
  | .headerAlmostDone => headerAlmostDone q ch
  | .chunkSizeStart => chunkSizeStart q ch
  | .chunkSize => chunkSize q ch
  | .chunkParameters => chunkParameters q ch
  | .chunkSizeAlmostDone => chunkSizeAlmostDone q ch
  | .headersAlmostDone => headersAlmostDone q ch
  | .headersDone => headersDone q ch
  | .chunkData => chunkData q rest
  | .chunkDataAlmostDone => chunkDataAlmostDone q ch
  | .chunkDataDone => chunkDataDone q ch
  | .bodyIdentity => bodyIdentity q rest
  | .bodyIdentityEof => bodyIdentityEof q rest
  | .messageDone => messageDone q

/-- The body of the `for` loop. -/
def iteration (q : Registers) (ch : UInt8) (rest : List UInt8) : Reaction :=
  if q.state.parsingHeader then .count q 1 (turn q ch rest) else turn q ch rest

/-- What a callback did: the value it returned, whether it paused the parser, and its own
state. -/
structure CbResult (σ : Type) where
  value : ℤ
  paused : Bool
  user : σ

/-- `http_parser_settings`; `none` is a null pointer. -/
structure HttpParserSettings (σ : Type) where
  onData : DataCb → Option (ParserView → List UInt8 → σ → CbResult σ)
  onNotify : NotifyCb → Option (ParserView → σ → CbResult σ)
  onHeadersComplete : Option (ParserView → σ → CbResult σ)

/-- The local variables of `http_parser_execute`, and the parser and the state of the
callbacks. -/
structure Exec (σ : Type) where
  parser : HttpParser
  user : σ
  /-- `p - data`. -/
  p : ℕ
  /-- `header_field_mark` and so on, less `data`. -/
  marks : DataCb → Option ℕ

inductive Outcome (σ : Type)
  | looping (e : Exec σ)
  | returned (count : ℕ) (parser : HttpParser) (user : σ)
  | aborted

section Run

variable {σ : Type} (S : HttpParserSettings σ) (data : List UInt8)

/-- The bytes from `start` to `stop`. -/
def slice (start stop : ℕ) : List UInt8 :=
  (data.drop start).take (stop - start)

/-- The parser after a callback. -/
def afterCallback (parser : HttpParser) (failure : HttpErrno) (r : CbResult σ) : HttpParser :=
  if r.value ≠ 0 then { parser with httpErrno := failure }
  else if r.paused then { parser with httpErrno := .paused }
  else parser

/-- `CALLBACK_DATA_`. -/
def callbackData (k : DataCb) (extra : ℕ) (advance : Bool) (e : Exec σ)
    (rest : Exec σ → Outcome σ) : Outcome σ :=
  if e.parser.httpErrno ≠ .ok then .aborted
  else
    match e.marks k with
    | none => rest e
    | some mark =>
        match S.onData k with
        | none => rest { e with marks := Function.update e.marks k none }
        | some f =>
            let r := f e.parser.view (slice data mark (e.p + extra)) e.user
            let parser := afterCallback e.parser (.cbData k) r
            if parser.httpErrno ≠ .ok then
              .returned (if advance then e.p + 1 else e.p) parser r.user
            else rest { e with user := r.user, marks := Function.update e.marks k none }

/-- `CALLBACK_NOTIFY_`. -/
def callbackNotify (k : NotifyCb) (advance : Bool) (e : Exec σ)
    (rest : Exec σ → Outcome σ) : Outcome σ :=
  if e.parser.httpErrno ≠ .ok then .aborted
  else
    match S.onNotify k with
    | none => rest e
    | some f =>
        let r := f e.parser.view e.user
        let parser := afterCallback e.parser (.cbNotify k) r
        if parser.httpErrno ≠ .ok then
          .returned (if advance then e.p + 1 else e.p) parser r.user
        else rest { e with user := r.user }

/-- The call of `on_headers_complete`. -/
def callbackHeadersComplete (e : Exec σ) (rest skipping : Exec σ → Outcome σ) : Outcome σ :=
  match S.onHeadersComplete with
  | none => rest e
  | some f =>
      let r := f e.parser.view e.user
      let parser := if r.paused then { e.parser with httpErrno := .paused } else e.parser
      if r.value = 0 then
        if r.paused then .returned e.p parser r.user else rest { e with user := r.user }
      else if r.value = 1 then
        let parser := { parser with toRegisters := parser.toRegisters.setSkipbody }
        if r.paused then .returned e.p parser r.user
        else skipping { e with parser := parser, user := r.user }
      else .returned e.p { parser with httpErrno := .cbHeadersComplete } r.user

/-- `parser` with other registers. -/
def Exec.load (e : Exec σ) (q : Registers) : Exec σ :=
  { e with parser := { e.parser with toRegisters := q } }

/-- The meaning of the macros. -/
def Reaction.run : Reaction → Exec σ → Outcome σ
  | .next q, e => .looping { e.load q with p := e.p + 1 }
  | .endOfBuffer q, e => .looping (e.load q)
  | .fail q, e => .returned e.p (e.load q).parser e.user
  | .exit q, e => .returned (e.p + 1) (e.load q).parser e.user
  | .abort, _ => .aborted
  | .count q n rest, e =>
      let nread := (e.parser.nread + n) % 0x100000000
      if httpMaxHeaderSize < nread then
        .returned e.p ⟨q.setErrno .headerOverflow, nread⟩ e.user
      else rest.run { e with parser := { e.parser with nread := nread } }
  | .resetCount rest, e => rest.run { e with parser := { e.parser with nread := 0 } }
  | .assertCount n rest, e => if e.parser.nread = n then rest.run e else .aborted
  | .mark k rest, e =>
      rest.run { e with marks := Function.update e.marks k (some ((e.marks k).getD e.p)) }
  | .move n rest, e => rest.run { e with p := e.p + n }
  | .data k extra advance q rest, e =>
      callbackData S data k extra advance (e.load q) fun e => rest.run e
  | .notify k advance q rest, e => callbackNotify S k advance (e.load q) fun e => rest.run e
  | .headersComplete q rest skipping, e =>
      callbackHeadersComplete S (e.load q) (fun e => rest.run e) fun e => skipping.run e

/-- The callbacks for the marks left over at the end of the buffer. -/
def leftoverMarks : List DataCb → Exec σ → Outcome σ
  | [], e => .returned data.length e.parser e.user
  | k :: ks, e => callbackData S data k 0 false e (leftoverMarks ks)

/-- What follows the `for` loop. -/
def finish (e : Exec σ) : Outcome σ :=
  let marks : List DataCb := [.headerField, .headerValue, .url, .body, .status]
  if 1 < (marks.filter fun k => (e.marks k).isSome).length then .aborted
  else leftoverMarks S data marks e

/-- The `for` loop; every iteration moves `p`, so `fuel` iterations reach the end from
`data.length - fuel`. -/
def mainLoop : ℕ → Exec σ → Outcome σ
  | 0, e => finish S data e
  | fuel + 1, e =>
      match data.drop e.p with
      | [] => finish S data e
      | ch :: rest =>
          match (iteration e.parser.toRegisters ch rest).run S data e with
          | .looping e => mainLoop fuel e
          | outcome => outcome

/-- The mark that is set at the first byte of a buffer. -/
def resumedMark : State → Option DataCb
  | .headerField => some .headerField
  | .headerValue => some .headerValue
  | .reqPath | .reqSchema | .reqSchemaSlash | .reqSchemaSlashSlash => some .url
  | .reqServerStart | .reqServer | .reqServerWithAt => some .url
  | .reqQueryStringStart | .reqQueryString | .reqFragmentStart | .reqFragment => some .url
  | .resStatus => some .status
  | _ => none

/-- The local variables before the loop. -/
def startExec (parser : HttpParser) (user : σ) : Exec σ where
  parser := parser
  user := user
  p := 0
  marks k := if resumedMark parser.state = some k then some 0 else none

end Run

/-- What `http_parser_execute` returns and leaves behind. -/
structure Returned (σ : Type) where
  count : ℕ
  parser : HttpParser
  user : σ

/-- The call has returned; `none` if an assertion failed. -/
def Outcome.returned? {σ : Type} : Outcome σ → Option (Returned σ)
  | .returned count parser user => some ⟨count, parser, user⟩
  | _ => none

/-- `http_parser_execute`, `none` if an assertion fails. -/
def httpParserExecute {σ : Type} (S : HttpParserSettings σ) (parser : HttpParser) (user : σ)
    (data : List UInt8) : Option (Returned σ) :=
  if parser.httpErrno ≠ .ok then some ⟨0, parser, user⟩
  else if data = [] then
    match parser.state with
    | .bodyIdentityEof =>
        Outcome.returned? <|
          callbackNotify S .messageComplete false (startExec parser user) fun e =>
            .returned 0 e.parser e.user
    | .dead | .startReqOrRes | .startRes | .startReq => some ⟨0, parser, user⟩
    | _ => some ⟨1, { parser with httpErrno := .invalidEofState }, user⟩
  else (mainLoop S data data.length (startExec parser user)).returned?

end Http2Asio.Http1
