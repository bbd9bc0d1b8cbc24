import Mathlib.Data.List.Basic

/-!
# `http_parser`: the data of the HTTP/1 parser

The types of `http_parser.h`, the character classes and tables of `http_parser.cpp` as
the default build (`HTTP_PARSER_STRICT` is 1) has them, and the functions that read or
write a parser without running it.  `http_parser_execute` is in `HttpExecute.lean`.

`struct http_parser` is cut in two.  `nread` is the only field that depends on how the
input was cut into buffers, and nothing but the limit on the header size and one
assertion reads it: it stands in `HttpParser`, all the other fields in `Registers`.

A callback gets the fields that the header does not call private (`ParserView`); of the
private ones `flags` and `content_length`, which the header documents for callbacks.
-/

namespace Http2Asio.Http1

/-- The bytes of a string of the source. -/
def ascii (text : String) : List UInt8 :=
  text.toList.map Char.toUInt8

/-- `HTTP_MAX_HEADER_SIZE`. -/
def httpMaxHeaderSize : ℕ := 80 * 1024

/-- `ULLONG_MAX`, in `content_length` also the mark of a length that was not given. -/
def ullongMax : ℕ := 0xffffffffffffffff

/-! ## Enumerations -/

/-- `enum http_method`. -/
inductive HttpMethod
  | delete | get | head | post | put
  | connect | options | trace
  | copy | lock | mkcol | move | propfind | proppatch | search | unlock | bind | rebind
  | unbind | acl
  | report | mkactivity | checkout | merge
  | msearch | notify | subscribe | unsubscribe
  | patch | purge
  | mkcalendar
  | link | unlink
  deriving DecidableEq

/-- `method_strings`, without the terminating zeros. -/
def methodString : HttpMethod → List UInt8
  | .delete => ascii "DELETE"
  | .get => ascii "GET"
  | .head => ascii "HEAD"
  | .post => ascii "POST"
  | .put => ascii "PUT"
  | .connect => ascii "CONNECT"
  | .options => ascii "OPTIONS"
  | .trace => ascii "TRACE"
  | .copy => ascii "COPY"
  | .lock => ascii "LOCK"
  | .mkcol => ascii "MKCOL"
  | .move => ascii "MOVE"
  | .propfind => ascii "PROPFIND"
  | .proppatch => ascii "PROPPATCH"
  | .search => ascii "SEARCH"
  | .unlock => ascii "UNLOCK"
  | .bind => ascii "BIND"
  | .rebind => ascii "REBIND"
  | .unbind => ascii "UNBIND"
  | .acl => ascii "ACL"
  | .report => ascii "REPORT"
  | .mkactivity => ascii "MKACTIVITY"
  | .checkout => ascii "CHECKOUT"
  | .merge => ascii "MERGE"
  | .msearch => ascii "M-SEARCH"
  | .notify => ascii "NOTIFY"
  | .subscribe => ascii "SUBSCRIBE"
  | .unsubscribe => ascii "UNSUBSCRIBE"
  | .patch => ascii "PATCH"
  | .purge => ascii "PURGE"
  | .mkcalendar => ascii "MKCALENDAR"
  | .link => ascii "LINK"
  | .unlink => ascii "UNLINK"

/-- `enum http_parser_type`. -/
inductive HttpParserType
  | request
  | response
  | both
  deriving DecidableEq

/-- `enum flags`, a field for each bit. -/
structure Flags where
  chunked : Bool := false
  connectionKeepAlive : Bool := false
  connectionClose : Bool := false
  connectionUpgrade : Bool := false
  trailing : Bool := false
  upgrade : Bool := false
  skipbody : Bool := false
  deriving DecidableEq

/-- The callbacks of type `http_data_cb`. -/
inductive DataCb
  | url
  | status
  | headerField
  | headerValue
  | body
  deriving DecidableEq

/-- The callbacks of type `http_cb`, `on_headers_complete` apart. -/
inductive NotifyCb
  | messageBegin
  | messageComplete
  | chunkHeader
  | chunkComplete
  deriving DecidableEq

/-- `enum http_errno`. -/
inductive HttpErrno
  | ok
  | cbNotify (callback : NotifyCb)
  | cbData (callback : DataCb)
  | cbHeadersComplete
  | invalidEofState
  | headerOverflow
  | closedConnection
  | invalidVersion
  | invalidStatus
  | invalidMethod
  | invalidUrl
  | invalidHost
  | invalidPort
  | invalidPath
  | invalidQueryString
  | invalidFragment
  | lfExpected
  | invalidHeaderToken
  | invalidContentLength
  | invalidChunkSize
  | invalidConstant
  | invalidInternalState
  | strict
  | paused
  | unknown
  deriving DecidableEq

/-- `enum state`. -/
inductive State
  | dead
  | startReqOrRes
  | resOrRespH
  | startRes
  | resH
  | resHT
  | resHTT
  | resHTTP
  | resFirstHttpMajor
  | resHttpMajor
  | resFirstHttpMinor
  | resHttpMinor
  | resFirstStatusCode
  | resStatusCode
  | resStatusStart
  | resStatus
  | resLineAlmostDone
  | startReq
  | reqMethod
  | reqSpacesBeforeUrl
  | reqSchema
  | reqSchemaSlash
  | reqSchemaSlashSlash
  | reqServerStart
  | reqServer
  | reqServerWithAt
  | reqPath
  | reqQueryStringStart
  | reqQueryString
  | reqFragmentStart
  | reqFragment
  | reqHttpStart
  | reqHttpH
  | reqHttpHT
  | reqHttpHTT
  | reqHttpHTTP
  | reqFirstHttpMajor
  | reqHttpMajor
  | reqFirstHttpMinor
  | reqHttpMinor
  | reqLineAlmostDone
  | headerFieldStart
  | headerField
  | headerValueDiscardWs
  | headerValueDiscardWsAlmostDone
  | headerValueDiscardLws
  | headerValueStart
  | headerValue
  | headerValueLws
  | headerAlmostDone
  | chunkSizeStart
  | chunkSize
  | chunkParameters
  | chunkSizeAlmostDone
  | headersAlmostDone
  | headersDone
  | chunkData
  | chunkDataAlmostDone
  | chunkDataDone
  | bodyIdentity
  | bodyIdentityEof
  | messageDone
  deriving DecidableEq

/-- `PARSING_HEADER`: the states up to `s_headers_done`. -/
def State.parsingHeader : State → Bool
  | .chunkData | .chunkDataAlmostDone | .chunkDataDone => false
  | .bodyIdentity | .bodyIdentityEof | .messageDone => false
  | _ => true

/-- `enum header_states`. -/
inductive HeaderState
  | general
  | c
  | co
  | con
  | matchingConnection
  | matchingProxyConnection
  | matchingContentLength
  | matchingTransferEncoding
  | matchingUpgrade
  | connection
  | contentLength
  | transferEncoding
  | upgrade
  | matchingTransferEncodingChunked
  | matchingConnectionTokenStart
  | matchingConnectionKeepAlive
  | matchingConnectionClose
  | matchingConnectionUpgrade
  | matchingConnectionToken
  | transferEncodingChunked
  | connectionKeepAlive
  | connectionClose
  | connectionUpgrade
  deriving DecidableEq

/-! ## The parser -/

/-- `struct http_parser` without `nread`. -/
structure Registers where
  type : HttpParserType
  flags : Flags
  state : State
  headerState : HeaderState
  index : ℕ
  contentLength : ℕ
  httpMajor : ℕ
  httpMinor : ℕ
  statusCode : ℕ
  method : HttpMethod
  httpErrno : HttpErrno
  upgrade : Bool
  deriving DecidableEq

/-- `struct http_parser`. -/
structure HttpParser extends Registers where
  nread : ℕ
  deriving DecidableEq

/-- What a callback may read of the parser it is given. -/
structure ParserView where
  type : HttpParserType
  flags : Flags
  contentLength : ℕ
  httpMajor : ℕ
  httpMinor : ℕ
  statusCode : ℕ
  method : HttpMethod
  upgrade : Bool
  deriving DecidableEq

namespace Registers

variable (q : Registers)

def view : ParserView :=
  { type := q.type, flags := q.flags, contentLength := q.contentLength, httpMajor := q.httpMajor,
    httpMinor := q.httpMinor, statusCode := q.statusCode, method := q.method,
    upgrade := q.upgrade }

/-- `UPDATE_STATE`. -/
def updateState (s : State) : Registers :=
  { q with state := s }

/-- `SET_ERRNO`. -/
def setErrno (e : HttpErrno) : Registers :=
  { q with httpErrno := e }

end Registers

/-- `http_message_needs_eof`. -/
def httpMessageNeedsEof (v : ParserView) : Bool :=
  if v.type = .request then false
  else if v.statusCode / 100 = 1 ∨ v.statusCode = 204 ∨ v.statusCode = 304 ∨ v.flags.skipbody then
    false
  else if v.flags.chunked ∨ v.contentLength ≠ ullongMax then false
  else true

/-- `http_should_keep_alive`. -/
def httpShouldKeepAlive (v : ParserView) : Bool :=
  if 0 < v.httpMajor ∧ 0 < v.httpMinor then
    -- HTTP/1.1
    if v.flags.connectionClose then false else !httpMessageNeedsEof v
  else
    -- HTTP/1.0 or earlier
    if !v.flags.connectionKeepAlive then false else !httpMessageNeedsEof v

/-- `http_parser_init`; the other fields are cleared. -/
def httpParserInit (t : HttpParserType) : HttpParser where
  type := t
  flags := {}
  state :=
    match t with
    | .request => .startReq
    | .response => .startRes
    | .both => .startReqOrRes
  headerState := .general
  index := 0
  contentLength := 0
  httpMajor := 0
  httpMinor := 0
  statusCode := 0
  method := .delete
  httpErrno := .ok
  upgrade := false
  nread := 0

/-- `http_parser_pause`, `none` if its assertion fails. -/
def httpParserPause (parser : HttpParser) (paused : Bool) : Option HttpParser :=
  if parser.httpErrno = .ok ∨ parser.httpErrno = .paused then
    some { parser with httpErrno := if paused then .paused else .ok }
  else none

/-! ## Characters -/

def CR : UInt8 := 13

def LF : UInt8 := 10

/-- `LOWER`. -/
def lower (ch : UInt8) : UInt8 :=
  ch ||| 0x20

/-- `IS_ALPHA`. -/
def isAlpha (ch : UInt8) : Bool :=
  'a'.toUInt8 ≤ lower ch && lower ch ≤ 'z'.toUInt8

/-- `IS_NUM`. -/
def isNum (ch : UInt8) : Bool :=
  '0'.toUInt8 ≤ ch && ch ≤ '9'.toUInt8

/-- `ch - '0'`. -/
def digit (ch : UInt8) : ℕ :=
  ch.toNat - 48

/-- `IS_ALPHANUM`. -/
def isAlphanum (ch : UInt8) : Bool :=
  isAlpha ch || isNum ch

/-- `IS_MARK`; 39 is the apostrophe. -/
def isMark (ch : UInt8) : Bool :=
  ch ∈ ascii "-_.!~*()" || ch = 39

/-- `IS_USERINFO_CHAR`. -/
def isUserinfoChar (ch : UInt8) : Bool :=
  isAlphanum ch || isMark ch || ch ∈ ascii "%;:&=+$,"

/-- `TOKEN`, the table `tokens`: letters in lower case, digits and some punctuation
stand for themselves (39 is the apostrophe, 96 the grave accent), zero for the rest. -/
def token (ch : UInt8) : UInt8 :=
  if isAlpha ch then lower ch
  else if isNum ch then ch
  else if ch ∈ ascii "!#$%&*+-.^_|~" ∨ ch = 39 ∨ ch = 96 then ch
  else 0

/-- `IS_URL_CHAR`, the bit set `normal_url_char`: printable characters but `#` and `?`. -/
def isUrlChar (ch : UInt8) : Bool :=
  33 ≤ ch && ch ≤ 126 && ch ≠ '#'.toUInt8 && ch ≠ '?'.toUInt8

/-- `unhex`.  The initializer lists 128 entries of 256: the entries of the other bytes are
zero, so each of these bytes is a digit 0. -/
def unhex (ch : UInt8) : Option ℕ :=
  if isNum ch then some (digit ch)
  else if 'A'.toUInt8 ≤ ch ∧ ch ≤ 'F'.toUInt8 then some (ch.toNat - 55)
  else if 'a'.toUInt8 ≤ ch ∧ ch ≤ 'f'.toUInt8 then some (ch.toNat - 87)
  else if 128 ≤ ch then some 0
  else none

/-! ## The request target -/

/-- The last part of `parse_url_char` that the three server states share. -/
def parseServerChar (ch : UInt8) : State :=
  if ch = '/'.toUInt8 then .reqPath
  else if ch = '?'.toUInt8 then .reqQueryStringStart
  else if ch = '@'.toUInt8 then .reqServerWithAt
  else if isUserinfoChar ch ∨ ch = '['.toUInt8 ∨ ch = ']'.toUInt8 then .reqServer
  else .dead

/-- `parse_url_char`. -/
def parseUrlChar (s : State) (ch : UInt8) : State :=
  if ch = ' '.toUInt8 ∨ ch = CR ∨ ch = LF then .dead
  -- tab and form feed
  else if ch = 9 ∨ ch = 12 then .dead
  else
    match s with
    | .reqSpacesBeforeUrl =>
        if ch = '/'.toUInt8 ∨ ch = '*'.toUInt8 then .reqPath
        else if isAlpha ch then .reqSchema
        else .dead
    | .reqSchema =>
        if isAlpha ch then .reqSchema
        else if ch = ':'.toUInt8 then .reqSchemaSlash
        else .dead
    | .reqSchemaSlash => if ch = '/'.toUInt8 then .reqSchemaSlashSlash else .dead
    | .reqSchemaSlashSlash => if ch = '/'.toUInt8 then .reqServerStart else .dead
    | .reqServerWithAt => if ch = '@'.toUInt8 then .dead else parseServerChar ch
    | .reqServerStart | .reqServer => parseServerChar ch
    | .reqPath =>
        if isUrlChar ch then .reqPath
        else if ch = '?'.toUInt8 then .reqQueryStringStart
        else if ch = '#'.toUInt8 then .reqFragmentStart
        else .dead
    | .reqQueryStringStart | .reqQueryString =>
        if isUrlChar ch then .reqQueryString
        -- an extra question mark is allowed in the query
        else if ch = '?'.toUInt8 then .reqQueryString
        else if ch = '#'.toUInt8 then .reqFragmentStart
        else .dead
    | .reqFragmentStart =>
        if isUrlChar ch then .reqFragment
        else if ch = '?'.toUInt8 then .reqFragment
        else if ch = '#'.toUInt8 then .reqFragmentStart
        else .dead
    | .reqFragment =>
        if isUrlChar ch then .reqFragment
        else if ch = '?'.toUInt8 ∨ ch = '#'.toUInt8 then .reqFragment
        else .dead
    | _ => .dead

end Http2Asio.Http1
