import Mathlib.Data.Int.Notation
import Mathlib.Data.List.Basic

/-!
# nghttp2, as the session sees it

nghttp2 is a library outside the repository.  Its session object is a parameter:
a type `G` of library states and the functions of `Nghttp2 G` that `http2_session`
calls.  Whatever the library decides, the results of its calls and the callbacks
it fires, is a function of its state, and `G` is arbitrary, so every sequence of
results is some `Nghttp2 G`.

A call of `nghttp2_session_mem_recv` or `nghttp2_session_mem_send` fires callbacks
while it runs.  The model returns them as a list beside the result, in the order
in which they are fired.  What the callbacks submit to the library, such as the
`RST_STREAM` of `on_frame_not_send_callback`, happens inside that call and is part
of the state it returns.

The bytes of a chunk stay in library memory.  `mem_send` hands out a pointer that
is good until the next `mem_send`; reading it later gives whatever is there then,
which is `stale`.
-/

namespace Http2Asio

/-- `nghttp2_frame_type`. -/
inductive FrameType
  | data
  | headers
  | priority
  | rstStream
  | settings
  | pushPromise
  | ping
  | goaway
  | windowUpdate
  | continuation
  | extension (code : UInt8)
  deriving DecidableEq

/-- `nghttp2_headers_category`. -/
inductive HeadersCategory
  | request
  | response
  | pushResponse
  | headers
  deriving DecidableEq

/-- `NGHTTP2_FLAG_END_STREAM`. -/
def flagEndStream : UInt8 := 0x01

/-- `nghttp2_frame`.  The last two fields are members of the union `nghttp2_frame`
and are meaningful only under their own type: `headersCat` for `headers`,
`promisedStreamId` for `pushPromise`. -/
structure Frame where
  streamId : Int32
  type : FrameType
  flags : UInt8
  headersCat : HeadersCategory
  promisedStreamId : Int32
  deriving DecidableEq

/-- `frame->hd.flags & NGHTTP2_FLAG_END_STREAM`. -/
def Frame.endStream (frame : Frame) : Bool :=
  frame.flags &&& flagEndStream != 0

/-- The callbacks that `http2_session::start` registers, with the arguments that
nghttp2 passes to them. -/
inductive Callback
  | beginHeaders (frame : Frame)
  | header (frame : Frame) (name value : List UInt8) (flags : UInt8)
  | frameRecv (frame : Frame)
  | dataChunkRecv (flags : UInt8) (streamId : Int32) (data : List UInt8)
  | streamClose (streamId : Int32) (errorCode : UInt32)
  | frameSend (frame : Frame)
  | frameNotSend (frame : Frame) (errorCode : Int32)
  deriving DecidableEq

/-- What `nghttp2_session_mem_send` returns: a negative error code, or the number
of bytes at the pointer it has set, here the bytes themselves.  No bytes at all is
the return value `0`. -/
inductive MemSend
  | error
  | chunk (bytes : List UInt8)
  deriving DecidableEq

/-- `nghttp2_settings_entry`. -/
structure SettingsEntry where
  settingsId : ℕ
  value : ℕ
  deriving DecidableEq

/-- `NGHTTP2_SETTINGS_MAX_CONCURRENT_STREAMS`. -/
def settingsMaxConcurrentStreams : ℕ := 3

/-- `MAX_CONCURRENT_STREAMS`. -/
def maxConcurrentStreams : ℕ := 100

/-- The functions of nghttp2 that the session calls, over library states `G`. -/
structure Nghttp2 (G : Type) where
  /-- `nghttp2_session_callbacks_new`: its return value. -/
  callbacksNew : G → ℤ × G
  /-- `nghttp2_session_server_new`: its return value. -/
  sessionServerNew : G → ℤ × G
  /-- `nghttp2_submit_settings`; the session ignores its return value. -/
  submitSettings : SettingsEntry → G → G
  /-- `nghttp2_session_mem_recv`: its return value and the callbacks it fires. -/
  memRecv : List UInt8 → G → ℤ × List Callback × G
  /-- `nghttp2_session_mem_send`: its result and the callbacks it fires. -/
  memSend : G → MemSend × List Callback × G
  /-- `nghttp2_session_want_read`. -/
  wantRead : G → Bool
  /-- `nghttp2_session_want_write`. -/
  wantWrite : G → Bool
  /-- What byte `i` behind the pointer of call number `call` of `mem_send` reads as
  once that call is not the last one any more. -/
  stale : (call i : ℕ) → UInt8

/-- Every chunk that `mem_send` returns has at most `N` bytes. -/
def Nghttp2.ChunksAtMost {G : Type} (ng : Nghttp2 G) (N : ℕ) : Prop :=
  ∀ g bytes, (ng.memSend g).1 = .chunk bytes → bytes.length ≤ N

/-- `pending` is a correct account of output not yet taken: `mem_send` returns `0`
only when nothing is pending after it. -/
def Nghttp2.ReportsPending {G : Type} (ng : Nghttp2 G) (pending : G → Prop) : Prop :=
  ∀ g, (ng.memSend g).1 = .chunk [] → ¬ pending (ng.memSend g).2.2

end Http2Asio
