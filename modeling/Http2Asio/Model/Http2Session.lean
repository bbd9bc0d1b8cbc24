import Mathlib.Data.List.AList
import Http2Asio.Ownership.Ledger
import Http2Asio.Model.Nghttp2

/-!
# `http2_session`

The session of `http2_session.hpp` and `http2_session.cpp`: the stream table with
the callbacks that maintain it, and the two byte paths `on_read` and `on_write`.

Beside the fields of the class the state carries history that no function reads
back: the ledger of the objects the session has acquired, and of `mem_send` the
chunks returned, the number of calls and the reads through its pointers.  The
number of calls stands for the validity of a pointer: `outputData` remembers the
call that produced it, and it is good as long as that call is the last one.

A buffer is the list of the bytes initialised so far, from index 0; the array
itself has no initialiser in the source.  `copyN` writes at an offset, and a list
longer than the capacity records a copy past the end of the array.

Nothing in this file calls `write_signal_`: `signal_write` only says whether it
would be called.  The calls made from inside callbacks are the subject of
`Reentrancy/Machine.lean`.
-/

namespace Http2Asio

open Ownership

/-- `http2_stream *`: the address of the object and its constant `stream_id_`. -/
structure Http2Stream where
  address : ℕ
  streamId : Int32
  deriving DecidableEq

/-- The member functions of `http2_stream`; all have empty bodies in the source. -/
inductive StreamCall
  | onData (data : List UInt8)
  | endOfStream
  | onClose (errorCode : UInt32)
  | pushPromiseSent
  deriving DecidableEq

/-- What a session owns: its streams, the callbacks structure while `start` runs,
and the nghttp2 session. -/
inductive Resource
  | stream (stream : Http2Stream)
  | callbacks
  | session
  deriving DecidableEq

/-- The pointer set by call number `call` of `nghttp2_session_mem_send`. -/
structure OutputPointer where
  call : ℕ
  deriving DecidableEq

/-- What has become of the chunks of `nghttp2_session_mem_send`. -/
structure SendHistory where
  /-- The number of calls so far. -/
  calls : ℕ := 0
  /-- The bytes at the pointer of the last call. -/
  area : List UInt8 := []
  /-- Every chunk returned so far. -/
  returned : List (List UInt8) := []
  /-- Every read through a pointer: the pointer and the number of calls by then. -/
  reads : List (OutputPointer × ℕ) := []

/-- One more call of `nghttp2_session_mem_send`. -/
def SendHistory.record (h : SendHistory) : MemSend → SendHistory
  | .error => { h with calls := h.calls + 1, area := [] }
  | .chunk bytes =>
      { h with calls := h.calls + 1, area := bytes, returned := h.returned ++ [bytes] }

/-- `http2_session`.  `session` is all that the library keeps, also before there is an
nghttp2 session. -/
structure Http2Session (G : Type) where
  session : G
  /-- `session_` points to an nghttp2 session. -/
  hasSession : Bool := false
  outputData : Option OutputPointer := none
  outputSize : ℕ := 0
  callbackInside : Bool := false
  streamMap : AList (fun _ : Int32 => Http2Stream) := ∅
  /-- The next address that `new` returns. -/
  nextAddress : ℕ := 0
  ledger : List (Entry Resource StreamCall) := []
  sends : SendHistory := {}

namespace Http2Session

variable {G : Type}

/-! ## The stream table -/

/-- Append to the ledger. -/
def note (s : Http2Session G) (entry : Entry Resource StreamCall) : Http2Session G :=
  { s with ledger := s.ledger ++ [entry] }

/-- Call a member function of a stream. -/
def call (s : Http2Session G) (stream : Http2Stream) (c : StreamCall) : Http2Session G :=
  s.note (.use (.stream stream) c)

/-- `make_stream`: an entry already stored under the id is overwritten. -/
def makeStream (s : Http2Session G) (streamId : Int32) : Http2Session G :=
  let stream : Http2Stream := ⟨s.nextAddress, streamId⟩
  { s with
    nextAddress := s.nextAddress + 1
    streamMap := s.streamMap.insert streamId stream
    ledger := s.ledger ++ [.acquire (.stream stream)] }

/-- `find_stream`. -/
def findStream (s : Http2Session G) (streamId : Int32) : Option Http2Stream :=
  s.streamMap.lookup streamId

/-- `destroy_stream`. -/
def destroyStream (s : Http2Session G) (streamId : Int32) : Http2Session G :=
  match s.findStream streamId with
  | none => s
  | some stream =>
      { s with
        ledger := s.ledger ++ [.release (.stream stream)]
        streamMap := s.streamMap.erase streamId }

/-- `~http2_session`: only the streams are released. -/
def destroy (s : Http2Session G) : Http2Session G :=
  { s with ledger := s.ledger ++ s.streamMap.entries.map fun e => .release (.stream e.2) }

/-! ## The nghttp2 callbacks

All return `0`, so the library never sees a failure from them. -/

/-- `on_begin_headers_callback`. -/
def onBeginHeadersCallback (s : Http2Session G) (frame : Frame) : Http2Session G :=
  if frame.type ≠ .headers ∨ frame.headersCat ≠ .request then s
  else s.makeStream frame.streamId

/-- `on_header_callback`: what follows the look-up is a comment in the source. -/
def onHeaderCallback (s : Http2Session G) (frame : Frame) : Http2Session G :=
  if frame.type ≠ .headers ∨ frame.headersCat ≠ .request then s
  else
    match s.findStream frame.streamId with
    | none => s
    | some _ => s

/-- `on_frame_recv_callback`. -/
def onFrameRecvCallback (s : Http2Session G) (frame : Frame) : Http2Session G :=
  match s.findStream frame.streamId with
  | none => s
  | some stream =>
      match frame.type with
      | .data => if frame.endStream then s.call stream .endOfStream else s
      | .headers =>
          if frame.headersCat = .request then
            if frame.endStream then s.call stream .endOfStream else s
          else s
      | _ => s

/-- `on_data_chunk_recv_callback`. -/
def onDataChunkRecvCallback (s : Http2Session G) (streamId : Int32) (data : List UInt8) :
    Http2Session G :=
  match s.findStream streamId with
  | none => s
  | some stream => s.call stream (.onData data)

/-- `on_stream_close_callback`. -/
def onStreamCloseCallback (s : Http2Session G) (streamId : Int32) (errorCode : UInt32) :
    Http2Session G :=
  match s.findStream streamId with
  | none => s
  | some stream => (s.call stream (.onClose errorCode)).destroyStream streamId

/-- `on_frame_send_callback`. -/
def onFrameSendCallback (s : Http2Session G) (frame : Frame) : Http2Session G :=
  if frame.type ≠ .pushPromise then s
  else
    match s.findStream frame.promisedStreamId with
    | none => s
    | some stream => s.call stream .pushPromiseSent

/-- A callback, as registered by `start`.  `on_frame_not_send_callback` only submits
a `RST_STREAM` to the library, which is part of the library call that fired it. -/
def runCallback (s : Http2Session G) : Callback → Http2Session G
  | .beginHeaders frame => s.onBeginHeadersCallback frame
  | .header frame _ _ _ => s.onHeaderCallback frame
  | .frameRecv frame => s.onFrameRecvCallback frame
  | .dataChunkRecv _ streamId data => s.onDataChunkRecvCallback streamId data
  | .streamClose streamId errorCode => s.onStreamCloseCallback streamId errorCode
  | .frameSend frame => s.onFrameSendCallback frame
  | .frameNotSend _ _ => s

/-- The callbacks of one library call, in the order in which they are fired. -/
def runCallbacks (s : Http2Session G) (callbacks : List Callback) : Http2Session G :=
  callbacks.foldl runCallback s

/-! ## Construction and start -/

/-- The constructor. -/
def make (g : G) : Http2Session G :=
  { session := g }

/-- `start`.  The callbacks structure is released by the `defer` on every way out
after it was created. -/
def start (ng : Nghttp2 G) (s : Http2Session G) : Bool × Http2Session G :=
  let (rv, g) := ng.callbacksNew s.session
  let s := { s with session := g }
  if rv ≠ 0 then (false, s)
  else
    let s := s.note (.acquire .callbacks)
    let (rv, g) := ng.sessionServerNew s.session
    let s := { s with session := g }
    if rv ≠ 0 then (false, s.note (.release .callbacks))
    else
      let s := { s with hasSession := true }.note (.acquire .session)
      let entry : SettingsEntry := ⟨settingsMaxConcurrentStreams, maxConcurrentStreams⟩
      let s := { s with session := ng.submitSettings entry s.session }
      (true, s.note (.release .callbacks))

/-! ## Reading, writing and the write signal

The calls of nghttp2 in this section are those that the library answers.  They pass it
`session_`, and it reads what that points to: without a session there is no answer, and
what a call of `on_read` or `on_write` does then is said where the life of a session is
described, in `Session/Release.lean`. -/

/-- Construction of a `callback_guard`. -/
def enterGuard (s : Http2Session G) : Http2Session G :=
  { s with callbackInside := true }

/-- Destruction of a `callback_guard`. -/
def leaveGuard (s : Http2Session G) : Http2Session G :=
  { s with callbackInside := false }

/-- The call of `nghttp2_session_mem_recv`. -/
def memRecv (ng : Nghttp2 G) (s : Http2Session G) (bytes : List UInt8) : ℤ × Http2Session G :=
  let (rv, callbacks, g) := ng.memRecv bytes s.session
  (rv, { s with session := g }.runCallbacks callbacks)

/-- The call of `nghttp2_session_mem_send`. -/
def memSend (ng : Nghttp2 G) (s : Http2Session G) : MemSend × Http2Session G :=
  let (result, callbacks, g) := ng.memSend s.session
  (result, { s with session := g, sends := s.sends.record result }.runCallbacks callbacks)

/-- `nread` bytes through a pointer of `mem_send`. -/
def readOutput (ng : Nghttp2 G) (s : Http2Session G) (data : OutputPointer) (nread : ℕ) :
    List UInt8 :=
  if data.call = s.sends.calls then s.sends.area.take nread
  else (List.range nread).map (ng.stale data.call)

/-- Remember a read through a pointer of `mem_send`. -/
def noteRead (s : Http2Session G) (data : OutputPointer) : Http2Session G :=
  { s with sends := { s.sends with reads := s.sends.reads ++ [(data, s.sends.calls)] } }

/-- `on_read` over the first `length` bytes of a buffer. -/
def onRead (ng : Nghttp2 G) (s : Http2Session G) (bytes : List UInt8) : Bool × Http2Session G :=
  let (rv, s) := s.enterGuard.memRecv ng bytes
  (decide (0 ≤ rv), s.leaveGuard)

end Http2Session

/-- `std::copy_n` of some bytes to `begin(buffer) + offset`. -/
def copyN (bytes : List UInt8) (offset : ℕ) (buffer : List UInt8) : List UInt8 :=
  buffer.take offset ++ bytes ++ buffer.drop (offset + bytes.length)

theorem take_copyN {bytes buffer : List UInt8} {offset : ℕ} (hoffset : offset ≤ buffer.length) :
    (copyN bytes offset buffer).take (offset + bytes.length) = buffer.take offset ++ bytes := by
  have hlength : (buffer.take offset ++ bytes).length = offset + bytes.length := by
    rw [List.length_append, List.length_take, min_eq_left hoffset]
  rw [copyN, ← hlength, List.take_left]

theorem le_length_copyN {bytes buffer : List UInt8} {offset : ℕ}
    (hoffset : offset ≤ buffer.length) :
    offset + bytes.length ≤ (copyN bytes offset buffer).length := by
  simp only [copyN, List.length_append, List.length_take, List.length_drop]
  omega

/-- What an `on_write` leaves behind: its return value, the referenced `length`, the
buffer, and the handler. -/
structure WriteResult (H : Type) where
  ok : Bool
  length : ℕ
  buffer : List UInt8
  handler : H

namespace Http2Session

variable {G : Type}

/-- The head of `on_write`: the stash, if there is one, goes to the front of the
buffer. -/
def takeStash (ng : Nghttp2 G) (s : Http2Session G) (buffer : List UInt8) :
    ℕ × List UInt8 × Http2Session G :=
  match s.outputData with
  | none => (0, buffer, s)
  | some data =>
      (s.outputSize, copyN (s.readOutput ng data s.outputSize) 0 buffer,
        { s.noteRead data with outputData := none, outputSize := 0 })

/-- The loop of `on_write` over a buffer of capacity `N`, for at most `fuel` rounds;
`none` when it has not ended by then. -/
def onWriteLoop (ng : Nghttp2 G) (N : ℕ) :
    (fuel length : ℕ) → List UInt8 → Http2Session G → Option (WriteResult (Http2Session G))
  | 0, _, _, _ => none
  | fuel + 1, length, buffer, s =>
      match s.memSend ng with
      | (.error, s) => some ⟨false, length, buffer, s⟩
      | (.chunk bytes, s) =>
          let data : OutputPointer := ⟨s.sends.calls⟩
          let nread := bytes.length
          -- nghttp2 has nothing more to send
          if nread = 0 then some ⟨true, length, buffer, s⟩
          -- the chunk does not fit any more, and waits in library memory
          else if length + nread > N then
            some ⟨true, length, buffer, { s with outputData := some data, outputSize := nread }⟩
          else
            onWriteLoop ng N fuel (length + nread)
              (copyN (s.readOutput ng data nread) length buffer) (s.noteRead data)

/-- Every round that goes on fills at least one byte of the buffer, so the loop ends
within one round more than there is room. -/
theorem onWriteLoop_isSome (ng : Nghttp2 G) (N : ℕ) :
    ∀ (fuel length : ℕ) (buffer : List UInt8) (s : Http2Session G), N - length < fuel →
      (onWriteLoop ng N fuel length buffer s).isSome := by
  intro fuel
  induction fuel with
  | zero =>
      intro length buffer s hfuel
      omega
  | succ fuel ih =>
      intro length buffer s hfuel
      rw [onWriteLoop]
      split
      · rfl
      · dsimp only
        split_ifs with hdry hfull
        · rfl
        · rfl
        · exact ih _ _ _ (by omega)

/-- The loop of `on_write` from any point of it.  `onWriteLoop_isSome` is the reason why
`for (;;)` ends. -/
def onWriteFrom (ng : Nghttp2 G) (N length : ℕ) (buffer : List UInt8) (s : Http2Session G) :
    WriteResult (Http2Session G) :=
  (onWriteLoop ng N (N + 1) length buffer s).get (onWriteLoop_isSome ng N _ _ _ _ (by omega))

/-- `on_write` over a buffer of capacity `N`. -/
def onWrite (ng : Nghttp2 G) (N : ℕ) (s : Http2Session G) (buffer : List UInt8) :
    WriteResult (Http2Session G) :=
  let (length, buffer, s) := s.enterGuard.takeStash ng buffer
  let r := onWriteFrom ng N length buffer s
  { r with handler := r.handler.leaveGuard }

/-- `should_stop`. -/
def shouldStop (ng : Nghttp2 G) (s : Http2Session G) : Bool :=
  !ng.wantRead s.session && !ng.wantWrite s.session

/-- `signal_write`: whether it calls `write_signal_`. -/
def signalWrite (s : Http2Session G) : Bool :=
  !s.callbackInside

end Http2Session

end Http2Asio
