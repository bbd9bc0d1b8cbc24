import Http2Asio.Session.StreamTable

/-!
# When the end of a request is signalled

A request reaches the session as a HEADERS frame of category `request`, any number
of DATA frames with their chunks, and possibly a trailing HEADERS frame of category
`headers`; the last of these frames carries `END_STREAM`.  `ReceivedRequest id` is
such a sequence of frames on stream `id`, well-formed by its fields, and `callbacks`
is what nghttp2 reports of it.  The other streams' callbacks may come in between
in any order: only the part of the run that is received on `id` is fixed.

`SignalsEndOnce` asks for `end_of_stream` exactly once on the stream's object, on
the frame with `END_STREAM`, as the last of the calls that carry the request.
`on_frame_recv_callback` tests the flag on DATA frames and on request HEADERS but
not on trailing HEADERS, so a request has its end signalled exactly when it has no
trailers (`signalsEndOnce_iff`).

The proof reads the calls off the callbacks: while a stream is open, its object gets
the calls of the callbacks on its id and nothing else (`held_runCallbacks`).
-/

namespace Http2Asio

open Ownership

/-! ## Requests as they are received -/

/-- A header field as `on_header_callback` gets it. -/
structure HeaderField where
  name : List UInt8
  value : List UInt8
  flags : UInt8

/-- A HEADERS frame with its fields. -/
structure ReceivedHeaders where
  frame : Frame
  fields : List HeaderField

/-- A DATA frame with its chunks, each with the flags of its callback. -/
structure ReceivedData where
  frame : Frame
  chunks : List (UInt8 × List UInt8)

/-- What follows the `begin_headers` of a HEADERS frame. -/
def ReceivedHeaders.block (h : ReceivedHeaders) : List Callback :=
  h.fields.map (fun field => .header h.frame field.name field.value field.flags) ++
    [.frameRecv h.frame]

def ReceivedHeaders.callbacks (h : ReceivedHeaders) : List Callback :=
  .beginHeaders h.frame :: h.block

def ReceivedData.callbacks (d : ReceivedData) : List Callback :=
  d.chunks.map (fun chunk => .dataChunkRecv chunk.1 d.frame.streamId chunk.2) ++
    [.frameRecv d.frame]

/-- A whole request on stream `id`. -/
structure ReceivedRequest (id : Int32) where
  headers : ReceivedHeaders
  data : List ReceivedData
  trailers : Option ReceivedHeaders
  headers_eq : headers.frame.streamId = id ∧ headers.frame.type = .headers ∧
    headers.frame.headersCat = .request
  data_eq : ∀ d ∈ data, d.frame.streamId = id ∧ d.frame.type = .data
  trailers_eq : ∀ t ∈ trailers, t.frame.streamId = id ∧ t.frame.type = .headers ∧
    t.frame.headersCat = .headers
  /-- `END_STREAM` is set on the last frame and on no other. -/
  endStream : ∀ front last,
    headers.frame :: (data.map (·.frame) ++ trailers.toList.map (·.frame)) = front ++ [last] →
      last.endStream = true ∧ ∀ frame ∈ front, frame.endStream = false

namespace ReceivedRequest

variable {id : Int32} (request : ReceivedRequest id)

/-- The callbacks after the opening `begin_headers`. -/
def body : List Callback :=
  request.headers.block ++ (request.data.flatMap ReceivedData.callbacks ++
    request.trailers.toList.flatMap ReceivedHeaders.callbacks)

/-- What nghttp2 reports of the request. -/
def callbacks : List Callback :=
  .beginHeaders request.headers.frame :: request.body

end ReceivedRequest

/-- The callback reports something received on stream `id`, or its close. -/
def Callback.received (id : Int32) : Callback → Bool
  | .frameSend _ => false
  | .frameNotSend _ _ => false
  | callback => callback.streamId = id

theorem Callback.Opens.received {callback : Callback} {id : Int32} (hopens : callback.Opens id) :
    callback.received id = true := by
  cases callback <;> simp_all [Callback.Opens, Callback.received, Callback.streamId]

theorem Callback.Closes.received {callback : Callback} {id : Int32}
    (hcloses : callback.Closes id) : callback.received id = true := by
  cases callback <;> simp_all [Callback.Closes, Callback.received, Callback.streamId]

/-- The calls that carry a request: all but the one about a promise sent. -/
def requestCalls (calls : List StreamCall) : List StreamCall :=
  calls.filter (· ≠ .pushPromiseSent)

/-- After `callbacks`, the object of stream `id` has had `end_of_stream` exactly once,
as the last call of the request, and it came with a frame that carries `END_STREAM`. -/
def SignalsEndOnce {G : Type} (s₀ : Http2Session G) (callbacks : List Callback) (id : Int32) :
    Prop :=
  ∃ stream calls, (s₀.runCallbacks callbacks).findStream id = some stream ∧
    Held (s₀.runCallbacks callbacks).ledger (.stream stream) calls ∧
    (∃ front, requestCalls calls = front ++ [.endOfStream] ∧ .endOfStream ∉ front) ∧
    ∀ earlier callback later entries, callbacks = earlier ++ callback :: later →
      ((s₀.runCallbacks earlier).runCallback callback).ledger =
        (s₀.runCallbacks earlier).ledger ++ entries →
      .use (.stream stream) .endOfStream ∈ entries →
        ∃ frame, callback = .frameRecv frame ∧ frame.streamId = id ∧ frame.endStream = true

/-! ## The calls an open stream gets -/

/-- The calls a callback makes on the object stored for `id`. -/
def Callback.callsOn (id : Int32) (callback : Callback) : List StreamCall :=
  if callback.streamId = id then callback.calls else []

namespace Http2Session

variable {G : Type} {s : Http2Session G} {stream : Http2Stream} {id : Int32}
  {calls : List StreamCall}

theorem held_runCallback {callback : Callback} (hall : s.Allocated)
    (hfound : s.findStream id = some stream) (hheld : Held s.ledger (.stream stream) calls)
    (hopens : ¬ callback.Opens id) (hcloses : ¬ callback.Closes id) :
    (s.runCallback callback).findStream id = some stream ∧
      Held (s.runCallback callback).ledger (.stream stream) (calls ++ callback.callsOn id) := by
  refine ⟨by rw [findStream_runCallback_of_other hopens hcloses, hfound], ?_⟩
  have heffect := runCallback_cases s callback
  generalize s.runCallback callback = t at heffect
  unfold Callback.callsOn
  cases heffect with
  | nothing _ _ hcalls =>
      -- about this stream, it can only be a callback that has no call for it
      split_ifs with hid
      · rcases hcalls with hnone | hcalls
        · rw [hid, hfound] at hnone
          cases hnone
        · simpa [hcalls] using hheld
      · simpa using hheld
  | create id' hopens' =>
      -- a stream under another identifier, at an address that is new
      have hne : id' ≠ id := by
        rintro rfl
        exact hopens hopens'
      rw [if_neg (by rw [hopens'.streamId_eq]; exact hne), List.append_nil]
      refine hheld.append_of_ne (object_ne_of_about about_makeStream ?_)
      exact (hall.ne_of_nextAddress_le hfound le_rfl).symm
  | deliver stream' c hfound' hcalls _ _ =>
      split_ifs with hid
      · rw [hid, hfound] at hfound'
        cases hfound'
        rw [hcalls]
        exact hheld.use c
      · rw [List.append_nil]
        exact hheld.append_of_ne
          (object_ne_of_about (about_call c) (hall.stored_ne hfound' hfound (Ne.symm hid)))
  | close stream' errorCode hcloses' hfound' =>
      have hne : callback.streamId ≠ id := by
        rintro rfl
        exact hcloses hcloses'
      rw [if_neg hne, List.append_nil, close_eq errorCode hfound']
      exact hheld.append_of_ne
        (object_ne_of_about (about_close errorCode) (hall.stored_ne hfound' hfound hne.symm))

/-- While a stream stays open, its object gets the calls of the callbacks on its id and
nothing else. -/
theorem held_runCallbacks (callbacks : List Callback) (hall : s.Allocated)
    (hfound : s.findStream id = some stream) (hheld : Held s.ledger (.stream stream) calls)
    (hother : ∀ c ∈ callbacks, ¬ c.Opens id ∧ ¬ c.Closes id) :
    (s.runCallbacks callbacks).findStream id = some stream ∧
      Held (s.runCallbacks callbacks).ledger (.stream stream)
        (calls ++ callbacks.flatMap (Callback.callsOn id)) := by
  induction callbacks generalizing s calls with
  | nil => exact ⟨hfound, by simpa using hheld⟩
  | cons callback callbacks ih =>
      obtain ⟨hopens, hcloses⟩ := hother callback (List.mem_cons_self ..)
      obtain ⟨hfound', hheld'⟩ := held_runCallback hall hfound hheld hopens hcloses
      rw [List.flatMap_cons, ← List.append_assoc]
      exact ih (hall.runCallback callback) hfound' hheld'
        fun c hc => hother c (List.mem_cons_of_mem _ hc)

/-- `end_of_stream` is called only by a received frame with `END_STREAM`, on the object
of its stream. -/
theorem frameRecv_of_endOfStream {callback : Callback}
    {entries : List (Entry Resource StreamCall)}
    (hledger : (s.runCallback callback).ledger = s.ledger ++ entries)
    (hmem : .use (.stream stream) .endOfStream ∈ entries) :
    ∃ frame, callback = .frameRecv frame ∧ s.findStream frame.streamId = some stream ∧
      frame.endStream = true := by
  have heffect := runCallback_cases s callback
  generalize s.runCallback callback = t at heffect hledger
  cases heffect with
  | nothing _ _ _ =>
      rw [List.self_eq_append_right] at hledger
      rw [hledger] at hmem
      cases hmem
  | create id _ =>
      rw [← List.append_cancel_left hledger, List.mem_singleton] at hmem
      cases hmem
  | deliver stream' c hfound hcalls _ _ =>
      rw [← List.append_cancel_left hledger, List.mem_singleton] at hmem
      cases hmem
      cases callback with
      | frameRecv frame =>
          refine ⟨frame, rfl, hfound, ?_⟩
          by_contra hend
          simp [Callback.calls, Frame.endsRequest, hend] at hcalls
      -- a frame that was sent may only tell of a push promise
      | frameSend frame =>
          simp only [Callback.calls] at hcalls
          split_ifs at hcalls
          simp at hcalls
      | _ => simp [Callback.calls] at hcalls
  | close stream' errorCode _ hfound =>
      rw [close_eq errorCode hfound] at hledger
      rw [← List.append_cancel_left hledger] at hmem
      simp at hmem

end Http2Session

/-! ## The calls of a request -/

/-- Of the calls on a stream, those of the request come from what is received on it. -/
theorem requestCalls_callsOn (callbacks : List Callback) (id : Int32) :
    requestCalls (callbacks.flatMap (Callback.callsOn id)) =
      (callbacks.filter (Callback.received id)).flatMap Callback.calls := by
  induction callbacks with
  | nil => rfl
  | cons callback callbacks ih =>
      rw [List.flatMap_cons, requestCalls, List.filter_append, ← requestCalls, ← requestCalls, ih]
      have hhead : requestCalls (callback.callsOn id) =
          if callback.received id then callback.calls else [] := by
        unfold Callback.callsOn
        cases callback
        all_goals
          simp only [Callback.received, Callback.calls, Callback.streamId]
          split_ifs <;> simp_all [requestCalls]
      rw [hhead, List.filter_cons]
      split_ifs
      · rw [List.flatMap_cons]
      · rfl

namespace ReceivedRequest

variable {id : Int32} (request : ReceivedRequest id)

theorem endsRequest_headers :
    request.headers.frame.endsRequest = request.headers.frame.endStream := by
  simp [Frame.endsRequest, request.headers_eq.2.1, request.headers_eq.2.2]

theorem endsRequest_data {d : ReceivedData} (hd : d ∈ request.data) :
    d.frame.endsRequest = d.frame.endStream := by
  simp [Frame.endsRequest, (request.data_eq d hd).2]

theorem endsRequest_trailers {t : ReceivedHeaders} (ht : t ∈ request.trailers) :
    t.frame.endsRequest = false := by
  simp [Frame.endsRequest, (request.trailers_eq t ht).2.1, (request.trailers_eq t ht).2.2]

theorem calls_block (h : ReceivedHeaders) :
    h.block.flatMap Callback.calls = if h.frame.endsRequest then [.endOfStream] else [] := by
  simp [ReceivedHeaders.block, Callback.calls]

theorem calls_data {d : ReceivedData} (hd : d ∈ request.data) :
    d.callbacks.flatMap Callback.calls =
      d.chunks.map (fun chunk => .onData chunk.2) ++
        if d.frame.endStream then [.endOfStream] else [] := by
  have hchunks : (d.chunks.map
      (fun chunk => Callback.dataChunkRecv chunk.1 d.frame.streamId chunk.2)).flatMap
        Callback.calls = d.chunks.map (fun chunk => .onData chunk.2) := by
    induction d.chunks with
    | nil => rfl
    | cons chunk chunks ih => simp [Callback.calls, ih]
  rw [ReceivedData.callbacks, List.flatMap_append, hchunks, List.flatMap_singleton,
    Callback.calls, request.endsRequest_data hd]

theorem calls_trailers :
    (request.trailers.toList.flatMap ReceivedHeaders.callbacks).flatMap Callback.calls = [] := by
  cases htrailers : request.trailers with
  | none => rfl
  | some t =>
      have hend := request.endsRequest_trailers htrailers
      simp [ReceivedHeaders.callbacks, Callback.calls, calls_block, hend]

/-- The calls of DATA frames without `END_STREAM` are the chunks. -/
theorem calls_data_of_not_endStream {ds : List ReceivedData} (hds : ∀ d ∈ ds, d ∈ request.data)
    (hend : ∀ d ∈ ds, d.frame.endStream = false) :
    (ds.flatMap ReceivedData.callbacks).flatMap Callback.calls =
      ds.flatMap fun d => d.chunks.map fun chunk => .onData chunk.2 := by
  rw [List.flatMap_assoc]
  refine List.flatMap_congr fun d hd => ?_
  rw [request.calls_data (hds d hd), hend d hd]
  simp

/-- The calls the body of a request makes, frame by frame. -/
theorem calls_body :
    request.body.flatMap Callback.calls =
      (if request.headers.frame.endStream then [.endOfStream] else []) ++
        (request.data.flatMap ReceivedData.callbacks).flatMap Callback.calls := by
  rw [body, List.flatMap_append, calls_block, request.endsRequest_headers, List.flatMap_append,
    calls_trailers, List.append_nil]

/-- With trailers, the body of a request makes no call of `end_of_stream`. -/
theorem endOfStream_not_mem_calls {t : ReceivedHeaders} (htrailers : request.trailers = some t) :
    .endOfStream ∉ request.body.flatMap Callback.calls := by
  obtain ⟨-, hfront⟩ := request.endStream
    (request.headers.frame :: request.data.map (·.frame)) t.frame (by simp [htrailers])
  have hheaders : request.headers.frame.endStream = false := hfront _ (List.mem_cons_self ..)
  have hdata : ∀ d ∈ request.data, d.frame.endStream = false := fun d hd =>
    hfront _ (List.mem_cons_of_mem _ (List.mem_map_of_mem hd))
  rw [calls_body, hheaders, request.calls_data_of_not_endStream (fun d hd => hd) hdata]
  simp

/-- Without trailers, the last call of the body is `end_of_stream`, and only the last. -/
theorem calls_of_no_trailers (htrailers : request.trailers = none) :
    ∃ front, request.body.flatMap Callback.calls = front ++ [.endOfStream] ∧
      .endOfStream ∉ front := by
  rw [calls_body]
  rcases List.eq_nil_or_concat' request.data with hdata | ⟨ds, d, hdata⟩
  · have hheaders := (request.endStream [] request.headers.frame (by simp [hdata, htrailers])).1
    exact ⟨[], by simp [hdata, hheaders], by simp⟩
  · obtain ⟨hlast, hfront⟩ := request.endStream
      (request.headers.frame :: ds.map (·.frame)) d.frame (by simp [hdata, htrailers])
    have hheaders : request.headers.frame.endStream = false := hfront _ (List.mem_cons_self ..)
    have hds : ∀ d' ∈ ds, d'.frame.endStream = false := fun d' hd' =>
      hfront _ (List.mem_cons_of_mem _ (List.mem_map_of_mem hd'))
    have hmem : ∀ d' ∈ ds, d' ∈ request.data := by
      intro d' hd'
      rw [hdata]
      exact List.mem_append_left _ hd'
    refine ⟨(ds.flatMap fun d => d.chunks.map fun chunk => .onData chunk.2) ++
      d.chunks.map fun chunk => .onData chunk.2, ?_, by simp⟩
    have hd : d ∈ request.data := by simp [hdata]
    rw [hheaders, hdata, List.flatMap_append, List.flatMap_append, List.flatMap_singleton,
      request.calls_data_of_not_endStream hmem hds, request.calls_data hd, hlast]
    simp

/-- Nothing in the body of a request opens or closes a stream. -/
theorem not_opens_or_closes_of_mem_body {callback : Callback} (hmem : callback ∈ request.body)
    (id' : Int32) : ¬ callback.Opens id' ∧ ¬ callback.Closes id' := by
  have hblock : ∀ h : ReceivedHeaders, ∀ c ∈ h.block, ¬ c.Opens id' ∧ ¬ c.Closes id' := by
    intro h c hc
    simp only [ReceivedHeaders.block, List.mem_append, List.mem_map, List.mem_singleton] at hc
    rcases hc with ⟨field, -, rfl⟩ | rfl <;> exact ⟨not_false, not_false⟩
  have hdata : ∀ d : ReceivedData, ∀ c ∈ d.callbacks, ¬ c.Opens id' ∧ ¬ c.Closes id' := by
    intro d c hc
    simp only [ReceivedData.callbacks, List.mem_append, List.mem_map, List.mem_singleton] at hc
    rcases hc with ⟨chunk, -, rfl⟩ | rfl <;> exact ⟨not_false, not_false⟩
  simp only [body, List.mem_append, List.mem_flatMap] at hmem
  rcases hmem with hmem | ⟨d, -, hmem⟩ | ⟨t, ht, hmem⟩
  · exact hblock _ callback hmem
  · exact hdata d callback hmem
  · rcases List.mem_cons.mp hmem with rfl | hmem
    · refine ⟨?_, not_false⟩
      rintro ⟨-, hrequest, -⟩
      rw [(request.trailers_eq t (Option.mem_toList.mp ht)).2.2] at hrequest
      cases hrequest
    · exact hblock t callback hmem

theorem opens : (Callback.beginHeaders request.headers.frame).Opens id :=
  ⟨request.headers_eq.2.1, request.headers_eq.2.2, request.headers_eq.1⟩

end ReceivedRequest

/-! ## The calls of a received request -/

namespace Http2Session

variable {G : Type} {s s₀ : Http2Session G} {id : Int32} {callbacks : List Callback}

theorem held_of_opens {callback : Callback} (hall : s.Allocated) (hopens : callback.Opens id) :
    Held (s.runCallback callback).ledger (.stream ⟨s.nextAddress, id⟩) [] := by
  have heffect := runCallback_cases s callback
  generalize s.runCallback callback = t at heffect
  cases heffect with
  | nothing hnot _ _ => exact absurd hopens (hnot id)
  | create id' hopens' =>
      have hid : id = id' := hopens.streamId_eq.symm.trans hopens'.streamId_eq
      rw [hid]
      exact (hall.unborn ⟨s.nextAddress, id'⟩ le_rfl).acquire
  | deliver _ _ _ _ hnot _ => exact absurd hopens (hnot id)
  | close _ _ hcloses _ => exact absurd hcloses hopens.not_closes

/-- After a request received on `id`, its object is held and has had the calls of the
request's body. -/
theorem exists_calls_of_received (hfresh : s₀.Fresh) (request : ReceivedRequest id)
    (hreceived : callbacks.filter (Callback.received id) = request.callbacks) :
    ∃ stream calls, (s₀.runCallbacks callbacks).findStream id = some stream ∧
      Held (s₀.runCallbacks callbacks).ledger (.stream stream) calls ∧
      requestCalls calls = request.body.flatMap Callback.calls := by
  obtain ⟨earlier, later, rfl, -, -, hbody⟩ := List.filter_eq_cons_iff.mp hreceived
  have hother : ∀ c ∈ later, ¬ c.Opens id ∧ ¬ c.Closes id := by
    intro c hc
    have hbodyOther : c.received id = true → ¬ c.Opens id ∧ ¬ c.Closes id := fun hrec =>
      request.not_opens_or_closes_of_mem_body
        (by rw [← hbody]; exact List.mem_filter.mpr ⟨hc, hrec⟩) id
    exact ⟨fun hopens => (hbodyOther hopens.received).1 hopens,
      fun hcloses => (hbodyOther hcloses.received).2 hcloses⟩
  have hall := hfresh.allocated.runCallbacks earlier
  obtain ⟨hfound, hheld⟩ := held_runCallbacks later (hall.runCallback _)
    (findStream_runCallback_of_opens request.opens) (held_of_opens hall request.opens) hother
  rw [runCallbacks_append]
  exact ⟨_, _, hfound, hheld, by rw [List.nil_append, requestCalls_callsOn, hbody]⟩

/-- **The end of a request is signalled exactly once if and only if the request has no
trailers.**  The request may be interleaved in any way with the other streams. -/
theorem signalsEndOnce_iff (hfresh : s₀.Fresh) (request : ReceivedRequest id)
    (hreceived : callbacks.filter (Callback.received id) = request.callbacks) :
    SignalsEndOnce s₀ callbacks id ↔ request.trailers = none := by
  obtain ⟨stream, calls, hfound, hheld, hcalls⟩ :=
    exists_calls_of_received hfresh request hreceived
  constructor
  · rintro ⟨stream', calls', hfound', hheld', ⟨front, hfront, -⟩, -⟩
    rw [hfound] at hfound'
    cases hfound'
    rw [← hheld.calls_eq hheld', hcalls] at hfront
    cases htrailers : request.trailers with
    | none => rfl
    | some t =>
        refine absurd ?_ (request.endOfStream_not_mem_calls htrailers)
        rw [hfront]
        simp
  · intro htrailers
    refine ⟨stream, calls, hfound, hheld, ?_, ?_⟩
    · rw [hcalls]
      exact request.calls_of_no_trailers htrailers
    · intro earlier callback later entries hsplit hledger hmem
      obtain ⟨frame, rfl, hfound', hend⟩ := frameRecv_of_endOfStream hledger hmem
      have hid := ((hfresh.allocated.runCallbacks callbacks).stored id stream hfound).1
      have hid' := ((hfresh.allocated.runCallbacks earlier).stored _ stream hfound').1
      exact ⟨frame, rfl, hid'.symm.trans hid, hend⟩

/-! ## A request with a body, and the same one with trailers -/

/-- A HEADERS or DATA frame on stream 1. -/
def frameOne (type : FrameType) (flags : UInt8) (headersCat : HeadersCategory) : Frame :=
  ⟨1, type, flags, headersCat, 0⟩

/-- HEADERS, then a last DATA frame. -/
def requestWithBody : ReceivedRequest 1 where
  headers := ⟨frameOne .headers 4 .request, [⟨[58, 109], [80], 0⟩]⟩
  data := [⟨frameOne .data 1 .request, [(0, [104, 105])]⟩]
  trailers := none
  headers_eq := ⟨rfl, rfl, rfl⟩
  data_eq := by simp [frameOne]
  trailers_eq := by simp
  endStream := by
    intro front last hsplit
    have hsplit' : [_] ++ [_] = front ++ [last] := hsplit
    obtain ⟨rfl, hlast⟩ := List.append_inj' hsplit' rfl
    cases hlast
    exact ⟨rfl, by decide⟩

/-- HEADERS, a DATA frame, then trailers that end the stream. -/
def requestWithTrailers : ReceivedRequest 1 where
  headers := ⟨frameOne .headers 4 .request, [⟨[58, 109], [80], 0⟩]⟩
  data := [⟨frameOne .data 0 .request, [(0, [104, 105])]⟩]
  trailers := some ⟨frameOne .headers 5 .headers, [⟨[120], [121], 0⟩]⟩
  headers_eq := ⟨rfl, rfl, rfl⟩
  data_eq := by simp [frameOne]
  trailers_eq := by simp [frameOne]
  endStream := by
    intro front last hsplit
    have hsplit' : [_, _] ++ [_] = front ++ [last] := hsplit
    obtain ⟨rfl, hlast⟩ := List.append_inj' hsplit' rfl
    cases hlast
    exact ⟨rfl, by decide⟩

/-- Another request begins between the header block and the body of the first. -/
theorem signalsEndOnce_requestWithBody :
    SignalsEndOnce (make ())
      [.beginHeaders (frameOne .headers 4 .request),
        .header (frameOne .headers 4 .request) [58, 109] [80] 0,
        .frameRecv (frameOne .headers 4 .request), .beginHeaders ⟨3, .headers, 5, .request, 0⟩,
        .dataChunkRecv 0 1 [104, 105], .frameRecv ⟨3, .headers, 5, .request, 0⟩,
        .frameRecv (frameOne .data 1 .request)] 1 :=
  (signalsEndOnce_iff (fresh_make ()) requestWithBody rfl).mpr rfl

/-- Not every request has its end signalled: nothing is called on trailers that carry
`END_STREAM`. -/
theorem not_signalsEndOnce_requestWithTrailers :
    ¬ ∀ (request : ReceivedRequest 1) (callbacks : List Callback),
      callbacks.filter (Callback.received 1) = request.callbacks →
        SignalsEndOnce (make ()) callbacks 1 := by
  intro hall
  obtain ⟨stream, calls, -, hheld, ⟨front, hfront, -⟩, -⟩ :=
    hall requestWithTrailers requestWithTrailers.callbacks rfl
  have hcall : .endOfStream ∈ calls := by
    have hmem : .endOfStream ∈ requestCalls calls := by simp [hfront]
    exact List.mem_of_mem_filter hmem
  have hentry : .use (.stream stream) .endOfStream ∈
      ((make ()).runCallbacks requestWithTrailers.callbacks).ledger := by
    have hhistory : .use (.stream stream) .endOfStream ∈
        history ((make ()).runCallbacks requestWithTrailers.callbacks).ledger (.stream stream) := by
      rw [hheld]
      exact List.mem_cons_of_mem _ (List.mem_map_of_mem hcall)
    exact List.mem_of_mem_filter hhistory
  have hledger : ((make ()).runCallbacks requestWithTrailers.callbacks).ledger =
      [.acquire (.stream ⟨0, 1⟩), .use (.stream ⟨0, 1⟩) (.onData [104, 105])] := by
    decide
  rw [hledger] at hentry
  simp at hentry

end Http2Session

end Http2Asio
