import Http2Asio.Transition.History
import Http2Asio.Model.Http2Session

/-!
# The stream table refines nghttp2's open request streams

nghttp2 announces a request stream with `begin_headers` and takes it back with
`stream_close`.  `IsOpen callbacks id` says which streams are open after a list of
callbacks, in those terms alone.  The table `stream_map_` of the session holds
exactly these ids, each with the object that was created for it, and the ledger of
the session shows that an object is called only while it is stored.

One callback does one of four things (`runCallback_cases`): nothing, store a new
object, call a stored object, or close one.  Everything about a run of callbacks
follows from two step lemmas over these cases: `findStream_runCallback` for the
table and `Accounted.runCallback` for the ledger.

The only ordering the results ask of the library is `Ordered`: a request
`begin_headers` comes only for an id that is not open.  A `stream_close` may come
for any id; for one that is not open it does nothing.
-/

namespace Http2Asio

open Ownership Transition

/-- A request `begin_headers` for stream `id`. -/
def Callback.Opens (id : Int32) : Callback → Prop
  | .beginHeaders frame =>
      frame.type = .headers ∧ frame.headersCat = .request ∧ frame.streamId = id
  | _ => False

/-- A `stream_close` for stream `id`. -/
def Callback.Closes (id : Int32) : Callback → Prop
  | .streamClose streamId _ => streamId = id
  | _ => False

/-- The stream a callback is about; a sent frame is about the stream it promises. -/
def Callback.streamId : Callback → Int32
  | .beginHeaders frame => frame.streamId
  | .header frame _ _ _ => frame.streamId
  | .frameRecv frame => frame.streamId
  | .dataChunkRecv _ streamId _ => streamId
  | .streamClose streamId _ => streamId
  | .frameSend frame => frame.promisedStreamId
  | .frameNotSend frame _ => frame.streamId

/-- The received frames on which `on_frame_recv_callback` ends a request. -/
def Frame.endsRequest (frame : Frame) : Bool :=
  frame.endStream &&
    (frame.type = .data || (frame.type = .headers && frame.headersCat = .request))

/-- The call a callback makes on the object stored under its id, a close apart. -/
def Callback.calls : Callback → List StreamCall
  | .frameRecv frame => if frame.endsRequest then [.endOfStream] else []
  | .dataChunkRecv _ _ data => [.onData data]
  | .frameSend frame => if frame.type = .pushPromise then [.pushPromiseSent] else []
  | _ => []

/-- After `callbacks`, stream `id` has had a request `begin_headers` and no later
`stream_close`. -/
def IsOpen (callbacks : List Callback) (id : Int32) : Prop :=
  ∃ earlier opening later, callbacks = earlier ++ opening :: later ∧ opening.Opens id ∧
    ∀ callback ∈ later, ¬ callback.Closes id

/-- The order nghttp2 keeps: a request begins only on an id that is not open. -/
def Ordered (callbacks : List Callback) : Prop :=
  Historically (fun earlier callback => ∀ id, callback.Opens id → ¬ IsOpen earlier id) callbacks

theorem not_isOpen_nil (id : Int32) : ¬ IsOpen [] id := by
  rintro ⟨earlier, opening, later, hsplit, -, -⟩
  simp at hsplit

theorem isOpen_append_singleton {callbacks : List Callback} {callback : Callback} {id : Int32} :
    IsOpen (callbacks ++ [callback]) id ↔
      callback.Opens id ∨ IsOpen callbacks id ∧ ¬ callback.Closes id := by
  constructor
  · rintro ⟨earlier, opening, later, hsplit, hopens, hlater⟩
    rcases List.eq_nil_or_concat' later with rfl | ⟨front, last, rfl⟩
    · obtain ⟨-, hlast⟩ := List.append_inj' hsplit rfl
      cases hlast
      exact Or.inl hopens
    · rw [← List.cons_append, ← List.append_assoc] at hsplit
      obtain ⟨hfront, hlast⟩ := List.append_inj' hsplit rfl
      cases hlast
      refine Or.inr ⟨⟨earlier, opening, front, hfront, hopens, ?_⟩, ?_⟩
      · intro c hc
        exact hlater c (by simp [hc])
      · exact hlater callback (by simp)
  · rintro (hopens | ⟨⟨earlier, opening, later, rfl, hopens, hlater⟩, hcloses⟩)
    · exact ⟨callbacks, callback, [], rfl, hopens, by simp⟩
    · refine ⟨earlier, opening, later ++ [callback], by simp, hopens, ?_⟩
      intro c hc
      rcases List.mem_append.mp hc with hc | hc
      · exact hlater c hc
      · rw [List.mem_singleton.mp hc]
        exact hcloses

theorem ordered_append_singleton {callbacks : List Callback} {callback : Callback} :
    Ordered (callbacks ++ [callback]) ↔
      Ordered callbacks ∧ ∀ id, callback.Opens id → ¬ IsOpen callbacks id :=
  historically_append_singleton

/-- nghttp2 may fire any callback that opens no stream. -/
theorem Ordered.append {callbacks : List Callback} {callback : Callback} (h : Ordered callbacks)
    (hopens : ∀ id, ¬ callback.Opens id) : Ordered (callbacks ++ [callback]) :=
  ordered_append_singleton.mpr ⟨h, fun id hid => absurd hid (hopens id)⟩

/-- A callback that opens a stream closes none. -/
theorem Callback.Opens.not_closes {callback : Callback} {id id' : Int32}
    (hopens : callback.Opens id) : ¬ callback.Closes id' := by
  cases callback <;> simp_all [Callback.Opens, Callback.Closes]

theorem Callback.Opens.streamId_eq {callback : Callback} {id : Int32}
    (hopens : callback.Opens id) : callback.streamId = id := by
  cases callback <;> simp_all [Callback.Opens, Callback.streamId]

theorem Callback.ne_onClose_of_calls {callback : Callback} {c : StreamCall}
    (hcalls : callback.calls = [c]) (e : UInt32) : c ≠ .onClose e := by
  rintro rfl
  cases callback <;> simp only [Callback.calls] at hcalls
  all_goals first | split_ifs at hcalls | skip
  all_goals simp at hcalls

theorem Callback.Closes.streamId_eq {callback : Callback} {id : Int32}
    (hcloses : callback.Closes id) : callback.streamId = id := by
  cases callback <;> simp_all [Callback.Closes, Callback.streamId]

namespace Http2Session

variable {G : Type} {s : Http2Session G} {stream : Http2Stream} {id : Int32}

/-! ## The table operations -/

@[simp] theorem call_streamMap (c : StreamCall) : (s.call stream c).streamMap = s.streamMap := rfl

@[simp] theorem call_nextAddress (c : StreamCall) :
    (s.call stream c).nextAddress = s.nextAddress := rfl

@[simp] theorem call_ledger (c : StreamCall) :
    (s.call stream c).ledger = s.ledger ++ [.use (.stream stream) c] := rfl

@[simp] theorem findStream_call (c : StreamCall) :
    (s.call stream c).findStream id = s.findStream id := rfl

theorem findStream_makeStream (id' : Int32) :
    (s.makeStream id').findStream id =
      if id = id' then some ⟨s.nextAddress, id'⟩ else s.findStream id := by
  unfold findStream makeStream
  split_ifs with heq
  · rw [heq]
    exact AList.lookup_insert s.streamMap
  · exact AList.lookup_insert_ne heq

theorem destroyStream_eq (hfound : s.findStream id = some stream) :
    s.destroyStream id =
      { s with
        ledger := s.ledger ++ [.release (.stream stream)]
        streamMap := s.streamMap.erase id } := by
  unfold destroyStream
  rw [hfound]

theorem findStream_destroyStream (id' : Int32) :
    (s.destroyStream id').findStream id = if id = id' then none else s.findStream id := by
  cases hfound : s.findStream id' with
  | none =>
      unfold destroyStream
      rw [hfound]
      dsimp only
      split_ifs with heq
      · rw [heq, hfound]
      · rfl
  | some stream =>
      rw [destroyStream_eq hfound]
      unfold findStream
      split_ifs with heq
      · rw [heq]
        exact AList.lookup_erase _ _
      · exact AList.lookup_erase_ne heq

/-! ## What one callback does -/

/-- The four things a callback can do. -/
inductive CallbackEffect (s : Http2Session G) (callback : Callback) : Http2Session G → Prop
  | nothing (hopens : ∀ id, ¬ callback.Opens id)
      (hcloses : ∀ id, callback.Closes id → s.findStream id = none)
      (hcalls : s.findStream callback.streamId = none ∨ callback.calls = []) :
      CallbackEffect s callback s
  | create (id : Int32) (hopens : callback.Opens id) :
      CallbackEffect s callback (s.makeStream id)
  | deliver (stream : Http2Stream) (c : StreamCall)
      (hfound : s.findStream callback.streamId = some stream) (hcalls : callback.calls = [c])
      (hopens : ∀ id, ¬ callback.Opens id) (hcloses : ∀ id, ¬ callback.Closes id) :
      CallbackEffect s callback (s.call stream c)
  | close (stream : Http2Stream) (errorCode : UInt32)
      (hcloses : callback.Closes callback.streamId)
      (hfound : s.findStream callback.streamId = some stream) :
      CallbackEffect s callback
        ((s.call stream (.onClose errorCode)).destroyStream callback.streamId)

theorem onFrameRecvCallback_eq (s : Http2Session G) (frame : Frame) :
    s.onFrameRecvCallback frame =
      match s.findStream frame.streamId with
      | none => s
      | some stream =>
          if frame.endsRequest then s.call stream .endOfStream else s := by
  unfold onFrameRecvCallback Frame.endsRequest
  cases s.findStream frame.streamId with
  | none => rfl
  | some stream =>
      cases htype : frame.type <;> cases hend : frame.endStream <;> simp_all

theorem runCallback_cases (s : Http2Session G) (callback : Callback) :
    CallbackEffect s callback (s.runCallback callback) := by
  cases callback with
  | beginHeaders frame =>
      simp only [runCallback, onBeginHeadersCallback]
      split_ifs with hskip
      · refine .nothing ?_ ?_ (Or.inr rfl)
        · rintro id ⟨htype, hcat, -⟩
          simp [htype, hcat] at hskip
        · exact fun id hcloses => hcloses.elim
      · rw [not_or, not_not, not_not] at hskip
        exact .create frame.streamId ⟨hskip.1, hskip.2, rfl⟩
  | header frame name value flags =>
      -- `on_header_callback` looks the stream up and leaves it alone
      have hsame : s.runCallback (.header frame name value flags) = s := by
        simp only [runCallback, onHeaderCallback]
        split
        · rfl
        · split <;> rfl
      rw [hsame]
      exact .nothing (fun id hopens => hopens) (fun id hcloses => hcloses.elim) (Or.inr rfl)
  | frameRecv frame =>
      rw [runCallback, onFrameRecvCallback_eq]
      cases hfound : s.findStream frame.streamId with
      | none =>
          exact .nothing (fun id hopens => hopens) (fun id hcloses => hcloses.elim) (Or.inl hfound)
      | some stream =>
          dsimp only
          split_ifs with hends
          · exact .deliver stream .endOfStream hfound (if_pos hends) (fun id hopens => hopens)
              (fun id hcloses => hcloses)
          · exact .nothing (fun id hopens => hopens) (fun id hcloses => hcloses.elim)
              (Or.inr (if_neg hends))
  | dataChunkRecv flags streamId data =>
      simp only [runCallback, onDataChunkRecvCallback]
      cases hfound : s.findStream streamId with
      | none =>
          exact .nothing (fun id hopens => hopens) (fun id hcloses => hcloses.elim) (Or.inl hfound)
      | some stream =>
          exact .deliver stream (.onData data) hfound rfl (fun id hopens => hopens)
            (fun id hcloses => hcloses)
  -- the only callback that takes a stream out of the table
  | streamClose streamId errorCode =>
      simp only [runCallback, onStreamCloseCallback]
      cases hfound : s.findStream streamId with
      | none =>
          refine .nothing (fun id hopens => hopens) ?_ (Or.inr rfl)
          -- the close of an identifier that is not in the table
          rintro id rfl
          exact hfound
      | some stream =>
          have hcloses : (Callback.streamClose streamId errorCode).Closes streamId := rfl
          exact CallbackEffect.close stream errorCode hcloses hfound
  | frameSend frame =>
      simp only [runCallback, onFrameSendCallback]
      split_ifs with htype
      · exact .nothing (fun id hopens => hopens) (fun id hcloses => hcloses.elim)
          (Or.inr (if_neg htype))
      · cases hfound : s.findStream frame.promisedStreamId with
        | none =>
            exact .nothing (fun id hopens => hopens) (fun id hcloses => hcloses.elim)
              (Or.inl hfound)
        | some stream =>
            exact .deliver stream .pushPromiseSent hfound (if_pos (not_not.mp htype))
              (fun id hopens => hopens) (fun id hcloses => hcloses)
  | frameNotSend frame errorCode =>
      exact .nothing (fun id hopens => hopens) (fun id hcloses => hcloses.elim) (Or.inr rfl)

/-! ## The table after one callback -/

variable {callback : Callback}

theorem findStream_runCallback_of_opens (hopens : callback.Opens id) :
    (s.runCallback callback).findStream id = some ⟨s.nextAddress, id⟩ := by
  have heffect := runCallback_cases s callback
  generalize s.runCallback callback = t at heffect
  cases heffect with
  | nothing hnot _ _ => exact absurd hopens (hnot id)
  | create id' hopens' =>
      have hid : id = id' := hopens.streamId_eq.symm.trans hopens'.streamId_eq
      rw [findStream_makeStream, if_pos hid, hid]
  | deliver _ _ _ _ hnot _ => exact absurd hopens (hnot id)
  | close _ _ hcloses _ => exact absurd hcloses hopens.not_closes

theorem findStream_runCallback_of_closes (hcloses : callback.Closes id) :
    (s.runCallback callback).findStream id = none := by
  have heffect := runCallback_cases s callback
  generalize s.runCallback callback = t at heffect
  cases heffect with
  | nothing _ hnone _ => exact hnone id hcloses
  | create id' hopens => exact absurd hcloses hopens.not_closes
  | deliver _ _ _ _ _ hnot => exact absurd hcloses (hnot id)
  | close _ _ _ _ => rw [findStream_destroyStream, if_pos hcloses.streamId_eq.symm]

theorem findStream_runCallback_of_other (hopens : ¬ callback.Opens id)
    (hcloses : ¬ callback.Closes id) :
    (s.runCallback callback).findStream id = s.findStream id := by
  have heffect := runCallback_cases s callback
  generalize s.runCallback callback = t at heffect
  cases heffect with
  | nothing _ _ _ => rfl
  | create id' hopens' =>
      have hne : id ≠ id' := by
        rintro rfl
        exact hopens hopens'
      rw [findStream_makeStream, if_neg hne]
  | deliver _ _ _ _ _ _ => rfl
  | close stream errorCode hcloses' _ =>
      have hne : id ≠ callback.streamId := by
        rintro rfl
        exact hcloses hcloses'
      rw [findStream_destroyStream, if_neg hne, findStream_call]

@[simp] theorem runCallbacks_nil : s.runCallbacks [] = s := rfl

theorem runCallbacks_append (front back : List Callback) :
    s.runCallbacks (front ++ back) = (s.runCallbacks front).runCallbacks back :=
  List.foldl_append

@[simp] theorem runCallbacks_append_singleton (callbacks : List Callback) :
    s.runCallbacks (callbacks ++ [callback]) = (s.runCallbacks callbacks).runCallback callback :=
  runCallbacks_append callbacks [callback]

/-! ## The lives of the stream objects -/

/-- The object is owned and has not been told of a close. -/
def Live (ledger : List (Entry Resource StreamCall)) (stream : Http2Stream) : Prop :=
  ∃ calls, Held ledger (.stream stream) calls ∧ ∀ e, .onClose e ∉ calls

/-- The object was closed: `on_close` was called once, as the last call, and the
object was deleted once, after it. -/
def Closed (ledger : List (Entry Resource StreamCall)) (stream : Http2Stream) : Prop :=
  ∃ calls e, Gone ledger (.stream stream) (calls ++ [.onClose e]) ∧ ∀ e', .onClose e' ∉ calls

/-- Stored objects keep their id and come from `new`; an address that `new` has not
returned yet is on nobody's ledger. -/
structure Allocated (s : Http2Session G) : Prop where
  stored : ∀ id stream, s.findStream id = some stream →
    stream.streamId = id ∧ stream.address < s.nextAddress
  unborn : ∀ stream, s.nextAddress ≤ stream.address → Unborn s.ledger (.stream stream)

/-- Every object on the ledger is stored and live, or closed. -/
structure Accounted (s : Http2Session G) : Prop where
  stored : ∀ id stream, s.findStream id = some stream → Live s.ledger stream
  absent : ∀ stream, s.findStream stream.streamId ≠ some stream →
    Unborn s.ledger (.stream stream) ∨ Closed s.ledger stream

/-- Every stored object is owned, and the calls made on it so far satisfy `p`. -/
def StoredWith (p : List StreamCall → Prop) (s : Http2Session G) : Prop :=
  ∀ id stream, s.findStream id = some stream →
    ∃ calls, Held s.ledger (.stream stream) calls ∧ p calls

theorem Accounted.storedWith (h : s.Accounted) :
    s.StoredWith fun calls => ∀ e, StreamCall.onClose e ∉ calls :=
  h.stored

/-- A session that has not had a stream. -/
structure Fresh (s : Http2Session G) : Prop where
  streamMap : s.streamMap = ∅
  unborn : ∀ stream, Unborn s.ledger (.stream stream)

variable {ledger entries : List (Entry Resource StreamCall)} {stream' : Http2Stream}
  {p : List StreamCall → Prop}

/-- Entries about `stream` are about no other object. -/
theorem object_ne_of_about (habout : ∀ entry ∈ entries, entry.object = Resource.stream stream)
    (hne : stream' ≠ stream) : ∀ entry ∈ entries, entry.object ≠ Resource.stream stream' := by
  intro entry hentry hobject
  rw [habout entry hentry] at hobject
  cases hobject
  exact hne rfl

theorem Live.append_of_about (hlive : Live ledger stream')
    (habout : ∀ entry ∈ entries, entry.object = Resource.stream stream)
    (hne : stream' ≠ stream) : Live (ledger ++ entries) stream' := by
  obtain ⟨calls, hheld, hcalls⟩ := hlive
  exact ⟨calls, hheld.append_of_ne (object_ne_of_about habout hne), hcalls⟩

theorem unborn_or_closed_append_of_about
    (h : Unborn ledger (.stream stream') ∨ Closed ledger stream')
    (habout : ∀ entry ∈ entries, entry.object = Resource.stream stream)
    (hne : stream' ≠ stream) :
    Unborn (ledger ++ entries) (.stream stream') ∨ Closed (ledger ++ entries) stream' := by
  have hother := object_ne_of_about habout hne
  rcases h with hunborn | ⟨calls, e, hgone, hcalls⟩
  · exact Or.inl (hunborn.append_of_ne hother)
  · exact Or.inr ⟨calls, e, hgone.append_of_ne hother, hcalls⟩

theorem Fresh.allocated (hfresh : s.Fresh) : s.Allocated where
  stored id stream hfound := by
    rw [findStream, hfresh.streamMap, AList.lookup_empty] at hfound
    cases hfound
  unborn stream _ := hfresh.unborn stream

theorem Fresh.accounted (hfresh : s.Fresh) : s.Accounted where
  stored id stream hfound := by
    rw [findStream, hfresh.streamMap, AList.lookup_empty] at hfound
    cases hfound
  absent stream _ := Or.inl (hfresh.unborn stream)

/-- Two streams stored under different ids are different objects. -/
theorem Allocated.stored_ne (h : s.Allocated) {id' : Int32}
    (hfound : s.findStream id = some stream) (hfound' : s.findStream id' = some stream')
    (hne : id' ≠ id) : stream' ≠ stream := by
  rintro rfl
  exact hne ((h.stored id' stream' hfound').1.symm.trans (h.stored id stream' hfound).1)

/-- An address `new` has not returned yet belongs to no stored object. -/
theorem Allocated.ne_of_nextAddress_le (h : s.Allocated) (hfound : s.findStream id = some stream)
    (hle : s.nextAddress ≤ stream'.address) : stream' ≠ stream := by
  rintro rfl
  exact absurd (h.stored id stream' hfound).2 (not_lt.mpr hle)

/-! ### Creation -/

theorem about_makeStream :
    ∀ entry ∈ [(.acquire (.stream ⟨s.nextAddress, id⟩) : Entry Resource StreamCall)],
      entry.object = Resource.stream ⟨s.nextAddress, id⟩ := by
  simp [Entry.object]

theorem Allocated.makeStream (h : s.Allocated) (id : Int32) : (s.makeStream id).Allocated := by
  constructor
  · intro id' stream hfound
    rw [findStream_makeStream] at hfound
    split_ifs at hfound with hid
    · cases hfound
      exact ⟨hid.symm, Nat.lt_succ_self _⟩
    · obtain ⟨hstreamId, haddress⟩ := h.stored id' stream hfound
      exact ⟨hstreamId, Nat.lt_succ_of_lt haddress⟩
  · intro stream haddress
    have hlt : s.nextAddress < stream.address := haddress
    refine (h.unborn stream (le_of_lt hlt)).append_of_ne (object_ne_of_about about_makeStream ?_)
    rintro rfl
    exact lt_irrefl _ hlt

theorem StoredWith.makeStream (h : s.StoredWith p) (hall : s.Allocated) (hnil : p [])
    (id : Int32) : (s.makeStream id).StoredWith p := by
  intro id' stream hfound
  rw [findStream_makeStream] at hfound
  split_ifs at hfound with hid
  · cases hfound
    exact ⟨[], (hall.unborn ⟨s.nextAddress, id⟩ le_rfl).acquire, hnil⟩
  · obtain ⟨calls, hheld, hcalls⟩ := h id' stream hfound
    refine ⟨calls, hheld.append_of_ne (object_ne_of_about about_makeStream ?_), hcalls⟩
    rintro rfl
    exact hid (hall.stored id' _ hfound).1.symm

theorem Accounted.makeStream (h : s.Accounted) (hall : s.Allocated)
    (hnone : s.findStream id = none) : (s.makeStream id).Accounted := by
  constructor
  · exact h.storedWith.makeStream hall (by simp) id
  · intro stream habsent
    have hne : stream ≠ ⟨s.nextAddress, id⟩ := by
      rintro rfl
      rw [findStream_makeStream, if_pos rfl] at habsent
      exact habsent rfl
    have habsent' : s.findStream stream.streamId ≠ some stream := by
      rw [findStream_makeStream] at habsent
      split_ifs at habsent with hid
      · rw [hid, hnone]
        simp
      · exact habsent
    exact unborn_or_closed_append_of_about (h.absent stream habsent') about_makeStream hne

/-! ### Calls -/

theorem about_call (c : StreamCall) :
    ∀ entry ∈ [Entry.use (.stream stream) c], entry.object = Resource.stream stream := by
  simp [Entry.object]

theorem Allocated.call (h : s.Allocated) (hfound : s.findStream id = some stream)
    (c : StreamCall) : (s.call stream c).Allocated where
  stored := h.stored
  unborn stream' haddress := (h.unborn stream' haddress).append_of_ne
    (object_ne_of_about (about_call c) (h.ne_of_nextAddress_le hfound haddress))

theorem StoredWith.call (h : s.StoredWith p) (hall : s.Allocated)
    (hfound : s.findStream id = some stream) {c : StreamCall}
    (happend : ∀ calls, p calls → p (calls ++ [c])) : (s.call stream c).StoredWith p := by
  intro id' stream' hfound'
  rw [findStream_call] at hfound'
  obtain ⟨calls, hheld, hcalls⟩ := h id' stream' hfound'
  by_cases hid : id' = id
  · subst hid
    rw [hfound] at hfound'
    cases hfound'
    exact ⟨calls ++ [c], hheld.use c, happend calls hcalls⟩
  · have hne : stream' ≠ stream := hall.stored_ne hfound hfound' hid
    exact ⟨calls, hheld.append_of_ne (object_ne_of_about (about_call c) hne), hcalls⟩

theorem Accounted.call (h : s.Accounted) (hall : s.Allocated)
    (hfound : s.findStream id = some stream) {c : StreamCall} (hclose : ∀ e, c ≠ .onClose e) :
    (s.call stream c).Accounted := by
  have hstreamId := (hall.stored id stream hfound).1
  constructor
  · refine h.storedWith.call hall hfound ?_
    intro calls hcalls e hmem
    rcases List.mem_append.mp hmem with hmem | hmem
    · exact hcalls e hmem
    · exact hclose e (List.mem_singleton.mp hmem).symm
  · intro stream' habsent
    have hne : stream' ≠ stream := by
      rintro rfl
      rw [findStream_call, hstreamId] at habsent
      exact habsent hfound
    exact unborn_or_closed_append_of_about (h.absent stream' habsent) (about_call c) hne

/-! ### Deletions -/

theorem about_destroyStream :
    ∀ entry ∈ [(.release (.stream stream) : Entry Resource StreamCall)],
      entry.object = Resource.stream stream := by
  simp [Entry.object]

theorem Allocated.destroyStream (h : s.Allocated) (hfound : s.findStream id = some stream) :
    (s.destroyStream id).Allocated := by
  constructor
  · intro id' stream' hfound'
    rw [findStream_destroyStream] at hfound'
    split_ifs at hfound'
    rw [destroyStream_eq hfound]
    exact h.stored id' stream' hfound'
  · intro stream' haddress
    rw [destroyStream_eq hfound] at haddress ⊢
    exact (h.unborn stream' haddress).append_of_ne
      (object_ne_of_about about_destroyStream (h.ne_of_nextAddress_le hfound haddress))

theorem StoredWith.destroyStream (h : s.StoredWith p) (hall : s.Allocated)
    (hfound : s.findStream id = some stream) : (s.destroyStream id).StoredWith p := by
  intro id' stream' hfound'
  rw [findStream_destroyStream] at hfound'
  split_ifs at hfound' with hid
  obtain ⟨calls, hheld, hcalls⟩ := h id' stream' hfound'
  have hne : stream' ≠ stream := hall.stored_ne hfound hfound' hid
  rw [destroyStream_eq hfound]
  exact ⟨calls, hheld.append_of_ne (object_ne_of_about about_destroyStream hne), hcalls⟩

/-! ### Closes -/

/-- The state after the call and the deletion of `on_stream_close_callback`. -/
theorem close_eq (errorCode : UInt32) (hfound : s.findStream id = some stream) :
    (s.call stream (.onClose errorCode)).destroyStream id =
      { s with
        ledger := s.ledger ++
          [.use (.stream stream) (.onClose errorCode), .release (.stream stream)]
        streamMap := s.streamMap.erase id } := by
  rw [destroyStream_eq
    (show (s.call stream (.onClose errorCode)).findStream id = some stream from hfound)]
  simp [call, note]

theorem about_close (errorCode : UInt32) :
    ∀ entry ∈ [Entry.use (.stream stream) (StreamCall.onClose errorCode),
      .release (.stream stream)], entry.object = Resource.stream stream := by
  simp [Entry.object]

theorem findStream_close (errorCode : UInt32) (id' : Int32) :
    ((s.call stream (.onClose errorCode)).destroyStream id).findStream id' =
      if id' = id then none else s.findStream id' := by
  rw [findStream_destroyStream, findStream_call]

theorem Allocated.close (h : s.Allocated) (errorCode : UInt32)
    (hfound : s.findStream id = some stream) :
    ((s.call stream (.onClose errorCode)).destroyStream id).Allocated :=
  (h.call hfound (.onClose errorCode)).destroyStream hfound

/-- A close makes `on_close` the last call on its object and deletes the object. -/
theorem Accounted.closed_of_close (h : s.Accounted) (errorCode : UInt32)
    (hfound : s.findStream id = some stream) :
    Closed ((s.call stream (.onClose errorCode)).destroyStream id).ledger stream := by
  obtain ⟨calls, hheld, hcalls⟩ := h.stored id stream hfound
  refine ⟨calls, errorCode, ?_, hcalls⟩
  rw [close_eq errorCode hfound]
  simpa using (hheld.use (.onClose errorCode)).release

theorem Accounted.close (h : s.Accounted) (hall : s.Allocated) (errorCode : UInt32)
    (hfound : s.findStream id = some stream) :
    ((s.call stream (.onClose errorCode)).destroyStream id).Accounted := by
  constructor
  · intro id' stream' hfound'
    rw [findStream_close] at hfound'
    split_ifs at hfound' with hid
    rw [close_eq errorCode hfound]
    exact (h.stored id' stream' hfound').append_of_about (about_close errorCode)
      (hall.stored_ne hfound hfound' hid)
  · intro stream' habsent
    by_cases hsame : stream' = stream
    · rw [hsame]
      exact Or.inr (h.closed_of_close errorCode hfound)
    · have habsent' : s.findStream stream'.streamId ≠ some stream' := by
        rw [findStream_close] at habsent
        split_ifs at habsent with hid
        · rw [hid, hfound]
          simpa using Ne.symm hsame
        · exact habsent
      rw [close_eq errorCode hfound]
      exact unborn_or_closed_append_of_about (h.absent stream' habsent') (about_close errorCode)
        hsame

/-! ### Any callback -/

theorem Allocated.runCallback (h : s.Allocated) (callback : Callback) :
    (s.runCallback callback).Allocated := by
  have heffect := runCallback_cases s callback
  generalize s.runCallback callback = t at heffect
  cases heffect with
  | nothing _ _ _ => exact h
  | create id _ => exact h.makeStream id
  | deliver stream c hfound _ _ _ => exact h.call hfound c
  | close stream errorCode _ hfound => exact h.close errorCode hfound

/-- One callback, in an order nghttp2 keeps, leaves every object accounted for. -/
theorem Accounted.runCallback (h : s.Accounted) (hall : s.Allocated)
    (hclosed : ∀ id, callback.Opens id → s.findStream id = none) :
    (s.runCallback callback).Accounted := by
  have heffect := runCallback_cases s callback
  generalize s.runCallback callback = t at heffect
  cases heffect with
  | nothing _ _ _ => exact h
  | create id hopens => exact h.makeStream hall (hclosed id hopens)
  | deliver stream c hfound hcalls _ _ =>
      exact h.call hall hfound (Callback.ne_onClose_of_calls hcalls)
  | close stream errorCode _ hfound => exact h.close hall errorCode hfound

/-! ## Runs of callbacks -/

theorem isSome_findStream_runCallback :
    ((s.runCallback callback).findStream id).isSome ↔
      callback.Opens id ∨ (s.findStream id).isSome ∧ ¬ callback.Closes id := by
  by_cases hopens : callback.Opens id
  · simp [findStream_runCallback_of_opens hopens, hopens]
  · by_cases hcloses : callback.Closes id
    · simp [findStream_runCallback_of_closes hcloses, hopens, hcloses]
    · simp [findStream_runCallback_of_other hopens hcloses, hopens, hcloses]

theorem Allocated.runCallbacks (h : s.Allocated) (callbacks : List Callback) :
    (s.runCallbacks callbacks).Allocated := by
  induction callbacks generalizing s with
  | nil => exact h
  | cons callback callbacks ih => exact ih (h.runCallback callback)

/-- The two invariants of a run, proved together: a request finds no old entry to
overwrite because the table holds the open ids only. -/
theorem Fresh.runCallbacks (hfresh : s.Fresh) :
    ∀ callbacks, Ordered callbacks → (s.runCallbacks callbacks).Accounted ∧
      ∀ id, ((s.runCallbacks callbacks).findStream id).isSome ↔ IsOpen callbacks id := by
  intro callbacks
  induction callbacks using List.reverseRecOn with
  | nil =>
      intro _
      refine ⟨hfresh.accounted, fun id => ?_⟩
      simp [findStream, hfresh.streamMap, not_isOpen_nil]
  | append_singleton callbacks callback ih =>
      intro hordered
      obtain ⟨hearlier, hnext⟩ := ordered_append_singleton.mp hordered
      obtain ⟨haccounted, hopen⟩ := ih hearlier
      rw [runCallbacks_append_singleton]
      refine ⟨haccounted.runCallback (hfresh.allocated.runCallbacks callbacks) ?_, ?_⟩
      · intro id hopens
        rw [← Option.not_isSome_iff_eq_none, hopen id]
        exact hnext id hopens
      · intro id
        rw [isSome_findStream_runCallback, isOpen_append_singleton, hopen id]

/-- While a stream stays open, the object stored for it is the one its request created. -/
theorem findStream_of_opens {earlier later : List Callback} {opening : Callback}
    (hopens : opening.Opens id) (hordered : Ordered (earlier ++ opening :: later))
    (hlater : ∀ c ∈ later, ¬ c.Closes id) :
    (s.runCallbacks (earlier ++ opening :: later)).findStream id =
      some ⟨(s.runCallbacks earlier).nextAddress, id⟩ := by
  induction later using List.reverseRecOn with
  | nil =>
      rw [runCallbacks_append_singleton]
      exact findStream_runCallback_of_opens hopens
  | append_singleton later callback ih =>
      rw [← List.cons_append, ← List.append_assoc] at hordered ⊢
      obtain ⟨hearlier, hnext⟩ := ordered_append_singleton.mp hordered
      have hopen : IsOpen (earlier ++ opening :: later) id :=
        ⟨earlier, opening, later, rfl, hopens, fun c hc => hlater c (by simp [hc])⟩
      rw [runCallbacks_append_singleton, findStream_runCallback_of_other]
      · exact ih hearlier fun c hc => hlater c (by simp [hc])
      · exact fun hagain => hnext id hagain hopen
      · exact hlater callback (by simp)

/-! ## The destructor -/

/-- The releases of the destructor are about `o` only if `o` is among the objects. -/
theorem object_ne_of_releases {o : Resource} :
    ∀ es : List (Sigma fun _ : Int32 => Http2Stream), (∀ e ∈ es, .stream e.2 ≠ o) →
      ∀ entry ∈ es.map fun e => (.release (.stream e.2) : Entry Resource StreamCall),
        entry.object ≠ o := by
  intro es hne entry hmem
  obtain ⟨e, he, rfl⟩ := List.mem_map.mp hmem
  exact hne e he

theorem findStream_of_mem_entries {e : Sigma fun _ : Int32 => Http2Stream}
    (he : e ∈ s.streamMap.entries) : s.findStream e.1 = some e.2 :=
  AList.mem_lookup_iff.mpr he

/-- The destructor releases a stored object once. -/
theorem Allocated.gone_destroy (h : s.Allocated)
    (hfound : s.findStream stream.streamId = some stream) {calls : List StreamCall}
    (hheld : Held s.ledger (.stream stream) calls) :
    Gone s.destroy.ledger (.stream stream) calls := by
  -- the entry of `stream` is the only one with its key
  obtain ⟨front, back, hsplit⟩ := List.append_of_mem (AList.mem_lookup_iff.mp hfound)
  have hnodup := s.streamMap.nodupKeys
  rw [hsplit, List.NodupKeys, List.keys, List.map_append, List.map_cons, List.nodup_append,
    List.nodup_cons] at hnodup
  have hfront : ∀ e ∈ front, Resource.stream e.2 ≠ .stream stream := by
    rintro e he ⟨⟩
    have hkey := (h.stored e.1 e.2 (findStream_of_mem_entries (by rw [hsplit]; simp [he]))).1
    exact hnodup.2.2 _ (List.mem_map_of_mem he) _ (List.mem_cons_self ..) hkey.symm
  have hback : ∀ e ∈ back, Resource.stream e.2 ≠ .stream stream := by
    rintro e he ⟨⟩
    have hkey := (h.stored e.1 e.2 (findStream_of_mem_entries (by rw [hsplit]; simp [he]))).1
    exact hnodup.2.1.1 (by rw [hkey]; exact List.mem_map_of_mem he)
  have hgone := ((hheld.append_of_ne (object_ne_of_releases front hfront)).release).append_of_ne
    (object_ne_of_releases back hback)
  rw [Http2Session.destroy, hsplit]
  simpa using hgone

/-- The destructor does nothing to any other object. -/
theorem Allocated.history_destroy (h : s.Allocated) {o : Resource}
    (habsent : ∀ stream, o = .stream stream → s.findStream stream.streamId ≠ some stream) :
    history s.destroy.ledger o = history s.ledger o := by
  refine history_append_of_ne (object_ne_of_releases _ ?_)
  rintro e he heq
  have hfound : s.findStream e.1 = some e.2 := findStream_of_mem_entries he
  rw [← (h.stored e.1 e.2 hfound).1] at hfound
  exact habsent e.2 heq.symm hfound

/-- The destructor releases every stored object, and no other. -/
theorem Accounted.destroy (h : s.Accounted) (hall : s.Allocated) (stream : Http2Stream) :
    (∀ calls, s.findStream stream.streamId = some stream → Held s.ledger (.stream stream) calls →
      Gone s.destroy.ledger (.stream stream) calls) ∧
    (s.findStream stream.streamId ≠ some stream →
      Unborn s.destroy.ledger (.stream stream) ∨ Closed s.destroy.ledger stream) := by
  refine ⟨fun calls hfound hheld => hall.gone_destroy hfound hheld, ?_⟩
  intro habsent
  have hsame : history s.destroy.ledger (.stream stream) = history s.ledger (.stream stream) := by
    refine hall.history_destroy ?_
    rintro stream' ⟨⟩
    exact habsent
  simpa only [Closed, Unborn, Gone, hsame] using h.absent stream habsent

/-! ## The refinement -/

/-- Entries of a callback are about the object stored under the callback's stream. -/
theorem runCallback_routed (s : Http2Session G) (callback : Callback) :
    ∃ entries, (s.runCallback callback).ledger = s.ledger ++ entries ∧
      ∀ stream c, .use (.stream stream) c ∈ entries →
        s.findStream callback.streamId = some stream := by
  have heffect := runCallback_cases s callback
  generalize s.runCallback callback = t at heffect
  cases heffect with
  | nothing _ _ _ => exact ⟨[], by simp, by simp⟩
  | create id _ => exact ⟨[.acquire (.stream ⟨s.nextAddress, id⟩)], rfl, by simp⟩
  | deliver stream c hfound _ _ _ =>
      refine ⟨[.use (.stream stream) c], rfl, ?_⟩
      intro stream' c' hmem
      simp only [List.mem_singleton, Entry.use.injEq, Resource.stream.injEq] at hmem
      rw [hmem.1]
      exact hfound
  | close stream errorCode _ hfound =>
      refine ⟨[.use (.stream stream) (.onClose errorCode), .release (.stream stream)], ?_, ?_⟩
      · rw [close_eq errorCode hfound]
      · intro stream' c' hmem
        simp only [List.mem_cons, Entry.use.injEq, Resource.stream.injEq, reduceCtorEq,
          List.not_mem_nil, or_false] at hmem
        rw [hmem.1]
        exact hfound

/-- What holds of the table and of the objects of a session after `callbacks`. -/
structure RefinesOpenStreams (s₀ : Http2Session G) (callbacks : List Callback) : Prop where
  /-- The keys are the open streams. -/
  keys : ∀ id, id ∈ (s₀.runCallbacks callbacks).streamMap ↔ IsOpen callbacks id
  /-- Under an open id is the object that its request created, at a new address. -/
  object : ∀ earlier opening later id, callbacks = earlier ++ opening :: later →
    opening.Opens id → (∀ c ∈ later, ¬ c.Closes id) →
      (s₀.runCallbacks callbacks).findStream id =
        some ⟨(s₀.runCallbacks earlier).nextAddress, id⟩ ∧
      Unborn (s₀.runCallbacks earlier).ledger (.stream ⟨(s₀.runCallbacks earlier).nextAddress, id⟩)
  /-- The next callback makes its calls on the object of its own id. -/
  routed : ∀ callback, ∃ entries,
    ((s₀.runCallbacks callbacks).runCallback callback).ledger =
      (s₀.runCallbacks callbacks).ledger ++ entries ∧
    ∀ stream c, .use (.stream stream) c ∈ entries →
      (s₀.runCallbacks callbacks).findStream callback.streamId = some stream
  /-- The next callback leaves the table alone unless it opens a stream or closes an
  open one. -/
  unchanged : ∀ callback, (∀ id, ¬ callback.Opens id) →
    (∀ id, callback.Closes id → ¬ IsOpen callbacks id) →
      ((s₀.runCallbacks callbacks).runCallback callback).streamMap =
        (s₀.runCallbacks callbacks).streamMap
  /-- A stored object is created, called and neither closed nor deleted. -/
  live : ∀ id stream, (s₀.runCallbacks callbacks).findStream id = some stream →
    stream.streamId = id ∧ Live (s₀.runCallbacks callbacks).ledger stream
  /-- Any other object was never created, or was closed and deleted. -/
  absent : ∀ stream, (s₀.runCallbacks callbacks).findStream stream.streamId ≠ some stream →
    Unborn (s₀.runCallbacks callbacks).ledger (.stream stream) ∨
      Closed (s₀.runCallbacks callbacks).ledger stream
  /-- A `stream_close` closes the object of its stream. -/
  closes : ∀ id errorCode stream, (s₀.runCallbacks callbacks).findStream id = some stream →
    Closed ((s₀.runCallbacks callbacks).runCallback (.streamClose id errorCode)).ledger stream
  /-- The destructor deletes the objects that are still stored, once and without a
  call, and no other. -/
  destroyed : ∀ stream,
    ((s₀.runCallbacks callbacks).findStream stream.streamId = some stream →
      ∃ calls, Gone (s₀.runCallbacks callbacks).destroy.ledger (.stream stream) calls ∧
        ∀ e, .onClose e ∉ calls) ∧
    ((s₀.runCallbacks callbacks).findStream stream.streamId ≠ some stream →
      Unborn (s₀.runCallbacks callbacks).destroy.ledger (.stream stream) ∨
        Closed (s₀.runCallbacks callbacks).destroy.ledger stream)

theorem runCallback_streamMap_of_other (hopens : ∀ id, ¬ callback.Opens id)
    (hcloses : ∀ id, callback.Closes id → s.findStream id = none) :
    (s.runCallback callback).streamMap = s.streamMap := by
  have heffect := runCallback_cases s callback
  generalize s.runCallback callback = t at heffect
  cases heffect with
  | nothing _ _ _ => rfl
  | create id hopens' => exact absurd hopens' (hopens id)
  | deliver _ _ _ _ _ _ => rfl
  | close stream _ hcloses' hfound =>
      rw [hcloses _ hcloses'] at hfound
      cases hfound

/-- **The stream table refines nghttp2's open request streams.**  After every list of
callbacks in an order nghttp2 keeps, the table of a session that started without
streams is the set of open streams with the objects created for them. -/
theorem runCallbacks_refinesOpenStreams {s₀ : Http2Session G} (hfresh : s₀.Fresh)
    {callbacks : List Callback} (hordered : Ordered callbacks) :
    RefinesOpenStreams s₀ callbacks := by
  obtain ⟨haccounted, hopen⟩ := hfresh.runCallbacks callbacks hordered
  have hallocated := hfresh.allocated.runCallbacks callbacks
  refine ⟨?_, ?_, ?_, ?_, ?_, haccounted.absent, ?_, ?_⟩
  · -- keys
    intro id
    rw [← hopen id, findStream, AList.lookup_isSome]
  · -- object
    rintro earlier opening later id rfl hopens hlater
    refine ⟨findStream_of_opens hopens hordered hlater, ?_⟩
    exact (hfresh.allocated.runCallbacks earlier).unborn _ le_rfl
  · -- routed
    exact runCallback_routed _
  · -- unchanged
    intro callback hopens hcloses
    refine runCallback_streamMap_of_other hopens ?_
    intro id hid
    rw [← Option.not_isSome_iff_eq_none, hopen id]
    exact hcloses id hid
  · -- live
    exact fun id stream hfound =>
      ⟨(hallocated.stored id stream hfound).1, haccounted.stored id stream hfound⟩
  · -- closes
    intro id errorCode stream hfound
    have hstep : (s₀.runCallbacks callbacks).runCallback (.streamClose id errorCode) =
        ((s₀.runCallbacks callbacks).call stream (.onClose errorCode)).destroyStream id := by
      simp only [runCallback, onStreamCloseCallback, hfound]
    rw [hstep]
    exact haccounted.closed_of_close errorCode hfound
  · -- destroyed
    intro stream
    refine ⟨?_, (haccounted.destroy hallocated stream).2⟩
    intro hfound
    obtain ⟨calls, hheld, hcalls⟩ := haccounted.stored _ stream hfound
    exact ⟨calls, (haccounted.destroy hallocated stream).1 calls hfound hheld, hcalls⟩

theorem fresh_make (g : G) : (make g).Fresh :=
  ⟨rfl, fun _ => rfl⟩

/-- Two requests; the first one is closed while the second is open, and a late chunk comes
for it. -/
def twoStreams : List Callback :=
  [.beginHeaders ⟨1, .headers, 4, .request, 0⟩, .beginHeaders ⟨3, .headers, 4, .request, 0⟩,
    .dataChunkRecv 0 1 [104], .streamClose 1 0, .dataChunkRecv 0 1 [105],
    .dataChunkRecv 0 3 [106]]

theorem runCallbacks_refinesOpenStreams_twoStreams :
    RefinesOpenStreams (make ()) twoStreams ∧
      ((make ()).runCallbacks twoStreams).streamMap.keys = [3] ∧
      ((make ()).runCallbacks twoStreams).ledger =
        [.acquire (.stream ⟨0, 1⟩), .acquire (.stream ⟨1, 3⟩),
          .use (.stream ⟨0, 1⟩) (.onData [104]), .use (.stream ⟨0, 1⟩) (.onClose 0),
          .release (.stream ⟨0, 1⟩), .use (.stream ⟨1, 3⟩) (.onData [106])] := by
  refine ⟨runCallbacks_refinesOpenStreams (fresh_make ()) ?_, rfl, rfl⟩
  have hfirst : Ordered [.beginHeaders ⟨1, .headers, 4, .request, 0⟩] :=
    (@ordered_append_singleton [] _).mpr ⟨historically_nil, fun id _ => not_isOpen_nil id⟩
  have hsecond : Ordered [.beginHeaders ⟨1, .headers, 4, .request, 0⟩,
      .beginHeaders ⟨3, .headers, 4, .request, 0⟩] := by
    refine (@ordered_append_singleton [_] _).mpr ⟨hfirst, ?_⟩
    rintro _ ⟨-, -, rfl⟩ hopen
    -- the other stream has the id 1
    rcases (@isOpen_append_singleton [] _ _).mp hopen with ⟨-, -, hid⟩ | ⟨hnone, -⟩
    · revert hid
      decide
    · exact not_isOpen_nil _ hnone
  exact (((hsecond.append fun _ => id).append fun _ => id).append fun _ => id).append fun _ => id

end Http2Session

end Http2Asio
