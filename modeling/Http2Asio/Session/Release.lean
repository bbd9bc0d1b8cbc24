import Http2Asio.Transition.System
import Http2Asio.Session.Framing

/-!
# What a session leaves behind

A session acquires the callbacks structure and the nghttp2 session in `start`, and a
stream in every `make_stream`.  The `defer` of `start` releases the first on every way
out.  The other two are not released on every way:

* nothing calls `nghttp2_session_del`, so the nghttp2 session stays behind whenever
  `start` has created it;
* `make_stream` overwrites a pointer that is already stored under its id, and neither
  `destroy_stream` nor the destructor finds that object again.

There is a third way to leave objects behind: never to come to the destructor.  When
`start` has not created a session, `on_read` and `on_write` still pass `session_` to
nghttp2, which reads what it points to.  A life is therefore a system over optional
sessions, and `none` is the program that has crashed there.

An object is `Lost` when it is not settled and the destructor will not reach it.
`Evolves s t fresh` says of a piece of code that it loses a stream exactly if `fresh`
is false, and nothing else in any case.  There is one such lemma for each operation on
the table, for each callback, and for the two byte paths, where `fresh` is about the
callbacks that the library fires and is read off the library alone (`FreshOpens`).  They
compose, and `perform_cases` puts them together for one call of a life.  The run lemma
`releasedAtEnd_iff` is about any kind of objects that the streams belong to; the theorem
takes it for all objects and for the streams, since of a session that was started only
the second can hold.
-/

namespace Http2Asio

open Ownership Transition

section Library

variable {G : Type}

/-- `start` gets as far as creating the nghttp2 session. -/
def Nghttp2.CreatesSession (ng : Nghttp2 G) (g : G) : Prop :=
  (ng.callbacksNew g).1 = 0 ∧ (ng.sessionServerNew (ng.callbacksNew g).2).1 = 0

/-- The ids in the table after a callback, if `stored` are those before it. -/
def openAfter (stored : Int32 → Prop) (callback : Callback) (id : Int32) : Prop :=
  callback.Opens id ∨ stored id ∧ ¬ callback.Closes id

/-- No callback opens a stream whose id is in the table by then. -/
def FreshOpens : (Int32 → Prop) → List Callback → Prop
  | _, [] => True
  | stored, callback :: callbacks =>
      (∀ id, callback.Opens id → ¬ stored id) ∧ FreshOpens (openAfter stored callback) callbacks

theorem freshOpens_append {stored : Int32 → Prop} {front back : List Callback} :
    FreshOpens stored (front ++ back) ↔
      FreshOpens stored front ∧ FreshOpens (front.foldl openAfter stored) back := by
  induction front generalizing stored with
  | nil => exact (and_iff_right trivial).symm
  | cons callback front ih =>
      rw [List.cons_append, FreshOpens, ih, FreshOpens, and_assoc, List.foldl_cons]

/-- The callbacks fired by the loop of `on_write`, with `length` bytes in the buffer. -/
def loopCallbacks (ng : Nghttp2 G) (N : ℕ) : (fuel length : ℕ) → G → List Callback
  | 0, _, _ => []
  | fuel + 1, length, g =>
      (ng.memSend g).2.1 ++
        match (ng.memSend g).1 with
        | .error => []
        | .chunk bytes =>
            if bytes.length = 0 ∨ N < length + bytes.length then []
            else loopCallbacks ng N fuel (length + bytes.length) (ng.memSend g).2.2

end Library

/-- The resource is a stream. -/
def Resource.IsStream (o : Resource) : Prop :=
  ∃ stream, o = .stream stream

namespace Http2Session

variable {G : Type} {ng : Nghttp2 G} {N : ℕ} {s t u : Http2Session G} {stream : Http2Stream}
  {id : Int32} {callback : Callback} {entries : List (Entry Resource StreamCall)}
  {kind : Resource → Prop}

/-! ## Lost objects -/

/-- The id is a key of `stream_map_`. -/
def Stored (s : Http2Session G) (id : Int32) : Prop :=
  (s.findStream id).isSome

/-- The destructor releases the object. -/
def Reaches (s : Http2Session G) : Resource → Prop
  | .stream stream => s.findStream stream.streamId = some stream
  | .callbacks | .session => False

/-- Not settled, and the destructor does not release it. -/
def Lost (s : Http2Session G) (o : Resource) : Prop :=
  ¬ s.Reaches o ∧ ¬ Settled s.ledger o

/-- No object of a kind is lost. -/
def NothingLost (kind : Resource → Prop) (s : Http2Session G) : Prop :=
  ∀ o, kind o → ¬ s.Lost o

/-- Every object of a kind that the session has acquired has been released once, and no
other one has. -/
def Released (kind : Resource → Prop) (s : Http2Session G) : Prop :=
  ∀ o, kind o → Settled s.ledger o

/-- The destructor reaches only objects that the session owns. -/
structure Tracked (s : Http2Session G) : Prop where
  allocated : s.Allocated
  owned : s.StoredWith fun _ => True

theorem stored_iff : s.Stored id ↔ ∃ stream, s.findStream id = some stream :=
  Option.isSome_iff_exists

theorem not_stored_iff : ¬ s.Stored id ↔ s.findStream id = none :=
  Option.not_isSome_iff_eq_none

theorem Tracked.settled_destroy_iff (h : s.Tracked) (o : Resource) :
    Settled s.destroy.ledger o ↔ ¬ s.Lost o := by
  by_cases hreaches : s.Reaches o
  · have hsettled : Settled s.destroy.ledger o := by
      cases o with
      | stream stream =>
          obtain ⟨calls, hheld, -⟩ := h.owned _ stream hreaches
          exact Or.inr ⟨calls, h.allocated.gone_destroy hreaches hheld⟩
      | callbacks | session => exact hreaches.elim
    exact iff_of_true hsettled fun hlost => hlost.1 hreaches
  · rw [Lost, and_iff_right hreaches, not_not]
    refine settled_congr (h.allocated.history_destroy ?_)
    rintro stream rfl
    exact hreaches

theorem Tracked.released_destroy_iff (h : s.Tracked) {kind : Resource → Prop} :
    s.destroy.Released kind ↔ s.NothingLost kind :=
  forall₂_congr fun o _ => h.settled_destroy_iff o

/-! ## What a piece of code loses -/

/-- Between `s` and `t` an object is lost exactly if not `fresh`, and then it is a stream. -/
structure Evolves (s t : Http2Session G) (fresh : Prop) : Prop where
  tracked : s.Tracked → t.Tracked
  nothingLost : s.Tracked → ∀ kind : Resource → Prop, (∀ stream, kind (.stream stream)) →
    (t.NothingLost kind ↔ s.NothingLost kind ∧ fresh)

theorem Evolves.trans {first second : Prop} (hst : Evolves s t first) (htu : Evolves t u second) :
    Evolves s u (first ∧ second) where
  tracked h := htu.tracked (hst.tracked h)
  nothingLost h kind hkind := by
    rw [htu.nothingLost (hst.tracked h) kind hkind, hst.nothingLost h kind hkind, and_assoc]

theorem Evolves.congr {first second : Prop} (h : Evolves s t first) (heq : first ↔ second) :
    Evolves s t second where
  tracked := h.tracked
  nothingLost hs kind hkind := by rw [h.nothingLost hs kind hkind, heq]

/-- What follows a piece of code that loses nothing. -/
theorem Evolves.after {fresh : Prop} (hst : Evolves s t True) (htu : Evolves t u fresh) :
    Evolves s u fresh :=
  (hst.trans htu).congr (and_iff_right trivial)

/-- Nothing is lost by what leaves the table and the ledger alone. -/
theorem evolves_output (g : G) (data : Option OutputPointer) (size : ℕ) (inside : Bool)
    (sends : SendHistory) :
    Evolves s { s with
      session := g, outputData := data, outputSize := size, callbackInside := inside,
      sends := sends } True where
  tracked h := ⟨⟨h.allocated.stored, h.allocated.unborn⟩, h.owned⟩
  nothingLost _ _ _ := (and_iff_left trivial).symm

theorem evolves_refl : Evolves s s True :=
  evolves_output s.session s.outputData s.outputSize s.callbackInside s.sends

/-- Entries about one object do not lose another one. -/
theorem lost_iff_of_about (hledger : t.ledger = s.ledger ++ entries)
    (habout : ∀ entry ∈ entries, entry.object = Resource.stream stream)
    (hfind : ∀ stream', stream' ≠ stream →
      (t.findStream stream'.streamId = some stream' ↔ s.findStream stream'.streamId = some stream'))
    {o : Resource} (hne : o ≠ .stream stream) : t.Lost o ↔ s.Lost o := by
  have hsame : history t.ledger o = history s.ledger o := by
    rw [hledger]
    refine history_append_of_ne ?_
    rintro entry hentry rfl
    exact hne (habout entry hentry)
  have hreaches : t.Reaches o ↔ s.Reaches o := by
    cases o with
    | stream stream' =>
        refine hfind stream' ?_
        rintro rfl
        exact hne rfl
    | callbacks | session => exact Iff.rfl
  rw [Lost, Lost, hreaches, settled_congr hsame]

/-- Code that handles one object loses nothing if it does not lose that object. -/
theorem nothingLost_iff_of_about (hledger : t.ledger = s.ledger ++ entries)
    (habout : ∀ entry ∈ entries, entry.object = Resource.stream stream)
    (hfind : ∀ stream', stream' ≠ stream →
      (t.findStream stream'.streamId = some stream' ↔ s.findStream stream'.streamId = some stream'))
    (hbefore : ¬ s.Lost (.stream stream)) (hafter : ¬ t.Lost (.stream stream)) :
    t.NothingLost kind ↔ s.NothingLost kind := by
  refine forall₂_congr fun o _ => not_congr ?_
  by_cases heq : o = .stream stream
  · rw [heq]
    exact iff_of_false hafter hbefore
  · exact lost_iff_of_about hledger habout hfind heq

/-! ## The operations on the table -/

/-- An object that is stored when its id is used again is lost. -/
theorem Tracked.lost_makeStream (h : s.Tracked) (hfound : s.findStream id = some stream) :
    (s.makeStream id).Lost (.stream stream) := by
  obtain ⟨hid, haddress⟩ := h.allocated.stored id stream hfound
  have hne : stream ≠ ⟨s.nextAddress, id⟩ := by
    rintro rfl
    exact Nat.lt_irrefl _ haddress
  obtain ⟨calls, hheld, -⟩ := h.owned id stream hfound
  have hkept : Held (s.makeStream id).ledger (.stream stream) calls :=
    hheld.append_of_ne (object_ne_of_about about_makeStream hne)
  refine ⟨?_, hkept.not_settled⟩
  intro hreaches
  rw [Reaches, findStream_makeStream, if_pos hid] at hreaches
  exact hne (Option.some.inj hreaches).symm

theorem Tracked.nothingLost_makeStream (h : s.Tracked) (hnone : s.findStream id = none) :
    (s.makeStream id).NothingLost kind ↔ s.NothingLost kind := by
  refine nothingLost_iff_of_about rfl about_makeStream ?_ ?_ ?_
  · intro stream' hne
    rw [findStream_makeStream]
    split_ifs with hid
    · rw [hid, hnone]
      refine iff_of_false ?_ nofun
      exact fun heq => hne (Option.some.inj heq).symm
    · exact Iff.rfl
  · exact fun hlost => hlost.2 (Or.inl (h.allocated.unborn _ (Nat.le_refl _)))
  · refine fun hlost => hlost.1 ?_
    rw [Reaches, findStream_makeStream, if_pos rfl]

theorem evolves_makeStream (id : Int32) : Evolves s (s.makeStream id) (¬ s.Stored id) where
  tracked h := ⟨h.allocated.makeStream id, h.owned.makeStream h.allocated trivial id⟩
  nothingLost h kind hkind := by
    by_cases hstored : s.Stored id
    · obtain ⟨stream, hfound⟩ := stored_iff.mp hstored
      have hlost := h.lost_makeStream hfound
      exact iff_of_false (fun hnone => hnone _ (hkind stream) hlost) fun hboth => hboth.2 hstored
    · rw [and_iff_left hstored]
      exact h.nothingLost_makeStream (not_stored_iff.mp hstored)

theorem evolves_call (hfound : s.findStream id = some stream) (c : StreamCall) :
    Evolves s (s.call stream c) True where
  tracked h := ⟨h.allocated.call hfound c, h.owned.call h.allocated hfound fun _ _ => trivial⟩
  nothingLost h _ _ := by
    rw [and_iff_left trivial]
    have hreaches : s.Reaches (.stream stream) := by
      rw [Reaches, (h.allocated.stored id stream hfound).1]
      exact hfound
    exact nothingLost_iff_of_about rfl (about_call c) (fun _ _ => Iff.rfl)
      (fun hlost => hlost.1 hreaches) (fun hlost => hlost.1 hreaches)

theorem Tracked.nothingLost_destroyStream (h : s.Tracked)
    (hfound : s.findStream id = some stream) :
    (s.destroyStream id).NothingLost kind ↔ s.NothingLost kind := by
  obtain ⟨hid, -⟩ := h.allocated.stored id stream hfound
  obtain ⟨calls, hheld, -⟩ := h.owned id stream hfound
  have hledger : (s.destroyStream id).ledger = s.ledger ++ [.release (.stream stream)] := by
    rw [destroyStream_eq hfound]
  refine nothingLost_iff_of_about hledger about_destroyStream ?_ ?_ ?_
  · intro stream' hne
    rw [findStream_destroyStream]
    split_ifs with hid'
    · rw [hid', hfound]
      refine iff_of_false nofun ?_
      exact fun heq => hne (Option.some.inj heq).symm
    · exact Iff.rfl
  · refine fun hlost => hlost.1 ?_
    rw [Reaches, hid]
    exact hfound
  · refine fun hlost => hlost.2 (Or.inr ⟨calls, ?_⟩)
    rw [hledger]
    exact hheld.release

theorem evolves_destroyStream (id : Int32) : Evolves s (s.destroyStream id) True := by
  cases hfound : s.findStream id with
  | none =>
      rw [destroyStream, hfound]
      exact evolves_refl
  | some stream =>
      constructor
      · intro h
        exact ⟨h.allocated.destroyStream hfound, h.owned.destroyStream h.allocated hfound⟩
      · intro h _ _
        rw [and_iff_left trivial]
        exact h.nothingLost_destroyStream hfound

/-! ## The callbacks -/

theorem stored_runCallback : (s.runCallback callback).Stored = openAfter s.Stored callback := by
  funext id
  exact propext isSome_findStream_runCallback

theorem stored_runCallbacks (callbacks : List Callback) :
    (s.runCallbacks callbacks).Stored = callbacks.foldl openAfter s.Stored := by
  induction callbacks generalizing s with
  | nil => rfl
  | cons callback callbacks ih =>
      rw [List.foldl_cons, ← stored_runCallback]
      exact ih

/-- A callback that opens nothing asks for nothing. -/
theorem Evolves.of_opens_none (h : Evolves s t True) (hopens : ∀ id, ¬ callback.Opens id) :
    Evolves s t (∀ id, callback.Opens id → ¬ s.Stored id) :=
  h.congr (iff_of_true trivial fun id hid => absurd hid (hopens id))

theorem evolves_runCallback (callback : Callback) :
    Evolves s (s.runCallback callback) (∀ id, callback.Opens id → ¬ s.Stored id) := by
  have heffect := runCallback_cases s callback
  generalize s.runCallback callback = t at heffect
  cases heffect with
  | nothing hopens _ _ =>
      exact evolves_refl.of_opens_none hopens
  | create id hopens =>
      refine (evolves_makeStream id).congr ⟨?_, fun hfresh => hfresh id hopens⟩
      intro hnew id' hopens'
      rwa [← hopens'.streamId_eq, hopens.streamId_eq]
  | deliver stream c hfound _ hopens _ =>
      exact (evolves_call hfound c).of_opens_none hopens
  | close stream errorCode hcloses hfound =>
      have hclosed := (evolves_call hfound (.onClose errorCode)).after
        (evolves_destroyStream callback.streamId)
      exact hclosed.of_opens_none fun id hopens => hopens.not_closes hcloses

theorem evolves_runCallbacks (callbacks : List Callback) :
    Evolves s (s.runCallbacks callbacks) (FreshOpens s.Stored callbacks) := by
  induction callbacks generalizing s with
  | nil => exact evolves_refl
  | cons callback callbacks ih =>
      rw [FreshOpens, ← stored_runCallback]
      exact (evolves_runCallback callback).trans ih

/-! ## The byte paths -/

theorem evolves_onRead (bytes : List UInt8) :
    Evolves s (s.onRead ng bytes).2 (FreshOpens s.Stored (ng.memRecv bytes s.session).2.1) := by
  have hentered : Evolves s
      { s.enterGuard with session := (ng.memRecv bytes s.session).2.2 } True :=
    evolves_output _ _ _ _ _
  have hran := hentered.after (evolves_runCallbacks (ng.memRecv bytes s.session).2.1)
  exact (hran.trans (evolves_output _ _ _ false _)).congr (and_iff_left trivial)

theorem evolves_memSend :
    Evolves s (s.memSend ng).2 (FreshOpens s.Stored (ng.memSend s.session).2.1) := by
  have hrecorded : Evolves s { s with
      session := (ng.memSend s.session).2.2
      sends := s.sends.record (ng.memSend s.session).1 } True :=
    evolves_output _ _ _ _ _
  exact hrecorded.after (evolves_runCallbacks _)

theorem stored_memSend :
    (s.memSend ng).2.Stored = (ng.memSend s.session).2.1.foldl openAfter s.Stored :=
  stored_runCallbacks _

theorem evolves_onWriteLoop :
    ∀ (fuel length : ℕ) (buffer : List UInt8) (s : Http2Session G)
      (r : WriteResult (Http2Session G)),
      onWriteLoop ng N fuel length buffer s = some r →
      Evolves s r.handler (FreshOpens s.Stored (loopCallbacks ng N fuel length s.session)) := by
  intro fuel
  induction fuel with
  | zero =>
      intro length buffer s r hloop
      simp [onWriteLoop] at hloop
  | succ fuel ih =>
      intro length buffer s r hloop
      rw [loopCallbacks]
      cases onWriteLoop_cases hloop with
      | error s' hsent hresult =>
          rw [hresult, hsent.state, List.append_nil]
          exact evolves_memSend
      | dry s' hsent hresult =>
          rw [hresult, hsent.state]
          dsimp only
          rw [if_pos (Or.inl List.length_nil), List.append_nil]
          exact evolves_memSend
      | full s' bytes hsent hresult _ hfull =>
          rw [hresult, hsent.state]
          dsimp only
          rw [if_pos (Or.inr hfull), List.append_nil]
          exact (evolves_memSend.trans (evolves_output _ _ _ _ _)).congr (and_iff_left trivial)
      | more s' bytes _ hsent hresult hbytes hfits hrest =>
          have hgoes : ¬ (bytes.length = 0 ∨ N < length + bytes.length) := by omega
          have hnoted : Evolves s' (s'.noteRead ⟨s'.sends.calls⟩) True := evolves_output _ _ _ _ _
          have hlater := hnoted.after (ih _ _ (s'.noteRead ⟨s'.sends.calls⟩) r hrest)
          have hsession : (s'.noteRead ⟨s'.sends.calls⟩).session = (ng.memSend s.session).2.2 :=
            hsent.session
          have hstored : (s'.noteRead ⟨s'.sends.calls⟩).Stored =
              (ng.memSend s.session).2.1.foldl openAfter s.Stored := by
            rw [← stored_memSend, ← hsent.state]
            rfl
          rw [hsession, hstored] at hlater
          rw [hresult]
          dsimp only
          rw [if_neg hgoes, freshOpens_append]
          refine Evolves.trans ?_ hlater
          rw [hsent.state]
          exact evolves_memSend

/-- The bytes that the head of `on_write` puts into the buffer. -/
def stashSize (s : Http2Session G) : ℕ :=
  match s.outputData with
  | none => 0
  | some _ => s.outputSize

/-- The callbacks that a call of `on_write` fires. -/
def writeCallbacks (ng : Nghttp2 G) (N : ℕ) (s : Http2Session G) : List Callback :=
  loopCallbacks ng N (N + 1) s.stashSize s.session

theorem evolves_onWrite (buffer : List UInt8) :
    Evolves s (s.onWrite ng N buffer).handler (FreshOpens s.Stored (s.writeCallbacks ng N)) := by
  obtain ⟨length, buffer', s', r, htake, hloop, hwrite⟩ := @onWrite_eq_loop G ng N s buffer
  have hlooped := evolves_onWriteLoop _ _ _ _ _ hloop
  have htaken : Evolves s s' True ∧ length = s.stashSize ∧ s'.session = s.session ∧
      s'.Stored = s.Stored := by
    unfold takeStash at htake
    unfold stashSize
    cases hdata : s.outputData with
    | none =>
        rw [show s.enterGuard.outputData = none from hdata] at htake
        cases htake
        exact ⟨evolves_output _ _ _ true _, rfl, rfl, rfl⟩
    | some data =>
        rw [show s.enterGuard.outputData = some data from hdata] at htake
        cases htake
        exact ⟨evolves_output _ _ _ true _, rfl, rfl, rfl⟩
  obtain ⟨hhead, hlength, hsession, hstored⟩ := htaken
  rw [hlength, hsession, hstored] at hlooped
  rw [hwrite]
  have hleft : Evolves r.handler r.handler.leaveGuard True := evolves_output _ _ _ false _
  exact ((hhead.after hlooped).trans hleft).congr (and_iff_left trivial)

/-! ## The life of a session -/

/-- The calls that a session can get between its start and its destruction. -/
inductive SessionCall
  | makeStream (streamId : Int32)
  | destroyStream (streamId : Int32)
  | findStream (streamId : Int32)
  | onRead (bytes : List UInt8)
  | onWrite (N : ℕ) (buffer : List UInt8)

/-- What a call leaves; `none` when it has the library read from a `session_` that points
to no session. -/
def perform (ng : Nghttp2 G) (s : Http2Session G) : SessionCall → Option (Http2Session G)
  | .makeStream id => some (s.makeStream id)
  | .destroyStream id => some (s.destroyStream id)
  | .findStream _ => some s
  | .onRead bytes => if s.hasSession then some (s.onRead ng bytes).2 else none
  | .onWrite N buffer => if s.hasSession then some (s.onWrite ng N buffer).handler else none

/-- A session from the end of `start` on, whatever the outcome.  The state is `none` once
the program has crashed, and no call is made after that. -/
def life (ng : Nghttp2 G) : System (Option (Http2Session G)) SessionCall where
  init t := ∃ g, t = some ((make g).start ng).2
  step t c := t.map fun s => s.perform ng c

/-- The call has the session that it needs, and no `make_stream` in it, direct or from a
callback, finds its id in the table. -/
def Accountable (ng : Nghttp2 G) (s : Http2Session G) : SessionCall → Prop
  | .makeStream id => ¬ s.Stored id
  | .destroyStream _ | .findStream _ => True
  | .onRead bytes =>
      s.hasSession = true ∧ FreshOpens s.Stored (ng.memRecv bytes s.session).2.1
  | .onWrite N _ => s.hasSession = true ∧ FreshOpens s.Stored (s.writeCallbacks ng N)

/-- The call neither crashes nor loses an object; `perform_cases` says that this is so. -/
def LosesNothing (ng : Nghttp2 G) (t : Option (Http2Session G)) (c : SessionCall) : Prop :=
  ∀ s ∈ t, Accountable ng s c

/-- The destructor is reached, and it leaves nothing of a kind behind. -/
def ReleasedAtEnd (kind : Resource → Prop) (t : Option (Http2Session G)) : Prop :=
  ∃ s, t = some s ∧ s.destroy.Released kind

/-- A call crashes, or it loses a stream exactly if it makes one under an id in use. -/
theorem perform_cases (ng : Nghttp2 G) (s : Http2Session G) (c : SessionCall) :
    (s.perform ng c = none ∧ ¬ Accountable ng s c) ∨
      ∃ t, s.perform ng c = some t ∧ Evolves s t (Accountable ng s c) := by
  cases c with
  | makeStream id => exact Or.inr ⟨_, rfl, evolves_makeStream id⟩
  | destroyStream id => exact Or.inr ⟨_, rfl, evolves_destroyStream id⟩
  | findStream id => exact Or.inr ⟨_, rfl, evolves_refl⟩
  | onRead bytes =>
      by_cases hsession : s.hasSession = true
      · refine Or.inr ⟨_, if_pos hsession, ?_⟩
        exact (evolves_onRead bytes).congr (and_iff_right hsession).symm
      · exact Or.inl ⟨if_neg hsession, fun hmeets => hsession hmeets.1⟩
  | onWrite N buffer =>
      by_cases hsession : s.hasSession = true
      · refine Or.inr ⟨_, if_pos hsession, ?_⟩
        exact (evolves_onWrite buffer).congr (and_iff_right hsession).symm
      · exact Or.inl ⟨if_neg hsession, fun hmeets => hsession hmeets.1⟩

theorem ledger_start (g : G) :
    ((make g).start ng).2.ledger =
      if (ng.callbacksNew g).1 ≠ 0 then []
      else if (ng.sessionServerNew (ng.callbacksNew g).2).1 ≠ 0 then
        [.acquire .callbacks, .release .callbacks]
      else [.acquire .callbacks, .acquire .session, .release .callbacks] := by
  dsimp only [start, make, note]
  split_ifs <;> rfl

theorem fresh_start (g : G) : ((make g).start ng).2.Fresh := by
  constructor
  · dsimp only [start, make, note]
    split_ifs <;> rfl
  · intro stream
    rw [ledger_start]
    split_ifs <;> rfl

theorem Fresh.tracked (h : s.Fresh) : s.Tracked where
  allocated := h.allocated
  owned id stream hfound := by
    obtain ⟨calls, hheld, -⟩ := h.accounted.stored id stream hfound
    exact ⟨calls, hheld, trivial⟩

/-- `start` releases the callbacks structure, and the session is never released. -/
theorem nothingLost_start (g : G) :
    ((make g).start ng).2.NothingLost (fun _ => True) ↔ ¬ ng.CreatesSession g := by
  have hledger := @ledger_start G ng g
  by_cases hcreates : ng.CreatesSession g
  · rw [if_neg (not_not.mpr hcreates.1), if_neg (not_not.mpr hcreates.2)] at hledger
    refine iff_of_false ?_ (not_not.mpr hcreates)
    intro hnothing
    have hheld : Held ((make g).start ng).2.ledger .session [] := by
      rw [hledger]
      rfl
    exact hnothing .session trivial ⟨id, hheld.not_settled⟩
  · refine iff_of_true ?_ hcreates
    rintro o - ⟨-, hlost⟩
    refine hlost ?_
    rw [hledger]
    split_ifs with hcallbacks hsession
    · exact Or.inl rfl
    · cases o with
      | stream _ | session => exact Or.inl rfl
      | callbacks => exact Or.inr ⟨[], rfl⟩
    · exact absurd ⟨not_not.mp hcallbacks, not_not.mp hsession⟩ hcreates

/-- No stream is lost before there is one. -/
theorem noStreamLost_start (g : G) :
    ((make g).start ng).2.NothingLost Resource.IsStream := by
  rintro _ ⟨stream, rfl⟩ ⟨-, hlost⟩
  refine hlost (Or.inl ?_)
  rw [Unborn, ledger_start]
  split_ifs <;> rfl

theorem tracked_invariant : (life ng).Invariant fun t => ∀ s, t = some s → s.Tracked where
  init := by
    rintro _ ⟨g, rfl⟩ s ⟨⟩
    exact (fresh_start g).tracked
  step := by
    intro t c u ht hstep s hs
    obtain ⟨s', rfl, rfl⟩ := Option.map_eq_some_iff.mp hstep
    rcases perform_cases ng s' c with ⟨hcrash, -⟩ | ⟨s'', hperform, hevolves⟩
    · cases hcrash.symm.trans hs
    · cases hperform.symm.trans hs
      exact hevolves.tracked (ht s' rfl)

/-- One call; a program that has crashed does not come to the destructor. -/
theorem nothingLost_step {t u : Option (Http2Session G)} {c : SessionCall}
    (hkind : ∀ stream, kind (.stream stream)) (ht : ∀ s, t = some s → s.Tracked)
    (hstep : (life ng).step t c = some u) :
    (∃ s, u = some s ∧ s.NothingLost kind) ↔
      (∃ s, t = some s ∧ s.NothingLost kind) ∧ LosesNothing ng t c := by
  obtain ⟨s, rfl, rfl⟩ := Option.map_eq_some_iff.mp hstep
  rcases perform_cases ng s c with ⟨hcrash, hnot⟩ | ⟨s', hperform, hevolves⟩
  · rw [hcrash]
    exact iff_of_false nofun fun h => hnot (h.2 s rfl)
  · rw [hperform]
    simpa [LosesNothing] using hevolves.nothingLost (ht s rfl) kind hkind

/-- What is lost by the end of a life, of any kind that the streams belong to. -/
theorem releasedAtEnd_iff {g : G} {calls : List SessionCall} {t : Option (Http2Session G)}
    (hkind : ∀ stream, kind (.stream stream))
    (hrun : (life ng).run (some ((make g).start ng).2) calls = some t) :
    ReleasedAtEnd kind t ↔ ((make g).start ng).2.NothingLost kind ∧
      (life ng).Meets (LosesNothing ng) (some ((make g).start ng).2) calls := by
  have hstart : ∀ s, some ((make g).start ng).2 = some s → s.Tracked := by
    rintro s ⟨⟩
    exact (fresh_start g).tracked
  have hend := tracked_invariant.run hstart hrun
  have hfirst : (∃ s, some ((make g).start ng).2 = some s ∧ s.NothingLost kind) ↔
      ((make g).start ng).2.NothingLost kind := by
    simp
  calc ReleasedAtEnd kind t
      ↔ ∃ s, t = some s ∧ s.NothingLost kind :=
        exists_congr fun s => and_congr_right fun hs => (hend s hs).released_destroy_iff
    _ ↔ (∃ s, some ((make g).start ng).2 = some s ∧ s.NothingLost kind) ∧
          (life ng).Meets (LosesNothing ng) (some ((make g).start ng).2) calls :=
        System.run_iff_meets tracked_invariant
          (fun _ _ _ ht hstep => nothingLost_step hkind ht hstep) hstart hrun
    _ ↔ _ := by rw [hfirst]

/-- Over any life of a session, the destructor is reached and everything it has acquired is
released once exactly if `start` did not create the nghttp2 session, nothing was read or
written without one, and no `make_stream` found its id in use.  Of the streams alone this
holds whether `start` created a session or not. -/
theorem allReleased_iff_meets {g : G} {calls : List SessionCall} {t : Option (Http2Session G)}
    (hrun : (life ng).run (some ((make g).start ng).2) calls = some t) :
    (ReleasedAtEnd (fun _ => True) t ↔ ¬ ng.CreatesSession g ∧
      (life ng).Meets (LosesNothing ng) (some ((make g).start ng).2) calls) ∧
    (ReleasedAtEnd Resource.IsStream t ↔
      (life ng).Meets (LosesNothing ng) (some ((make g).start ng).2) calls) := by
  constructor
  · rw [releasedAtEnd_iff (fun _ => trivial) hrun, nothingLost_start]
  · rw [releasedAtEnd_iff (fun stream => ⟨stream, rfl⟩) hrun]
    exact and_iff_right (noStreamLost_start g)

/-- A library that has no memory for a session. -/
def refusing : Nghttp2 (List UInt8) :=
  { echo with sessionServerNew := fun g => (-901, g) }

/-- An id is used a second time after its stream was destroyed: without a session that is
all, and with one bytes are read and written in between. -/
theorem allReleased_iff_meets_idReused :
    ∃ t u : Http2Session (List UInt8),
      (life refusing).run (some ((make []).start refusing).2)
        [.makeStream 1, .findStream 1, .destroyStream 1, .makeStream 1] = some (some t) ∧
      t.streamMap.keys = [1] ∧ ReleasedAtEnd (fun _ => True) (some t) ∧
      (life echo).run (some ((make []).start echo).2)
        [.makeStream 1, .onRead [7], .destroyStream 1, .onWrite 3 [], .makeStream 1] =
          some (some u) ∧
      u.streamMap.keys = [1] ∧ u.sends.returned = [[7], []] ∧
      ReleasedAtEnd Resource.IsStream (some u) := by
  obtain ⟨t, ht, htkeys⟩ : ∃ t : Http2Session (List UInt8),
      (life refusing).run (some ((make []).start refusing).2)
        [.makeStream 1, .findStream 1, .destroyStream 1, .makeStream 1] = some (some t) ∧
      t.streamMap.keys = [1] := ⟨_, rfl, rfl⟩
  obtain ⟨u, hu, hukeys, hreturned⟩ : ∃ u : Http2Session (List UInt8),
      (life echo).run (some ((make []).start echo).2)
        [.makeStream 1, .onRead [7], .destroyStream 1, .onWrite 3 [], .makeStream 1] =
          some (some u) ∧
      u.streamMap.keys = [1] ∧ u.sends.returned = [[7], []] := ⟨_, rfl, rfl, rfl⟩
  refine ⟨t, u, ht, htkeys, ?_, hu, hukeys, hreturned, ?_⟩
  · refine (allReleased_iff_meets ht).1.mpr ⟨?_, ?_⟩
    · rintro ⟨-, hcreated⟩
      revert hcreated
      decide
    refine (System.meets_cons rfl).mpr ⟨?_, ?_⟩
    · rintro s ⟨⟩
      exact not_stored_iff.mpr rfl
    refine (System.meets_cons rfl).mpr ⟨fun _ _ => trivial, ?_⟩
    refine (System.meets_cons rfl).mpr ⟨fun _ _ => trivial, ?_⟩
    refine (System.meets_cons rfl).mpr ⟨?_, trivial⟩
    rintro s ⟨⟩
    exact not_stored_iff.mpr rfl
  · refine (allReleased_iff_meets hu).2.mpr ?_
    refine (System.meets_cons rfl).mpr ⟨?_, ?_⟩
    · rintro s ⟨⟩
      exact not_stored_iff.mpr rfl
    refine (System.meets_cons rfl).mpr ⟨?_, ?_⟩
    · rintro s ⟨⟩
      exact ⟨rfl, trivial⟩
    refine (System.meets_cons rfl).mpr ⟨fun _ _ => trivial, ?_⟩
    refine (System.meets_cons rfl).mpr ⟨?_, ?_⟩
    · rintro s ⟨⟩
      exact ⟨rfl, trivial⟩
    refine (System.meets_cons rfl).mpr ⟨?_, trivial⟩
    rintro s ⟨⟩
    exact not_stored_iff.mpr rfl

/-- A session that is started and destroyed leaves the nghttp2 session behind, one that
makes stream `1` twice leaves the first of the two objects behind, and one that reads
without an nghttp2 session never gets to its destructor. -/
theorem not_allReleased_startOnly :
    ∃ t u : Http2Session (List UInt8),
      (life echo).run (some ((make []).start echo).2) [] = some (some t) ∧
      (life refusing).run (some ((make []).start refusing).2) [.makeStream 1, .makeStream 1] =
        some (some u) ∧
      (life refusing).run (some ((make []).start refusing).2) [.onRead [7]] = some none ∧
      history t.destroy.ledger .session = [.acquire .session] ∧
      history u.destroy.ledger (.stream ⟨0, 1⟩) = [.acquire (.stream ⟨0, 1⟩)] ∧
      ¬ ReleasedAtEnd (fun _ => True) (some t) ∧ ¬ ReleasedAtEnd (fun _ => True) (some u) ∧
      ¬ ReleasedAtEnd (fun _ => True) (none : Option (Http2Session (List UInt8))) := by
  obtain ⟨t, ht, hsession⟩ : ∃ t : Http2Session (List UInt8),
      (life echo).run (some ((make []).start echo).2) [] = some (some t) ∧
      history t.destroy.ledger .session = [.acquire .session] := ⟨_, rfl, rfl⟩
  obtain ⟨u, hu, hstream⟩ : ∃ u : Http2Session (List UInt8),
      (life refusing).run (some ((make []).start refusing).2) [.makeStream 1, .makeStream 1] =
        some (some u) ∧
      history u.destroy.ledger (.stream ⟨0, 1⟩) = [.acquire (.stream ⟨0, 1⟩)] := ⟨_, rfl, rfl⟩
  refine ⟨t, u, ht, hu, rfl, hsession, hstream, ?_, ?_, nofun⟩
  · have hheld : Held t.destroy.ledger .session [] := hsession
    rintro ⟨_, ⟨⟩, hall⟩
    exact hheld.not_settled (hall .session trivial)
  · have hheld : Held u.destroy.ledger (.stream ⟨0, 1⟩) [] := hstream
    rintro ⟨_, ⟨⟩, hall⟩
    exact hheld.not_settled (hall (.stream ⟨0, 1⟩) trivial)

end Http2Session

end Http2Asio
