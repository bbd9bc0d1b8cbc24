import Http2Asio.Session.Framing

/-!
# `on_write` and the capacity of its buffer

The loop of `on_write` tests a chunk against the room that is left before it copies it.
Two places go without a test.  A chunk that does not fit is stashed whatever its size,
and the head of the next call copies the stash into the buffer as it is.  And a chunk
that does not even fit into an empty buffer is stashed with nothing before it, so that
the call returns `true` with length `0`, which `write_data` takes for nothing to write.

So a call keeps to its buffer, and hides nothing, exactly if the stash it finds fits, or,
where it finds none, the first chunk does (`onWrite_contained_iff`).

`StashWhole` is the invariant over a run: what is stashed is the whole chunk of the last
`mem_send`, whatever its size.  The loop is followed with two questions, how far it fills the
buffer and whether it leaves a stash behind an empty one; after the first chunk both are
answered by its own test (`onWriteLoop_contained`), which leaves the first chunk as the only
one that decides.
-/

namespace Http2Asio

open Transition

theorem length_copyN {bytes buffer : List UInt8} {offset : ℕ} (hoffset : offset ≤ buffer.length) :
    (copyN bytes offset buffer).length = max buffer.length (offset + bytes.length) := by
  simp only [copyN, List.length_append, List.length_take, List.length_drop]
  omega

namespace Http2Session

variable {G : Type} {ng : Nghttp2 G} {N : ℕ} {s : Http2Session G} {r : WriteResult (Http2Session G)}

/-- A stash is the whole chunk of the last `mem_send` and is not empty; nothing bounds it. -/
def StashWhole (s : Http2Session G) : Prop :=
  ∀ data, s.outputData = some data →
    data.call = s.sends.calls ∧ s.outputSize = s.sends.area.length ∧ 0 < s.outputSize

/-- The call has kept to its buffer of capacity `N`, and has not hidden any output. -/
structure Contained (N : ℕ) (r : WriteResult (Http2Session G)) : Prop where
  /-- No byte was copied to an index from `N` on. -/
  buffer_le : r.buffer.length ≤ N
  length_le : r.length ≤ N
  shown : r.ok = true → r.length = 0 → r.handler.outputData = none

/-- The stash fits into the buffer, or, if there is none, the next chunk does. -/
structure Fits (ng : Nghttp2 G) (N : ℕ) (s : Http2Session G) : Prop where
  stash : ∀ data, s.outputData = some data → s.outputSize ≤ N
  first : s.outputData = none → ∀ bytes, (ng.memSend s.session).1 = .chunk bytes →
    bytes.length ≤ N

/-! ## The loop -/

theorem stashWhole_of_none (hnone : s.outputData = none) : s.StashWhole := by
  intro data hdata
  cases hnone.symm.trans hdata

theorem stashWhole_onWriteLoop :
    ∀ (fuel length : ℕ) (buffer : List UInt8) (s : Http2Session G)
      (r : WriteResult (Http2Session G)), s.outputData = none →
      onWriteLoop ng N fuel length buffer s = some r → r.handler.StashWhole := by
  intro fuel
  induction fuel with
  | zero =>
      intro length buffer s r _ hloop
      simp [onWriteLoop] at hloop
  | succ fuel ih =>
      intro length buffer s r hnone hloop
      cases onWriteLoop_cases hloop with
      | error s' hsent _ | dry s' hsent _ =>
          exact stashWhole_of_none (hsent.outputData.trans hnone)
      | full s' bytes hsent hresult hbytes _ =>
          rintro data ⟨⟩
          refine ⟨rfl, ?_, hbytes⟩
          rw [hsent.area hresult]
      | more s' bytes _ hsent _ _ _ hrest =>
          exact ih _ _ (s'.noteRead ⟨s'.sends.calls⟩) r (hsent.outputData.trans hnone) hrest

/-- The loop takes nothing back. -/
theorem le_length_onWriteLoop :
    ∀ (fuel length : ℕ) (buffer : List UInt8) (s : Http2Session G)
      (r : WriteResult (Http2Session G)),
      onWriteLoop ng N fuel length buffer s = some r → length ≤ r.length := by
  intro fuel
  induction fuel with
  | zero =>
      intro length buffer s r hloop
      simp [onWriteLoop] at hloop
  | succ fuel ih =>
      intro length buffer s r hloop
      cases onWriteLoop_cases hloop with
      | error _ _ _ | dry _ _ _ | full _ _ _ _ _ _ => exact le_rfl
      | more s' bytes _ _ _ _ _ hrest =>
          have hle := ih _ _ _ _ hrest
          omega

/-- Once something is in the buffer, whatever the library returns is tested. -/
theorem onWriteLoop_contained :
    ∀ (fuel length : ℕ) (buffer : List UInt8) (s : Http2Session G)
      (r : WriteResult (Http2Session G)), s.outputData = none →
      length ≤ buffer.length → buffer.length ≤ N →
      (length = 0 → ∀ bytes, (ng.memSend s.session).1 = .chunk bytes → bytes.length ≤ N) →
      onWriteLoop ng N fuel length buffer s = some r → Contained N r := by
  intro fuel
  induction fuel with
  | zero =>
      intro length buffer s r _ _ _ _ hloop
      simp [onWriteLoop] at hloop
  | succ fuel ih =>
      intro length buffer s r hnone hlength hbuffer hfirst hloop
      cases onWriteLoop_cases hloop with
      | error s' _ _ =>
          exact ⟨hbuffer, Nat.le_trans hlength hbuffer, fun hok => absurd hok Bool.false_ne_true⟩
      | dry s' hsent _ =>
          exact ⟨hbuffer, Nat.le_trans hlength hbuffer, fun _ _ => hsent.outputData.trans hnone⟩
      | full s' bytes _ hresult _ hfull =>
          refine ⟨hbuffer, Nat.le_trans hlength hbuffer, ?_⟩
          intro _ hzero
          have hzero' : length = 0 := hzero
          have hfits := hfirst hzero' bytes hresult
          omega
      | more s' bytes _ hsent _ hbytes hfits hrest =>
          have hgrown := @length_copyN bytes buffer length hlength
          refine ih _ _ (s'.noteRead ⟨s'.sends.calls⟩) r (hsent.outputData.trans hnone) ?_ ?_ ?_
            hrest
          · omega
          · omega
          -- behind a chunk the buffer is not empty any more
          · intro hzero
            omega

/-! ## One call -/

theorem stashWhole_onWrite (hwhole : s.StashWhole) (buffer : List UInt8) :
    (s.onWrite ng N buffer).handler.StashWhole := by
  obtain ⟨length, buffer', s', r, htake, hloop, hwrite⟩ := @onWrite_eq_loop G ng N s buffer
  have hnone : s'.outputData = none := by
    cases hdata : s.enterGuard.outputData with
    | none =>
        cases htake.symm.trans (takeStash_of_none hdata buffer)
        exact hdata
    | some data =>
        obtain ⟨hcall, hsize, -⟩ := hwhole data hdata
        cases htake.symm.trans (takeStash_of_some hdata hcall hsize buffer)
        rfl
  have hloopWhole : r.handler.StashWhole := stashWhole_onWriteLoop _ _ _ _ _ hnone hloop
  rw [hwrite]
  exact hloopWhole

/-- A call meets its contract exactly if what it starts with fits. -/
theorem onWrite_contained_iff (hwhole : s.StashWhole) {buffer : List UInt8}
    (hbuffer : buffer.length ≤ N) : Contained N (s.onWrite ng N buffer) ↔ s.Fits ng N := by
  obtain ⟨length, buffer', s', r, htake, hloop, hwrite⟩ := @onWrite_eq_loop G ng N s buffer
  rw [hwrite]
  cases hdata : s.outputData with
  | none =>
      cases htake.symm.trans (@takeStash_of_none G ng s.enterGuard hdata buffer)
      by_cases hfirst : ∀ bytes, (ng.memSend s.session).1 = .chunk bytes → bytes.length ≤ N
      · have hcontained : Contained N r :=
          onWriteLoop_contained _ _ _ s.enterGuard _ hdata (Nat.zero_le _) hbuffer
            (fun _ => hfirst) hloop
        refine iff_of_true ⟨hcontained.buffer_le, hcontained.length_le, hcontained.shown⟩ ⟨?_, ?_⟩
        · intro data hsome
          cases hdata.symm.trans hsome
        · exact fun _ => hfirst
      · refine iff_of_false ?_ fun hfits => hfirst (hfits.first hdata)
        push Not at hfirst
        obtain ⟨bytes, hresult, hlong⟩ := hfirst
        -- the chunk is stashed with nothing before it
        intro hcontained
        cases onWriteLoop_cases hloop with
        | error _ _ hother => cases hresult.symm.trans hother
        | dry _ _ hother =>
            cases hresult.symm.trans hother
            exact Nat.not_lt_zero N hlong
        | full _ _ _ _ _ _ => cases hcontained.shown rfl rfl
        | more _ bytes' _ _ hother _ hfits _ =>
            cases hresult.symm.trans hother
            omega
  | some data =>
      obtain ⟨hcall, hsize, hpos⟩ := hwhole data hdata
      cases htake.symm.trans (@takeStash_of_some G ng s.enterGuard data hdata hcall hsize buffer)
      by_cases hfits : s.outputSize ≤ N
      · have hgrown := @length_copyN s.sends.area buffer 0 (Nat.zero_le _)
        have hcontained : Contained N r := by
          refine onWriteLoop_contained _ _ _ _ _ rfl ?_ ?_ ?_ hloop
          · change s.outputSize ≤ (copyN s.sends.area 0 buffer).length
            omega
          · change (copyN s.sends.area 0 buffer).length ≤ N
            omega
          · intro hzero
            exact absurd hzero (Nat.ne_of_gt hpos)
        refine iff_of_true ⟨hcontained.buffer_le, hcontained.length_le, hcontained.shown⟩ ⟨?_, ?_⟩
        · exact fun _ _ => hfits
        · intro hnone
          cases hdata.symm.trans hnone
      · refine iff_of_false ?_ fun h => hfits (h.stash data hdata)
        -- the stash is in the buffer before anything is tested
        intro hcontained
        have hle : s.outputSize ≤ r.length := le_length_onWriteLoop _ _ _ _ _ hloop
        exact hfits (Nat.le_trans hle hcontained.length_le)

/-! ## Runs of `on_write` and `on_read` -/

/-- A session, and the results of its calls of `on_write`. -/
structure Writing (G : Type) where
  session : Http2Session G
  results : List (WriteResult (Http2Session G)) := []

/-- Calls in any order; the array holds at most `N` bytes. -/
def writing (ng : Nghttp2 G) (N : ℕ) : System (Writing G) FramingEvent where
  init t := ∃ g, t = { session := ((make g).start ng).2 }
  step t
    | .onRead bytes => some { t with session := (t.session.onRead ng bytes).2 }
    | .onWrite buffer =>
        if N < buffer.length then none
        else
          let r := t.session.onWrite ng N buffer
          some { session := r.handler, results := t.results ++ [r] }

/-- All calls of `on_write` have met their contract. -/
def AllContained (N : ℕ) (t : Writing G) : Prop :=
  ∀ r ∈ t.results, Contained N r

/-- If the event is an `on_write`, what it starts with fits. -/
def StartsFitting (ng : Nghttp2 G) (N : ℕ) (t : Writing G) : FramingEvent → Prop
  | .onRead _ => True
  | .onWrite _ => t.session.Fits ng N

theorem stashWhole_invariant : (writing ng N).Invariant fun t => t.session.StashWhole where
  init := by
    rintro _ ⟨g, rfl⟩
    exact stashWhole_of_none (@start_output G ng (make g)).1
  step t e u hwhole hstep := by
    cases e with
    | onRead bytes =>
        cases hstep
        unfold StashWhole
        dsimp only
        rw [outputData_onRead, outputSize_onRead, sends_onRead]
        exact hwhole
    | onWrite buffer =>
        dsimp only [writing] at hstep
        split_ifs at hstep
        cases hstep
        exact stashWhole_onWrite hwhole buffer

theorem allContained_step {t u : Writing G} {e : FramingEvent} (hwhole : t.session.StashWhole)
    (hstep : (writing ng N).step t e = some u) :
    AllContained N u ↔ AllContained N t ∧ StartsFitting ng N t e := by
  cases e with
  | onRead bytes =>
      cases hstep
      exact (and_iff_left trivial).symm
  | onWrite buffer =>
      dsimp only [writing] at hstep
      split_ifs at hstep with hbuffer
      cases hstep
      change (∀ r ∈ t.results ++ [t.session.onWrite ng N buffer], Contained N r) ↔ _
      rw [List.forall_mem_append, List.forall_mem_singleton,
        onWrite_contained_iff hwhole (Nat.le_of_not_lt hbuffer)]
      rfl

/-- Over any run, every `on_write` keeps to its buffer and hides no output, exactly if each
of them starts with a stash that fits or, without one, with a chunk that does. -/
theorem allContained_iff_meets {t u : Writing G} {events : List FramingEvent}
    (hinit : (writing ng N).init t) (hrun : (writing ng N).run t events = some u) :
    AllContained N u ↔ (writing ng N).Meets (StartsFitting ng N) t events := by
  have hstart : AllContained N t := by
    obtain ⟨g, rfl⟩ := hinit
    exact List.forall_mem_nil _
  have hexact : AllContained N u ↔
      AllContained N t ∧ (writing ng N).Meets (StartsFitting ng N) t events :=
    System.run_iff_meets stashWhole_invariant
      (fun _ _ _ hwhole hstep => allContained_step hwhole hstep)
      (stashWhole_invariant.init t hinit) hrun
  rw [hexact, and_iff_right hstart]

/-- The second chunk does not fit behind the first, and is copied by the second call. -/
theorem allContained_iff_meets_echoFour :
    ∃ t : Writing (List UInt8),
      (writing echo 3).run { session := ((make []).start echo).2 } echoFour = some t ∧
      t.results.length = 2 ∧ AllContained 3 t := by
  obtain ⟨t, hrun, hlength⟩ : ∃ t : Writing (List UInt8),
      (writing echo 3).run { session := ((make []).start echo).2 } echoFour = some t ∧
      t.results.length = 2 := ⟨_, rfl, rfl⟩
  refine ⟨t, hrun, hlength, (allContained_iff_meets ⟨[], rfl⟩ hrun).mpr ?_⟩
  have hN : echo.ChunksAtMost 3 := echo_chunksAtMost (by omega)
  refine (System.meets_cons rfl).mpr ⟨trivial, ?_⟩
  refine (System.meets_cons rfl).mpr ⟨⟨nofun, fun _ => hN _⟩, ?_⟩
  refine (System.meets_cons rfl).mpr ⟨⟨fun _ _ => ?_, fun _ => hN _⟩, trivial⟩
  decide

/-- A library that has some chunks to return. -/
def returning : Nghttp2 (List (List UInt8)) where
  callbacksNew g := (0, g)
  sessionServerNew g := (0, g)
  submitSettings _ g := g
  memRecv bytes g := (bytes.length, [], g)
  memSend
    | [] => (.chunk [], [], [])
    | bytes :: g => (.chunk bytes, [], g)
  wantRead _ := false
  wantWrite g := g != []
  stale _ _ := 0

/-- A chunk of three bytes and a buffer of two: behind another chunk it is copied past the
end of the array, and alone it is hidden. -/
theorem not_allContained_threeBytes :
    ∃ t u : Writing (List (List UInt8)),
      (writing returning 2).run { session := ((make [[1], [2, 3, 4]]).start returning).2 }
        [.onWrite [], .onWrite []] = some t ∧
      (writing returning 2).run { session := ((make [[1, 2, 3]]).start returning).2 }
        [.onWrite []] = some u ∧
      t.results.map (fun r => (r.ok, r.length, r.buffer)) =
        [(true, 1, [1]), (true, 3, [2, 3, 4])] ∧
      u.results.map (fun r => (r.ok, r.length, r.handler.outputSize)) = [(true, 0, 3)] ∧
      ¬ AllContained 2 t ∧ ¬ AllContained 2 u := by
  refine ⟨_, _, rfl, rfl, by decide, by decide, ?_, ?_⟩
  · intro hall
    have hsecond := (hall _ (List.mem_cons_of_mem _ List.mem_cons_self)).length_le
    revert hsecond
    decide
  · intro hall
    cases (hall _ List.mem_cons_self).shown rfl rfl

end Http2Session

end Http2Asio
