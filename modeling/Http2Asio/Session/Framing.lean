import Http2Asio.Transition.System
import Http2Asio.Session.StreamTable

/-!
# `on_write` frames the output without loss

nghttp2 hands out its output in chunks; `on_write` packs them into buffers of
capacity `N` and stashes the chunk that does not fit any more, by pointer and size,
until the next call.  The law of this file is conservation: what the calls have
delivered, followed by what is stashed, is what nghttp2 has returned.

* `onWriteLoop_packed` is the law for the loop, from any point of it, by induction on
  the rounds.  The stash is empty inside the loop, so the prefix of the buffer alone
  stands for what was taken.
* `onWrite_packed` adds the head of the function.  It needs `StashValid`: the stash is
  the whole chunk of the last `mem_send`, and it fits.  The loop leaves such a stash
  behind, and `on_read` does not touch it.
* `onWrite_framing` is the law over runs that mix `on_write` and `on_read`.

A stash fits because the chunks fit; nothing else bounds it.
-/

namespace Http2Asio

open Transition

namespace Http2Session

variable {G : Type} {ng : Nghttp2 G} {N : ℕ} {s : Http2Session G}

/-! ## Callbacks leave the output side alone -/

/-- The fields that `on_write` works on. -/
def outputSide (s : Http2Session G) : G × Option OutputPointer × ℕ × Bool × SendHistory :=
  (s.session, s.outputData, s.outputSize, s.callbackInside, s.sends)

theorem outputSide_runCallback (callback : Callback) :
    (s.runCallback callback).outputSide = s.outputSide := by
  have heffect := runCallback_cases s callback
  generalize s.runCallback callback = t at heffect
  cases heffect with
  | nothing _ _ _ => rfl
  | create _ _ => rfl
  | deliver _ _ _ _ _ _ => rfl
  | close stream errorCode _ hfound => rw [close_eq errorCode hfound]; rfl

theorem outputSide_runCallbacks (callbacks : List Callback) :
    (s.runCallbacks callbacks).outputSide = s.outputSide := by
  induction callbacks generalizing s with
  | nil => rfl
  | cons callback callbacks ih => exact ih.trans (outputSide_runCallback callback)

@[simp] theorem session_runCallbacks (callbacks : List Callback) :
    (s.runCallbacks callbacks).session = s.session :=
  congrArg Prod.fst (outputSide_runCallbacks callbacks)

@[simp] theorem outputData_runCallbacks (callbacks : List Callback) :
    (s.runCallbacks callbacks).outputData = s.outputData :=
  congrArg (fun side => side.2.1) (@outputSide_runCallbacks G s callbacks)

@[simp] theorem outputSize_runCallbacks (callbacks : List Callback) :
    (s.runCallbacks callbacks).outputSize = s.outputSize :=
  congrArg (fun side => side.2.2.1) (@outputSide_runCallbacks G s callbacks)

@[simp] theorem callbackInside_runCallbacks (callbacks : List Callback) :
    (s.runCallbacks callbacks).callbackInside = s.callbackInside :=
  congrArg (fun side => side.2.2.2.1) (@outputSide_runCallbacks G s callbacks)

@[simp] theorem sends_runCallbacks (callbacks : List Callback) :
    (s.runCallbacks callbacks).sends = s.sends :=
  congrArg (fun side => side.2.2.2.2) (@outputSide_runCallbacks G s callbacks)

/-! ## The library calls -/

/-- `s'` is `s` after a call of `mem_send`; the other fields say what it does to the output. -/
structure Sent (ng : Nghttp2 G) (s s' : Http2Session G) : Prop where
  state : s' = (s.memSend ng).2
  session : s'.session = (ng.memSend s.session).2.2
  outputData : s'.outputData = s.outputData
  sends : s'.sends = s.sends.record (ng.memSend s.session).1

theorem memSend_spec (s : Http2Session G) :
    ∃ s', s.memSend ng = ((ng.memSend s.session).1, s') ∧ Sent ng s s' :=
  ⟨_, rfl, rfl, by simp, by simp, by simp⟩

@[simp] theorem outputData_onRead (bytes : List UInt8) :
    (s.onRead ng bytes).2.outputData = s.outputData := by
  simp [onRead, memRecv, enterGuard, leaveGuard]

@[simp] theorem outputSize_onRead (bytes : List UInt8) :
    (s.onRead ng bytes).2.outputSize = s.outputSize := by
  simp [onRead, memRecv, enterGuard, leaveGuard]

@[simp] theorem sends_onRead (bytes : List UInt8) : (s.onRead ng bytes).2.sends = s.sends := by
  simp [onRead, memRecv, enterGuard, leaveGuard]

@[simp] theorem callbackInside_onRead (bytes : List UInt8) :
    (s.onRead ng bytes).2.callbackInside = false := rfl

@[simp] theorem callbackInside_onWrite (buffer : List UInt8) :
    (s.onWrite ng N buffer).handler.callbackInside = false := rfl

/-! ## The stash -/

/-- The stashed bytes, as a read through the pointer now would find them. -/
def stash (ng : Nghttp2 G) (s : Http2Session G) : List UInt8 :=
  match s.outputData with
  | none => []
  | some data => s.readOutput ng data s.outputSize

/-- A stash is the whole chunk of the last `mem_send`, is not empty, and fits into a
buffer. -/
def StashValid (N : ℕ) (s : Http2Session G) : Prop :=
  ∀ data, s.outputData = some data →
    data.call = s.sends.calls ∧ s.outputSize = s.sends.area.length ∧ 0 < s.outputSize ∧
      s.outputSize ≤ N

/-- Every read through a pointer of `mem_send` was made while the pointer was good. -/
def FreshReads (s : Http2Session G) : Prop :=
  ∀ read ∈ s.sends.reads, read.1.call = read.2

theorem stash_of_none (hnone : s.outputData = none) : s.stash ng = [] := by
  rw [stash, hnone]

theorem stashValid_of_none (hnone : s.outputData = none) : s.StashValid N := by
  intro data hdata
  rw [hnone] at hdata
  cases hdata

/-- A read through the pointer of the last `mem_send` finds its chunk. -/
theorem readOutput_of_call_eq {data : OutputPointer} (hcall : data.call = s.sends.calls) :
    s.readOutput ng data s.sends.area.length = s.sends.area := by
  rw [readOutput, if_pos hcall, List.take_length]

theorem StashValid.stash_eq (hvalid : s.StashValid N) {data : OutputPointer}
    (hdata : s.outputData = some data) : s.stash ng = s.sends.area := by
  obtain ⟨hcall, hsize, -, -⟩ := hvalid data hdata
  simp only [stash, hdata, hsize, readOutput_of_call_eq hcall]

theorem FreshReads.noteRead (hreads : s.FreshReads) {data : OutputPointer}
    (hcall : data.call = s.sends.calls) : (s.noteRead data).FreshReads := by
  intro read hread
  rcases List.mem_append.mp hread with hread | hread
  · exact hreads read hread
  · rw [List.mem_singleton.mp hread]
    exact hcall

/-! ## One call -/

/-- The account of an `on_write`, from a point where `held` is in the buffer: what the
result holds, in the buffer and in the stash, is `held` and what was returned since. -/
structure Packed (ng : Nghttp2 G) (N : ℕ) (s : Http2Session G) (held : List UInt8)
    (r : WriteResult (Http2Session G)) : Prop where
  conserved : ∃ taken, r.handler.sends.returned = s.sends.returned ++ taken ∧
    held ++ taken.flatten = r.buffer.take r.length ++ r.handler.stash ng
  length_le : r.length ≤ N
  length_le_buffer : r.length ≤ r.buffer.length
  stashValid : r.handler.StashValid N
  freshReads : r.handler.FreshReads
  /-- The case that `write_data` takes for nothing to write. -/
  idle : r.ok → r.length = 0 → r.handler.outputData = none
  /-- Without a stash the loop has ended on a `0`. -/
  dry : r.ok → r.handler.outputData = none →
    ∃ g, (ng.memSend g).1 = .chunk [] ∧ r.handler.session = (ng.memSend g).2.2

/-- One round of the loop: it ends, or copies a chunk and goes on. -/
inductive LoopRound (ng : Nghttp2 G) (N fuel length : ℕ) (buffer : List UInt8)
    (s : Http2Session G) : WriteResult (Http2Session G) → Prop
  | error (s' : Http2Session G) (hsent : Sent ng s s')
      (hresult : (ng.memSend s.session).1 = .error) :
      LoopRound ng N fuel length buffer s ⟨false, length, buffer, s'⟩
  /-- The library has nothing more. -/
  | dry (s' : Http2Session G) (hsent : Sent ng s s')
      (hresult : (ng.memSend s.session).1 = .chunk []) :
      LoopRound ng N fuel length buffer s ⟨true, length, buffer, s'⟩
  /-- The chunk does not fit any more and becomes the stash. -/
  | full (s' : Http2Session G) (bytes : List UInt8) (hsent : Sent ng s s')
      (hresult : (ng.memSend s.session).1 = .chunk bytes) (hbytes : 0 < bytes.length)
      (hfull : N < length + bytes.length) :
      LoopRound ng N fuel length buffer s
        ⟨true, length, buffer,
          { s' with outputData := some ⟨s'.sends.calls⟩, outputSize := bytes.length }⟩
  | more (s' : Http2Session G) (bytes : List UInt8) (r : WriteResult (Http2Session G))
      (hsent : Sent ng s s') (hresult : (ng.memSend s.session).1 = .chunk bytes)
      (hbytes : 0 < bytes.length) (hfits : length + bytes.length ≤ N)
      (hrest : onWriteLoop ng N fuel (length + bytes.length) (copyN bytes length buffer)
        (s'.noteRead ⟨s'.sends.calls⟩) = some r) :
      LoopRound ng N fuel length buffer s r

theorem onWriteLoop_cases {fuel length : ℕ} {buffer : List UInt8}
    {r : WriteResult (Http2Session G)}
    (hloop : onWriteLoop ng N (fuel + 1) length buffer s = some r) :
    LoopRound ng N fuel length buffer s r := by
  obtain ⟨s', hsend, hsent⟩ := @memSend_spec G ng s
  rw [onWriteLoop, hsend] at hloop
  cases hresult : (ng.memSend s.session).1 with
  | error =>
      rw [hresult] at hloop
      cases hloop
      exact .error s' hsent hresult
  | chunk bytes =>
      rw [hresult] at hloop
      dsimp only at hloop
      split_ifs at hloop with hdry hfull
      · cases hloop
        have hempty : bytes = [] := List.eq_nil_of_length_eq_zero hdry
        rw [hempty] at hresult
        exact .dry s' hsent hresult
      · cases hloop
        exact .full s' bytes hsent hresult (Nat.pos_of_ne_zero hdry) hfull
      · -- the pointer is the one that `mem_send` has just set
        have hread : s'.readOutput ng ⟨s'.sends.calls⟩ bytes.length = bytes := by
          have harea : s'.sends.area = bytes := by
            rw [hsent.sends, hresult]
            rfl
          have hfound := @readOutput_of_call_eq G ng s' ⟨s'.sends.calls⟩ rfl
          rwa [harea] at hfound
        rw [hread] at hloop
        exact .more s' bytes r hsent hresult (Nat.pos_of_ne_zero hdry) (by omega) hloop

namespace Sent

variable {s' : Http2Session G} {bytes : List UInt8}

theorem freshReads (hsent : Sent ng s s') (hfresh : s.FreshReads) : s'.FreshReads := by
  unfold FreshReads
  rw [hsent.sends]
  cases (ng.memSend s.session).1 <;> exact hfresh

theorem calls (hsent : Sent ng s s') : s'.sends.calls = s.sends.calls + 1 := by
  rw [hsent.sends]
  cases (ng.memSend s.session).1 <;> rfl

theorem area (hsent : Sent ng s s') (hresult : (ng.memSend s.session).1 = .chunk bytes) :
    s'.sends.area = bytes := by
  rw [hsent.sends, hresult]
  rfl

theorem returned (hsent : Sent ng s s') (hresult : (ng.memSend s.session).1 = .chunk bytes) :
    s'.sends.returned = s.sends.returned ++ [bytes] := by
  rw [hsent.sends, hresult]
  rfl

end Sent

theorem onWriteLoop_packed (hN : ng.ChunksAtMost N) :
    ∀ (fuel length : ℕ) (buffer : List UInt8) (s : Http2Session G)
      (r : WriteResult (Http2Session G)),
      s.outputData = none → s.FreshReads → length ≤ N → length ≤ buffer.length →
      onWriteLoop ng N fuel length buffer s = some r → Packed ng N s (buffer.take length) r := by
  intro fuel
  induction fuel with
  | zero =>
      intro length buffer s r _ _ _ _ hloop
      simp [onWriteLoop] at hloop
  | succ fuel ih =>
      intro length buffer s r hnone hfresh hlength hbuffer hloop
      cases onWriteLoop_cases hloop with
      -- the call fails: nothing was returned, and nothing is held back
      | error s' hsent hresult =>
          have hdata : s'.outputData = none := hsent.outputData.trans hnone
          refine ⟨⟨[], ?_, ?_⟩, hlength, hbuffer, stashValid_of_none hdata, hsent.freshReads hfresh,
            fun hok => absurd hok Bool.false_ne_true, fun hok => absurd hok Bool.false_ne_true⟩
          · rw [List.append_nil, hsent.sends, hresult]
            rfl
          · rw [stash_of_none hdata, List.flatten_nil]
      -- nghttp2 has no more: the empty chunk it returned adds nothing
      | dry s' hsent hresult =>
          have hdata : s'.outputData = none := hsent.outputData.trans hnone
          refine ⟨⟨[[]], hsent.returned hresult, ?_⟩, hlength, hbuffer, stashValid_of_none hdata,
            hsent.freshReads hfresh, fun _ _ => hdata, ?_⟩
          · simp [stash_of_none hdata]
          · exact fun _ _ => ⟨s.session, hresult, hsent.session⟩
      -- the chunk does not fit: all of it becomes the stash, and the buffer is not empty
      | full s' bytes hsent hresult hbytes hfull =>
          have hbound : bytes.length ≤ N := hN s.session bytes hresult
          have hvalid : StashValid N { s' with
              outputData := some ⟨s'.sends.calls⟩, outputSize := bytes.length } := by
            rintro data ⟨⟩
            refine ⟨rfl, ?_, hbytes, hbound⟩
            rw [hsent.area hresult]
          refine ⟨⟨[bytes], hsent.returned hresult, ?_⟩, hlength, hbuffer, hvalid,
            hsent.freshReads hfresh, ?_, fun _ hnone => absurd hnone (Option.some_ne_none _)⟩
          · rw [hvalid.stash_eq rfl, hsent.area hresult, List.flatten_singleton]
          · intro _ hzero
            have hzero' : length = 0 := hzero
            omega
      -- the chunk is copied behind the ones before it, and the loop goes on
      | more s' bytes _ hsent hresult hbytes hfits hrest =>
          have hfill := @le_length_copyN bytes _ _ hbuffer
          have hnoted : (s'.noteRead ⟨s'.sends.calls⟩).FreshReads :=
            (hsent.freshReads hfresh).noteRead rfl
          have hpacked := ih _ _ (s'.noteRead ⟨s'.sends.calls⟩) r (hsent.outputData.trans hnone)
            hnoted hfits hfill hrest
          obtain ⟨taken, hmore, hheld⟩ := hpacked.conserved
          have hmore' : r.handler.sends.returned = s'.sends.returned ++ taken := hmore
          refine { hpacked with conserved := ⟨bytes :: taken, ?_, ?_⟩ }
          · rw [hmore', hsent.returned hresult, List.append_assoc, List.singleton_append]
          · rw [take_copyN hbuffer] at hheld
            rw [← hheld, List.flatten_cons, List.append_assoc]

/-- A round of the loop is one call of `mem_send`. -/
theorem calls_onWriteLoop_le :
    ∀ (fuel length : ℕ) (buffer : List UInt8) (s : Http2Session G)
      (r : WriteResult (Http2Session G)),
      onWriteLoop ng N fuel length buffer s = some r →
      r.handler.sends.calls ≤ s.sends.calls + fuel := by
  intro fuel
  induction fuel with
  | zero =>
      intro length buffer s r hloop
      simp [onWriteLoop] at hloop
  | succ fuel ih =>
      intro length buffer s r hloop
      cases onWriteLoop_cases hloop with
      | error s' hsent _ | dry s' hsent _ | full s' bytes hsent _ _ _ =>
          have hcalls := hsent.calls
          show s'.sends.calls ≤ _
          omega
      | more s' bytes _ hsent _ _ _ hrest =>
          have hcalls := hsent.calls
          have hle : r.handler.sends.calls ≤ s'.sends.calls + fuel :=
            ih _ _ (s'.noteRead ⟨s'.sends.calls⟩) r hrest
          omega

/-- What `on_write` does, in terms of its loop. -/
theorem onWrite_eq_loop (s : Http2Session G) (buffer : List UInt8) :
    ∃ length buffer' s' r, s.enterGuard.takeStash ng buffer = (length, buffer', s') ∧
      onWriteLoop ng N (N + 1) length buffer' s' = some r ∧
      s.onWrite ng N buffer = { r with handler := r.handler.leaveGuard } :=
  ⟨_, _, _, _, rfl, (Option.some_get _).symm, rfl⟩

theorem calls_takeStash (s : Http2Session G) (buffer : List UInt8) :
    (s.takeStash ng buffer).2.2.sends.calls = s.sends.calls := by
  unfold takeStash
  split <;> rfl

theorem calls_onWrite_le (s : Http2Session G) (buffer : List UInt8) :
    (s.onWrite ng N buffer).handler.sends.calls ≤ s.sends.calls + (N + 1) := by
  obtain ⟨length, buffer', s', r, htake, hloop, hwrite⟩ := @onWrite_eq_loop G ng N s buffer
  have hcalls := calls_onWriteLoop_le _ _ _ _ _ hloop
  have hsame := @calls_takeStash G ng s.enterGuard buffer
  rw [htake] at hsame
  rw [hwrite]
  have hguard : s'.sends.calls = s.sends.calls := hsame
  show r.handler.sends.calls ≤ _
  omega

theorem takeStash_of_none (hdata : s.outputData = none) (buffer : List UInt8) :
    s.takeStash ng buffer = (0, buffer, s) := by
  rw [takeStash, hdata]

theorem takeStash_of_some {data : OutputPointer} (hdata : s.outputData = some data)
    (hcall : data.call = s.sends.calls) (hsize : s.outputSize = s.sends.area.length)
    (buffer : List UInt8) :
    s.takeStash ng buffer = (s.outputSize, copyN s.sends.area 0 buffer,
      { s.noteRead data with outputData := none, outputSize := 0 }) := by
  have hread : s.readOutput ng data s.outputSize = s.sends.area := by
    rw [hsize, readOutput_of_call_eq hcall]
  rw [takeStash, hdata]
  dsimp only
  rw [hread]

/-- The head of `on_write` puts the stash into the buffer. -/
theorem takeStash_spec (hvalid : s.StashValid N) (hfresh : s.FreshReads) (buffer : List UInt8) :
    ∃ length buffer' s', s.takeStash ng buffer = (length, buffer', s') ∧
      length ≤ N ∧ length ≤ buffer'.length ∧ buffer'.take length = s.stash ng ∧
      s'.outputData = none ∧ s'.FreshReads ∧ s'.sends.returned = s.sends.returned := by
  cases hdata : s.outputData with
  | none =>
      refine ⟨0, buffer, s, takeStash_of_none hdata buffer, by omega, by omega, ?_, hdata, hfresh,
        rfl⟩
      simp [stash_of_none hdata]
  | some data =>
      obtain ⟨hcall, hsize, hpos, hfits⟩ := hvalid data hdata
      have hfill := @le_length_copyN s.sends.area buffer 0 (Nat.zero_le _)
      have hfront := @take_copyN s.sends.area buffer 0 (Nat.zero_le _)
      refine ⟨_, _, _, takeStash_of_some hdata hcall hsize buffer, hfits, by omega, ?_, rfl,
        hfresh.noteRead hcall, rfl⟩
      rw [hvalid.stash_eq hdata, hsize]
      simpa using hfront

theorem onWrite_packed (hN : ng.ChunksAtMost N) (hvalid : s.StashValid N) (hfresh : s.FreshReads)
    (buffer : List UInt8) : Packed ng N s (s.stash ng) (s.onWrite ng N buffer) := by
  obtain ⟨length, buffer', s', r, htake, hloop, hwrite⟩ := @onWrite_eq_loop G ng N s buffer
  have hvalid' : s.enterGuard.StashValid N := hvalid
  have hfresh' : s.enterGuard.FreshReads := hfresh
  obtain ⟨_, _, _, htake', hlength, hfits, hfront, hnone, hfresh'', hreturned⟩ :=
    @takeStash_spec G ng N _ hvalid' hfresh' buffer
  cases htake.symm.trans htake'
  have hpacked : Packed ng N s' (buffer'.take length) r :=
    onWriteLoop_packed hN _ _ _ _ _ hnone hfresh'' hlength hfits hloop
  have hguard : s'.sends.returned = s.sends.returned := hreturned
  have hstash : buffer'.take length = s.stash ng := hfront
  rw [hwrite]
  obtain ⟨taken, hmore, hheld⟩ := hpacked.conserved
  refine { hpacked with conserved := ⟨taken, ?_, ?_⟩ }
  · rw [← hguard]
    exact hmore
  · rw [← hstash]
    exact hheld

/-! ## After `start` -/

theorem start_output (s : Http2Session G) :
    (s.start ng).2.outputData = s.outputData ∧ (s.start ng).2.sends = s.sends := by
  unfold start
  dsimp only
  split_ifs
  · exact ⟨rfl, rfl⟩
  · exact ⟨rfl, rfl⟩
  · exact ⟨rfl, rfl⟩

theorem stashValid_start (g : G) : StashValid N ((make g).start ng).2 := by
  obtain ⟨hdata, -⟩ := @start_output G ng (make g)
  exact stashValid_of_none hdata

theorem freshReads_start (g : G) : FreshReads ((make g).start ng).2 := by
  obtain ⟨-, hsends⟩ := @start_output G ng (make g)
  unfold FreshReads
  rw [hsends]
  intro read hread
  cases hread

theorem stashValid_onRead (hvalid : s.StashValid N) (bytes : List UInt8) :
    StashValid N (s.onRead ng bytes).2 := by
  unfold StashValid
  rw [outputData_onRead, outputSize_onRead, sends_onRead]
  exact hvalid

theorem freshReads_onRead (hfresh : s.FreshReads) (bytes : List UInt8) :
    FreshReads (s.onRead ng bytes).2 := by
  unfold FreshReads
  rw [sends_onRead]
  exact hfresh

theorem stash_onRead (bytes : List UInt8) : (s.onRead ng bytes).2.stash ng = s.stash ng := by
  unfold stash
  rw [outputData_onRead, outputSize_onRead]
  unfold readOutput
  rw [sends_onRead]

/-! ## Runs of `on_write` and `on_read` -/

/-- A session, and what its calls of `on_write` have delivered. -/
structure Framing (G : Type) where
  session : Http2Session G
  delivered : List UInt8 := []
  failed : Bool := false

/-- A call from outside; `on_write` overwrites whatever the buffer holds. -/
inductive FramingEvent
  | onRead (bytes : List UInt8)
  | onWrite (buffer : List UInt8)

/-- Calls in any order, up to the first `on_write` that returns `false`. -/
def framing (ng : Nghttp2 G) (N : ℕ) : System (Framing G) FramingEvent where
  init t := ∃ g, t = { session := ((make g).start ng).2 }
  step t e :=
    if t.failed then none
    else
      match e with
      | .onRead bytes => some { t with session := (t.session.onRead ng bytes).2 }
      | .onWrite buffer =>
          let r := t.session.onWrite ng N buffer
          some { session := r.handler
                 delivered := t.delivered ++ r.buffer.take r.length
                 failed := !r.ok }

/-- The invariant of `framing`. -/
structure Framed (ng : Nghttp2 G) (N : ℕ) (t : Framing G) : Prop where
  conserved : t.delivered ++ t.session.stash ng = t.session.sends.returned.flatten
  stashValid : t.session.StashValid N
  freshReads : t.session.FreshReads

theorem framed_init (g : G) : Framed ng N { session := ((make g).start ng).2 } := by
  obtain ⟨hdata, hsends⟩ := @start_output G ng (make g)
  refine ⟨?_, stashValid_start g, freshReads_start g⟩
  rw [stash_of_none hdata, hsends]
  rfl

theorem framed_invariant (hN : ng.ChunksAtMost N) : (framing ng N).Invariant (Framed ng N) where
  init := by
    rintro _ ⟨g, rfl⟩
    exact framed_init g
  step t e u ht hstep := by
    obtain ⟨hconserved, hvalid, hfresh⟩ := ht
    dsimp only [framing] at hstep
    split_ifs at hstep with hfailed
    cases e with
    | onRead bytes =>
        cases hstep
        refine ⟨?_, stashValid_onRead hvalid bytes, freshReads_onRead hfresh bytes⟩
        rw [stash_onRead, sends_onRead]
        exact hconserved
    | onWrite buffer =>
        cases hstep
        have hpacked := onWrite_packed hN hvalid hfresh buffer
        obtain ⟨taken, hreturned, hheld⟩ := hpacked.conserved
        refine ⟨?_, hpacked.stashValid, hpacked.freshReads⟩
        calc (t.delivered ++ (t.session.onWrite ng N buffer).buffer.take
                (t.session.onWrite ng N buffer).length) ++
              (t.session.onWrite ng N buffer).handler.stash ng
            = t.delivered ++ (t.session.stash ng ++ taken.flatten) := by
              rw [List.append_assoc, hheld]
          _ = t.session.sends.returned.flatten ++ taken.flatten := by
              rw [← List.append_assoc, hconserved]
          _ = (t.session.onWrite ng N buffer).handler.sends.returned.flatten := by
              rw [hreturned, List.flatten_append]

/-- **Lossless, in-order framing.**  In every state that calls of `on_write` and
`on_read` lead to: what was delivered, followed by the stash, is what `mem_send` has
returned; a stash belongs to the last call of `mem_send`, and so did every pointer that
was ever read through; and a further `on_write` ends within `N + 1` calls of `mem_send`
with at most `N` bytes. -/
theorem onWrite_framing (hN : ng.ChunksAtMost N) {t : Framing G}
    (ht : (framing ng N).Reachable t) :
    t.delivered ++ t.session.stash ng = t.session.sends.returned.flatten ∧
      (∀ data, t.session.outputData = some data → data.call = t.session.sends.calls) ∧
      (∀ read ∈ t.session.sends.reads, read.1.call = read.2) ∧
      ∀ buffer,
        (t.session.onWrite ng N buffer).handler.sends.calls ≤ t.session.sends.calls + (N + 1) ∧
        (t.session.onWrite ng N buffer).length ≤ N := by
  have hframed : Framed ng N t := (framed_invariant hN).reachable ht
  refine ⟨hframed.conserved, ?_, hframed.freshReads, ?_⟩
  · intro data hdata
    exact (hframed.stashValid data hdata).1
  · intro buffer
    have hpacked := onWrite_packed hN hframed.stashValid hframed.freshReads buffer
    exact ⟨calls_onWrite_le t.session buffer, hpacked.length_le⟩

/-- A library that sends back what it has read, two bytes at a time, and is done when
nothing is left. -/
def echo : Nghttp2 (List UInt8) where
  callbacksNew g := (0, g)
  sessionServerNew g := (0, g)
  submitSettings _ g := g
  memRecv bytes g := (bytes.length, [], g ++ bytes)
  memSend g := (.chunk (g.take 2), [], g.drop 2)
  wantRead _ := false
  wantWrite g := g != []
  stale _ _ := 0

theorem echo_chunksAtMost (hN : 2 ≤ N) : echo.ChunksAtMost N := by
  rintro g _ ⟨⟩
  rw [List.length_take]
  omega

theorem echo_reportsPending : echo.ReportsPending (· ≠ []) := by
  intro g hzero hpending
  have hnil : g.take 2 = [] := MemSend.chunk.inj hzero
  have hleft : g.drop 2 ≠ [] := hpending
  apply hleft
  rcases List.take_eq_nil_iff.mp hnil with h | h
  · cases h
  · rw [h, List.drop_nil]

/-- Four bytes and a buffer of three: the second chunk is stashed, and the second
`on_write` copies it out. -/
def echoFour : List FramingEvent :=
  [.onRead [1, 2, 3, 4], .onWrite [], .onWrite []]

theorem onWrite_framing_echoFour :
    ∃ t : Framing (List UInt8),
      (framing echo 3).run { session := ((make []).start echo).2 } echoFour = some t ∧
      t.delivered ++ t.session.stash echo = t.session.sends.returned.flatten ∧
      t.delivered = [1, 2, 3, 4] := by
  have hN : echo.ChunksAtMost 3 := echo_chunksAtMost (by omega)
  have hframing := fun t ht => (@onWrite_framing (List UInt8) echo 3 hN t ht).1
  exact ⟨_, rfl, hframing _ ⟨_, echoFour, ⟨[], rfl⟩, rfl⟩, by decide⟩

end Http2Session

end Http2Asio
