import Http2Asio.Http1.Lawful

/-!
# Runs of the HTTP/1 parser

A lawful reaction, run from a cursor that it was judged from, returns or leaves the loop
fit for the next byte (`Reaction.run_sound`); so does the loop by induction on its fuel
(`mainLoop_sound`), and a call of `http_parser_execute` (`httpParserExecute_sound`).

The calls are followed through a relation `T` between the state of the callbacks and the
phase.  `Tracks` says that the callbacks keep it.  The relation that always holds gives
what is true of all callbacks; the calls recorded by `logged` give their order.

A run is followed with the cursor that the reaction was judged with: `Follows` says that the
variables of the loop are where the cursor is.  Of the marks it keeps `Pending`, the phase
that the callbacks will be in once they got the bytes from the mark to `p`; the phase that
they are in until then lies that many bytes back.  `Reaction.run_sound` is by induction on the
reaction, one case for each kind of node, and the nodes that call back have a lemma each
(`callbackData_sound`, `callbackNotify_sound`, `callbackHeadersComplete_sound`).  A callback
may stop the parser, so each of these has two ways out: the rest of the reaction, or a return
of which `StopsSound` says what is left behind.

Where the buffer ends, the marked bytes are passed on (`leftoverMarks_sound`), and the next
call sets the mark of its state again at its first byte (`startExec_atByte`).
-/

namespace Http2Asio.Http1

open Registers

/-! ## Buffers -/

theorem slice_length {data : List UInt8} {start stop : ℕ} (hstop : stop ≤ data.length) :
    (slice data start stop).length = stop - start := by
  rw [slice, List.length_take, List.length_drop]
  omega

/-- The answer 1 of `on_headers_complete`. -/
def ParserView.setSkipbody (v : ParserView) : ParserView :=
  { v with flags := { v.flags with skipbody := true } }

@[simp] theorem Registers.view_setSkipbody (q : Registers) :
    q.setSkipbody.view = q.view.setSkipbody := rfl

section Tracks

variable {σ : Type} (S : HttpParserSettings σ) (T : σ → Phase → Prop)

/-- The callbacks keep `T`: it holds of the phase after a call, whatever they answer. -/
structure Tracks : Prop where
  data : ∀ k f, S.onData k = some f → ∀ φ ψ v bytes u, T u φ →
    φ.data k bytes.length = some ψ → T (f v bytes u).user ψ
  data_none : ∀ k, S.onData k = none → ∀ φ ψ n u, T u φ → φ.data k n = some ψ → T u ψ
  notify : ∀ k f, S.onNotify k = some f → ∀ φ ψ v u, T u φ → φ.notify k v = some ψ →
    T (f v u).user ψ
  notify_none : ∀ k, S.onNotify k = none → ∀ φ ψ v u, T u φ → φ.notify k v = some ψ → T u ψ
  headersComplete : ∀ f, S.onHeadersComplete = some f → ∀ φ ψ v u, T u φ →
    φ.headersComplete (if (f v u).value = 1 then v.setSkipbody else v) = some ψ →
      T (f v u).user ψ
  headersComplete_none : S.onHeadersComplete = none → ∀ φ ψ v u, T u φ →
    φ.headersComplete v = some ψ → T u ψ

/-- Nothing is asked of the callbacks. -/
theorem Tracks.trivial : Tracks S fun _ _ => True := by
  constructor <;> intros <;> exact True.intro

variable {T}

/-- Between two calls of `http_parser_execute` a parser without an error is fit for the next
byte; a paused one is once it goes on. -/
def HttpParser.Sound (parser : HttpParser) (φ : Phase) : Prop :=
  parser.httpErrno = .ok ∨ parser.httpErrno = .paused →
    (parser.toRegisters.setErrno .ok).Rests parser.nread φ

/-- The marks at `p`, and the phase once the callback got the bytes from the mark to `p`. -/
inductive Pending (T : σ → Phase → Prop) (marks : DataCb → Option ℕ) (p : ℕ) (u : σ) :
    Option DataCb → Phase → Prop
  | clear {φ : Phase} (marks_eq : marks = fun _ => none) (tracked : T u φ) :
      Pending T marks p u none φ
  | since {k : DataCb} {m : ℕ} {φ ψ : Phase}
      (marks_eq : marks = Function.update (fun _ => none) k (some m)) (mark_le : m ≤ p)
      (tracked : T u φ) (passed : φ.data k (p - m) = some ψ) : Pending T marks p u (some k) ψ

/-- The variables of the loop are at a cursor. -/
structure Follows (T : σ → Phase → Prop) (data : List UInt8) (c : Cursor) (e : Exec σ) : Prop where
  left : e.p + c.left = data.length
  nread : e.parser.nread = c.nread
  pending : Pending T e.marks e.p e.user c.marked c.phase

/-- The variables at the head of the loop. -/
structure AtByte (T : σ → Phase → Prop) (data : List UInt8) (c : Cursor) (e : Exec σ) : Prop
    extends Follows T data c e where
  mark : MarkFits c.marked e.parser.state
  rests : e.parser.Rests e.parser.nread c.phase

/-- What the parser leaves behind where it stops before the end of the buffer: the caller can
see the reason. -/
structure StopsSound (T : σ → Phase → Prop) (data : List UInt8) (n : ℕ) (parser : HttpParser)
    (u : σ) : Prop where
  count_le : n ≤ data.length
  reason : parser.httpErrno ≠ .ok ∨ parser.upgrade = true
  sound : ∃ φ, T u φ ∧ parser.Sound φ

/-- What a call that returns leaves behind. -/
structure ReturnsSound (T : σ → Phase → Prop) (data : List UInt8) (n : ℕ) (parser : HttpParser)
    (u : σ) : Prop where
  count_le : n ≤ data.length
  consumed : n = data.length ∨ parser.httpErrno ≠ .ok ∨ parser.upgrade = true
  sound : ∃ φ, T u φ ∧ parser.Sound φ

theorem StopsSound.returns {T : σ → Phase → Prop} {data : List UInt8} {n : ℕ}
    {parser : HttpParser} {u : σ} (h : StopsSound T data n parser u) :
    ReturnsSound T data n parser u :=
  ⟨h.count_le, Or.inr h.reason, h.sound⟩

/-- What a reaction that starts at `p` comes to. -/
def Outcome.Sound (T : σ → Phase → Prop) (data : List UInt8) (p : ℕ) : Outcome σ → Prop
  | .looping e =>
      (p < e.p ∨ e.p = data.length) ∧ ∃ c, AtByte T data c e
  | .returned n parser u => StopsSound T data n parser u
  | .aborted => False

/-- The call returns. -/
def Outcome.ReturnsSound (T : σ → Phase → Prop) (data : List UInt8) : Outcome σ → Prop
  | .returned n parser u => Http1.ReturnsSound T data n parser u
  | _ => False

variable {S} {data : List UInt8} {c : Cursor} {e : Exec σ} {φ ψ : Phase} {k : DataCb}
  {marked : Option DataCb} {marks : DataCb → Option ℕ} {p n : ℕ} {u : σ}

/-! ## Marks -/

theorem Pending.move (h : Pending T marks p u marked φ) (hpass : φ.pass marked n = some ψ) :
    Pending T marks (p + n) u marked ψ := by
  cases h with
  | clear hmarks htracked =>
      rw [Phase.pass_none, Option.some.injEq] at hpass
      exact .clear hmarks (hpass ▸ htracked)
  | @since k m _ _ hmarks hle htracked hpassed =>
      refine .since hmarks (Nat.le_trans hle (Nat.le_add_right _ _)) htracked ?_
      have hadd := Phase.data_add hpassed hpass
      rwa [show p - m + n = p + n - m from by omega] at hadd

theorem Pending.mark (h : Pending T marks p u none φ) (hdata : φ.data k 0 = some ψ) :
    Pending T (Function.update marks k (some ((marks k).getD p))) p u (some k) ψ := by
  cases h with
  | clear hmarks htracked =>
      subst hmarks
      refine .since rfl (Nat.le_refl _) htracked ?_
      rwa [Option.getD_none, Nat.sub_self]

theorem Pending.mark_again (h : Pending T marks p u (some k) φ) :
    Pending T (Function.update marks k (some ((marks k).getD p))) p u (some k) φ := by
  cases h with
  | since hmarks hle htracked hpassed =>
      subst hmarks
      rw [Function.update_idem, Function.update_self, Option.getD_some]
      exact .since rfl hle htracked hpassed

theorem Pending.tracked (h : Pending T marks p u marked φ) : ∃ ψ, T u ψ := by
  cases h with
  | clear _ htracked => exact ⟨_, htracked⟩
  | since _ _ htracked _ => exact ⟨_, htracked⟩

theorem Pending.tracked_of_none (h : Pending T marks p u none φ) : T u φ := by
  cases h with
  | clear _ htracked => exact htracked

theorem Pending.marks_of_none (h : Pending T marks p u none φ) : marks = fun _ => none := by
  cases h with
  | clear hmarks _ => exact hmarks

/-! ## Callbacks -/

theorem sound_of_rests {parser : HttpParser}
    (h : parser.toRegisters.Rests parser.nread φ) : parser.Sound φ := by
  intro _
  have hsame : parser.toRegisters.setErrno .ok = parser.toRegisters := by
    rw [setErrno, ← h.errno]
  rwa [hsame]

theorem sound_paused {parser : HttpParser} (h : parser.toRegisters.Rests parser.nread φ)
    (e : HttpErrno) : { parser with httpErrno := e }.Sound φ := by
  intro _
  have hsame : ({ parser with httpErrno := e } : HttpParser).toRegisters.setErrno .ok =
      parser.toRegisters := by
    rw [setErrno, ← h.errno]
  rw [hsame]
  exact h

theorem afterCallback_sound {parser : HttpParser} {failure : HttpErrno} {r : CbResult σ}
    (h : parser.toRegisters.Rests parser.nread φ) : (afterCallback parser failure r).Sound φ := by
  unfold afterCallback
  split_ifs
  · exact sound_paused h failure
  · exact sound_paused h .paused
  · exact sound_of_rests h

section Callbacks

variable (hS : Tracks S T) {P : Outcome σ → Prop}
  (hP : ∀ n parser u, StopsSound T data n parser u → P (.returned n parser u))

include hS hP

/-- `CALLBACK_DATA_` calls back with the bytes that are pending and goes on, or returns. -/
theorem callbackData_sound {extra : ℕ} {advance : Bool} {rest : Exec σ → Outcome σ}
    (hp : e.p + extra ≤ data.length)
    (hadvance : advance = true → e.p < data.length)
    (hpending : Pending T e.marks e.p e.user marked φ) (hmarked : marked = none ∨ marked = some k)
    (hpass : φ.pass marked extra = some ψ) (hrests : e.parser.Rests e.parser.nread ψ)
    (hrest : ∀ u, T u ψ → P (rest { e with user := u, marks := fun _ => none })) :
    P (callbackData S data k extra advance e rest) := by
  unfold callbackData
  rw [if_neg (not_not_intro hrests.errno)]
  have hcount : (if advance then e.p + 1 else e.p) ≤ data.length := by
    split
    next h => exact hadvance h
    next => omega
  obtain ⟨parser, user, p, marks⟩ := e
  cases hpending with
  -- nothing is marked, so `extra` counts for nothing and there is no call
  | clear hmarks htracked =>
      obtain rfl : marks = fun _ => none := hmarks
      rw [Phase.pass_none, Option.some.injEq] at hpass
      exact hrest user (hpass ▸ htracked)
  | @since k' m _ _ hmarks hle htracked hpassed =>
      obtain rfl : k' = k := Option.some.inj (hmarked.resolve_left nofun)
      obtain rfl : marks = Function.update (fun _ => none) k' (some m) := hmarks
      -- the call gets the bytes since the mark and `extra` more
      have hlength : (slice data m (p + extra)).length = p - m + extra := by
        rw [slice_length hp]
        dsimp only at hle ⊢
        omega
      have hsum := Phase.data_add hpassed hpass
      rw [← hlength] at hsum
      dsimp only
      rw [Function.update_self, Function.update_idem, Function.update_eq_self]
      cases hf : S.onData k' with
      | none => exact hrest user (hS.data_none k' hf _ _ _ _ htracked hsum)
      | some f =>
          have hcalled := hS.data k' f hf _ _ parser.view _ _ htracked hsum
          dsimp only
          split
          next hfail =>
            exact hP _ _ _ ⟨hcount, Or.inl hfail, ψ, hcalled, afterCallback_sound hrests⟩
          next => exact hrest _ hcalled

theorem callbackNotify_sound {k : NotifyCb} {advance : Bool} {rest : Exec σ → Outcome σ}
    (hp : e.p ≤ data.length)
    (hadvance : advance = true → e.p < data.length) (htracked : T e.user φ)
    (hnotify : φ.notify k e.parser.view = some ψ) (hrests : e.parser.Rests e.parser.nread ψ)
    (hrest : ∀ u, T u ψ → P (rest { e with user := u })) :
    P (callbackNotify S k advance e rest) := by
  unfold callbackNotify
  rw [if_neg (not_not_intro hrests.errno)]
  have hcount : (if advance then e.p + 1 else e.p) ≤ data.length := by
    split
    next h => exact hadvance h
    next => exact hp
  cases hf : S.onNotify k with
  | none => exact hrest e.user (hS.notify_none k hf _ _ _ _ htracked hnotify)
  | some f =>
      have hcalled := hS.notify k f hf _ _ _ _ htracked hnotify
      dsimp only
      split
      next hfail =>
        exact hP _ _ _ ⟨hcount, Or.inl hfail, ψ, hcalled, afterCallback_sound hrests⟩
      next => exact hrest _ hcalled

theorem callbackHeadersComplete_sound {χ : Phase} {rest skipping : Exec σ → Outcome σ}
    (hp : e.p ≤ data.length) (htracked : T e.user φ)
    (hgo : φ.headersComplete e.parser.view = some ψ) (hrests : e.parser.Rests e.parser.nread ψ)
    (hskip : φ.headersComplete e.parser.setSkipbody.view = some χ)
    (hskipRests : e.parser.setSkipbody.Rests e.parser.nread χ)
    (hrest : ∀ u, T u ψ → P (rest { e with user := u }))
    (hskipping : ∀ u, T u χ → P (skipping { e.load e.parser.setSkipbody with user := u })) :
    P (callbackHeadersComplete S e rest skipping) := by
  unfold callbackHeadersComplete
  cases hf : S.onHeadersComplete with
  | none => exact hrest e.user (hS.headersComplete_none hf _ _ _ _ htracked hgo)
  | some f =>
      have hcalled := fun χ => hS.headersComplete f hf φ χ e.parser.view e.user htracked
      dsimp only
      generalize f e.parser.view e.user = r at hcalled ⊢
      split
      -- the answer 0: the body follows as the header says
      next hzero =>
        rw [hzero, if_neg (by decide)] at hcalled
        split
        next =>
          exact hP _ _ _
            ⟨hp, Or.inl nofun, ψ, hcalled ψ hgo, sound_paused hrests .paused⟩
        next => exact hrest _ (hcalled ψ hgo)
      next hne =>
      split
      -- the answer 1: the phase is that of a message without a body
      next hone =>
        rw [if_pos hone] at hcalled
        split
        next =>
          exact hP _ _ _ ⟨hp, Or.inl nofun, χ, hcalled χ hskip,
            @sound_paused χ (e.load e.parser.setSkipbody).parser hskipRests .paused⟩
        next => exact hskipping _ (hcalled χ hskip)
      -- any other answer is an error
      next hother =>
        rw [if_neg hother] at hcalled
        refine hP _ _ _ ⟨hp, Or.inl nofun, ψ, hcalled ψ hgo, ?_⟩
        split
        · exact sound_paused hrests .cbHeadersComplete
        · exact sound_paused hrests .cbHeadersComplete

end Callbacks

/-! ## Reactions and the loop -/

/-- A lawful reaction, run at the cursor it was judged at, is sound. -/
theorem Reaction.run_sound (hS : Tracks S T) {r : Reaction} {start : ℕ} (hr : r.Lawful c)
    (he : Follows T data c e) (hstart : start ≤ e.p) : (r.run S data e).Sound T data start := by
  induction r generalizing c e with
  | next q =>
      obtain ⟨hleft, hmark, φ, hpass, hrests⟩ := hr
      have hmove := he.pending.move hpass
      have hp := he.left
      refine ⟨Or.inl (Nat.lt_succ_of_le hstart), { c with left := c.left - 1, phase := φ },
        ⟨⟨?_, he.nread, hmove⟩, hmark, ?_⟩⟩
      · change e.p + 1 + (c.left - 1) = data.length
        omega
      · change q.Rests e.parser.nread φ
        rw [he.nread]
        exact hrests
  | endOfBuffer q =>
      obtain ⟨hleft, hmark, hrests⟩ := hr
      have hp := he.left
      refine ⟨Or.inr ?_, c, ⟨⟨hp, he.nread, he.pending⟩, hmark, ?_⟩⟩
      · change e.p = data.length
        omega
      · change q.Rests e.parser.nread c.phase
        rw [he.nread]
        exact hrests
  -- an error of the input: no call goes on from it, so any phase will do
  | fail q =>
      have hp := he.left
      obtain ⟨φ, htracked⟩ := he.pending.tracked
      have hparsing : q.httpErrno.parsing = true := hr
      have hok : q.httpErrno ≠ .ok := fun h => by simp [h, HttpErrno.parsing] at hparsing
      have hpaused : q.httpErrno ≠ .paused := fun h => by simp [h, HttpErrno.parsing] at hparsing
      exact ⟨by omega, Or.inl hok, φ, htracked,
        fun herrno => (herrno.elim hok hpaused).elim⟩
  | exit q =>
      obtain ⟨hupgrade, hleft, hm, hrests⟩ := hr
      have hp := he.left
      have hpending := he.pending
      rw [hm] at hpending
      refine ⟨by omega, Or.inr hupgrade, c.phase, hpending.tracked_of_none,
        sound_of_rests ?_⟩
      change q.Rests e.parser.nread c.phase
      rw [he.nread]
      exact hrests
  | abort => exact hr.elim
  | count q n rest ih =>
      rw [Reaction.run]
      dsimp only
      split
      -- the counter is over the limit
      next hover =>
        have hp := he.left
        obtain ⟨φ, htracked⟩ := he.pending.tracked
        refine ⟨by omega, Or.inl nofun, φ, htracked, fun herrno => ?_⟩
        exact absurd herrno (not_or.mpr ⟨nofun, nofun⟩)
      next hover =>
        rw [he.nread] at hover ⊢
        exact ih (hr (Nat.le_of_not_lt hover)) ⟨he.left, rfl, he.pending⟩ hstart
  | resetCount rest ih => exact ih hr ⟨he.left, rfl, he.pending⟩ hstart
  | assertCount n rest ih =>
      rw [Reaction.run, if_pos (he.nread.trans hr.1)]
      exact ih hr.2 he hstart
  -- either the first byte of its kind, or one of a mark that stands
  | mark k rest ih =>
      rcases hr with ⟨hm, φ, hdata, hrest⟩ | ⟨hm, hrest⟩
      · have hpending := he.pending
        rw [hm] at hpending
        exact ih hrest ⟨he.left, he.nread, hpending.mark hdata⟩ hstart
      · have hpending := he.pending
        rw [hm] at hpending
        refine ih hrest ⟨he.left, he.nread, ?_⟩ hstart
        rw [hm]
        exact hpending.mark_again
  | move n rest ih =>
      obtain ⟨hn, φ, hpass, hrest⟩ := hr
      have hp := he.left
      refine ih hrest ⟨?_, he.nread, he.pending.move hpass⟩
        (Nat.le_trans hstart (Nat.le_add_right _ _))
      change e.p + n + (c.left - n) = data.length
      omega
  -- after the call nothing is pending
  | data k extra advance q rest ih =>
      obtain ⟨hextra, hadvance, hm, φ, hpass, hrests, hrest⟩ := hr
      have hp := he.left
      refine callbackData_sound hS (fun _ _ _ h => h) (e := e.load q) (ψ := φ) ?_ (fun h => ?_)
        he.pending hm hpass ?_ ?_
      · change e.p + extra ≤ data.length
        omega
      · have hpos := hadvance h
        change e.p < data.length
        omega
      · change q.Rests e.parser.nread φ
        rw [he.nread]
        exact hrests
      · intro u htracked
        exact ih hrest ⟨he.left, he.nread, .clear rfl htracked⟩ hstart
  | notify k advance q rest ih =>
      obtain ⟨hadvance, hm, φ, hnotify, hrests, hrest⟩ := hr
      have hp := he.left
      have hpending := he.pending
      rw [hm] at hpending
      refine callbackNotify_sound hS (fun _ _ _ h => h) (e := e.load q) (ψ := φ) ?_ (fun h => ?_)
        hpending.tracked_of_none hnotify ?_ ?_
      · change e.p ≤ data.length
        omega
      · have hpos := hadvance h
        change e.p < data.length
        omega
      · change q.Rests e.parser.nread φ
        rw [he.nread]
        exact hrests
      · intro u htracked
        refine ih hrest ⟨he.left, he.nread, ?_⟩ hstart
        rw [hm]
        exact .clear hpending.marks_of_none htracked
  -- the reaction is lawful in both branches, whichever the answer takes
  | headersComplete q rest skipping ih ih' =>
      obtain ⟨hm, ⟨φ, hgo, hrests, hrest⟩, χ, hskip, hskipRests, hskipping⟩ := hr
      have hp := he.left
      have hpending := he.pending
      rw [hm] at hpending
      refine callbackHeadersComplete_sound hS (fun _ _ _ h => h) (e := e.load q) (ψ := φ) (χ := χ)
        ?_ hpending.tracked_of_none hgo ?_ hskip ?_ ?_ ?_
      · change e.p ≤ data.length
        omega
      · change q.Rests e.parser.nread φ
        rw [he.nread]
        exact hrests
      · change q.setSkipbody.Rests e.parser.nread χ
        rw [he.nread]
        exact hskipRests
      · intro u htracked
        refine ih hrest ⟨he.left, he.nread, ?_⟩ hstart
        rw [hm]
        exact .clear hpending.marks_of_none htracked
      · intro u htracked
        refine ih' hskipping ⟨he.left, he.nread, ?_⟩ hstart
        rw [hm]
        exact .clear hpending.marks_of_none htracked

theorem callbackData_unmarked {extra : ℕ} {advance : Bool} {rest : Exec σ → Outcome σ}
    (herrno : e.parser.httpErrno = .ok) (h : e.marks k = none) :
    callbackData S data k extra advance e rest = rest e := by
  rw [callbackData, if_neg (not_not_intro herrno), h]

theorem leftoverMarks_sound (hS : Tracks S T) (ks : List DataCb)
    (hpending : Pending T e.marks e.p e.user marked φ) (hp : e.p = data.length)
    (hks : ∀ k, marked = some k → k ∈ ks) (hrests : e.parser.Rests e.parser.nread φ) :
    (leftoverMarks S data ks e).ReturnsSound T data := by
  induction ks generalizing e marked with
  | nil =>
      have hnone : marked = none := by
        cases marked with
        | none => rfl
        | some k => exact absurd (hks k rfl) List.not_mem_nil
      subst hnone
      exact ⟨Nat.le_refl _, Or.inl rfl, φ, hpending.tracked_of_none, sound_of_rests hrests⟩
  | cons k ks ih =>
      by_cases hk : marked = none ∨ marked = some k
      · refine callbackData_sound hS (fun _ _ _ h => h.returns) (ψ := φ) (by omega) nofun hpending
          hk ?_ hrests fun u htracked => ?_
        · rcases hk with rfl | rfl
          · rfl
          · cases hpending with
            | since _ _ _ hpassed => exact Phase.data_again hpassed
        · exact ih (.clear rfl htracked) hp nofun hrests
      · obtain ⟨k', rfl⟩ := Option.ne_none_iff_exists'.mp fun h => hk (Or.inl h)
        have hne : k ≠ k' := fun h => hk (Or.inr (congrArg some h.symm))
        have hunmarked : e.marks k = none := by
          cases hpending with
          | since hmarks _ _ _ => rw [hmarks, Function.update_of_ne hne]
        rw [leftoverMarks, callbackData_unmarked hrests.errno hunmarked]
        refine ih hpending hp (fun k'' h => ?_) hrests
        have hmem := hks k'' h
        obtain rfl : k' = k'' := Option.some.inj h
        exact (List.mem_cons.mp hmem).resolve_left hne.symm

theorem finish_sound (hS : Tracks S T) (hpending : Pending T e.marks e.p e.user marked φ)
    (hp : e.p = data.length) (hrests : e.parser.Rests e.parser.nread φ) :
    (finish S data e).ReturnsSound T data := by
  -- the assertion before the marks are passed on: at most one is set
  have hone : ([.headerField, .headerValue, .url, .body, .status].filter fun k =>
      (e.marks k).isSome).length ≤ 1 := by
    cases hpending with
    | clear hmarks _ => simp [hmarks]
    | @since k m _ _ hmarks _ _ _ =>
        rw [hmarks]
        cases k <;> simp [Function.update]
  unfold finish
  dsimp only
  rw [if_neg (Nat.not_lt_of_le hone)]
  exact leftoverMarks_sound hS _ hpending hp (fun k _ => by cases k <;> decide) hrests

theorem iteration_sound (hS : Tracks S T) {ch : UInt8} {rest : List UInt8}
    (he : AtByte T data c e) (hdrop : data.drop e.p = ch :: rest) :
    ((iteration e.parser.toRegisters ch rest).run S data e).Sound T data e.p := by
  have hleft : rest.length + 1 = c.left := by
    have hlen := congrArg List.length hdrop
    have hp := he.left
    rw [List.length_drop, List.length_cons] at hlen
    omega
  have hlawful := iteration_lawful ch rest he.rests he.mark
  rw [hleft, he.nread] at hlawful
  exact Reaction.run_sound hS hlawful he.toFollows (Nat.le_refl _)

/-- The loop returns: its fuel is enough. -/
theorem mainLoop_sound (hS : Tracks S T) (fuel : ℕ) (he : AtByte T data c e)
    (hfuel : data.length ≤ e.p + fuel) : (mainLoop S data fuel e).ReturnsSound T data := by
  induction fuel generalizing c e with
  | zero =>
      have hp := he.left
      exact finish_sound hS he.pending (by omega) he.rests
  | succ fuel ih =>
      rw [mainLoop]
      cases hdrop : data.drop e.p with
      | nil =>
          have hend := List.drop_eq_nil_iff.mp hdrop
          have hp := he.left
          exact finish_sound hS he.pending (by omega) he.rests
      | cons ch rest =>
          have hrun := iteration_sound hS he hdrop
          dsimp only
          generalize (iteration e.parser.toRegisters ch rest).run S data e = outcome at hrun ⊢
          cases outcome with
          | looping e' =>
              obtain ⟨hp, c', he'⟩ := hrun
              exact ih he' (by omega)
          | returned n parser u => exact hrun.returns
          | aborted => exact hrun.elim

/-- The marks at the first byte of a buffer. -/
theorem startExec_atByte (data : List UInt8) (parser : HttpParser) (htracked : T u φ)
    (hrests : parser.Rests parser.nread φ) :
    AtByte T data ⟨data.length, parser.nread, resumedMark parser.state, φ⟩
      (startExec parser u) := by
  refine ⟨⟨Nat.zero_add _, rfl, ?_⟩, Or.inl rfl, hrests⟩
  cases hk : resumedMark parser.state with
  | none => exact .clear (funext fun k => by simp [startExec, hk]) htracked
  | some k =>
      -- a mark with no bytes behind it leaves the phase as it is
      have hagain : φ.data k 0 = some φ := by
        have hphase := hrests.inPhase
        unfold InPhase at hphase
        cases hs : parser.state <;> rw [hs] at hk hphase <;> cases hk <;> rw [hphase] <;> rfl
      refine .since (m := 0) (funext fun k' => ?_) (Nat.le_refl _) htracked hagain
      by_cases hk' : k' = k
      · simp [startExec, hk, hk']
      · simp [startExec, hk, hk', Ne.symm hk']

/-- **One call of `http_parser_execute`.**  No assertion fails. -/
theorem httpParserExecute_sound (hS : Tracks S T) {parser : HttpParser} (htracked : T u φ)
    (hsound : parser.Sound φ) (data : List UInt8) :
    ∃ r, httpParserExecute S parser u data = some r ∧
      (data ≠ [] → parser.httpErrno = .ok → ReturnsSound T data r.count r.parser r.user) ∧
      ∃ ψ, T r.user ψ ∧ r.parser.Sound ψ := by
  unfold httpParserExecute
  by_cases herrno : parser.httpErrno = .ok
  · rw [if_neg (not_not_intro herrno)]
    have hrests : parser.Rests parser.nread φ := by
      have h := hsound (Or.inl herrno)
      rwa [show parser.toRegisters.setErrno .ok = parser.toRegisters by
        rw [setErrno, ← herrno]] at h
    by_cases hdata : data = []
    -- an empty buffer is the end of the input, which ends a body that has no length
    · rw [if_pos hdata]
      split
      next hs =>
        have hphase : φ = .untilClose := by
          have h := hrests.inPhase
          unfold InPhase at h
          rwa [hs] at h
        have hcall : (callbackNotify S .messageComplete false (startExec parser u) fun e =>
            .returned 0 e.parser e.user).ReturnsSound T [] := by
          subst hphase
          refine callbackNotify_sound hS (fun _ _ _ h => h.returns) (φ := .untilClose)
            (ψ := .untilClose)
            (Nat.le_refl _) nofun htracked rfl hrests fun u' htracked' => ?_
          exact ⟨Nat.le_refl _, Or.inl rfl, _, htracked', sound_of_rests hrests⟩
        generalize (callbackNotify S .messageComplete false (startExec parser u) fun e =>
            .returned 0 e.parser e.user) = outcome at hcall ⊢
        cases outcome with
        | returned n parser' u' => exact ⟨_, rfl, fun h => absurd hdata h, hcall.sound⟩
        | looping e => exact hcall.elim
        | aborted => exact hcall.elim
      · exact ⟨_, rfl, fun h => absurd hdata h, φ, htracked, hsound⟩
      · exact ⟨_, rfl, fun h => absurd hdata h, φ, htracked, hsound⟩
      · exact ⟨_, rfl, fun h => absurd hdata h, φ, htracked, hsound⟩
      · exact ⟨_, rfl, fun h => absurd hdata h, φ, htracked, hsound⟩
      · exact ⟨_, rfl, fun h => absurd hdata h, φ, htracked,
          fun herrno => absurd herrno (not_or.mpr ⟨nofun, nofun⟩)⟩
    · rw [if_neg hdata]
      have hloop := mainLoop_sound hS data.length
        (startExec_atByte data parser htracked hrests) (Nat.le_add_left _ _)
      generalize mainLoop S data data.length (startExec parser u) = outcome at hloop ⊢
      cases outcome with
      | returned n parser' u' => exact ⟨_, rfl, fun _ _ => hloop, hloop.sound⟩
      | looping e => exact hloop.elim
      | aborted => exact hloop.elim
  · rw [if_pos herrno]
    exact ⟨_, rfl, fun _ h => absurd h herrno, φ, htracked, hsound⟩

end Tracks

end Http2Asio.Http1
