import Http2Asio.Http1.Cuts

/-!
# The limit on the header

`nread` counts the bytes of a header, but at the first byte of a loop inside a state it
counts once for the byte and once for the stretch that begins with it.  So it counts a byte
at most twice, whatever the cut, and an input of up to half of `HTTP_MAX_HEADER_SIZE` is
never refused as too long a header (`executeAll_fits`).

The argument is a budget: `Reaction.Spends` bounds what a reaction adds to the counter by
twice the bytes it moves over.

A budget is given per state: `perByte` is 2 in the states of a header and 0 in a body, and
`stretch` is the number of bytes that the loop of a state passes at once.  `iteration_spends`
judges each reaction against them without running it, and `Reaction.run_spent` runs it.  What
a callback or an error does to the counter does not matter, since the parser stops there; the
only stop that counts is the one that finds the header too long, and it says that the budget
was more than the limit (`Outcome.Frugal`).  From there it is a sum over the iterations
(`mainLoop_frugal`), the calls (`httpParserExecute_frugal`) and the buffers
(`executeAll_frugal`).
-/

namespace Http2Asio.Http1

open Transition Registers

/-- The reaction moves over at most `passed` bytes and one more, and adds to the counter at most
`rate` for each byte; `counted` and `moved` is what came before. -/
def Reaction.Spends (rate passed : ℕ) : Reaction → ℕ → ℕ → Prop
  | .next _, counted, moved => counted ≤ rate * (moved + 1) ∧ moved ≤ passed
  | .exit _, counted, moved => counted ≤ rate * (moved + 1)
  | .endOfBuffer _, counted, moved => counted ≤ rate * moved ∧ moved ≤ passed
  | .fail _, _, _ | .abort, _, _ => True
  | .count _ n rest, counted, moved =>
      counted + n ≤ rate * max 1 passed ∧ rest.Spends rate passed (counted + n) moved
  | .resetCount rest, _, moved => rest.Spends rate passed 0 moved
  | .move n rest, counted, moved => rest.Spends rate passed counted (moved + n)
  | .assertCount _ rest, counted, moved | .mark _ rest, counted, moved =>
      rest.Spends rate passed counted moved
  | .data _ _ _ _ rest, counted, moved | .notify _ _ _ rest, counted, moved =>
      rest.Spends rate passed counted moved
  | .headersComplete _ rest skipping, counted, moved =>
      rest.Spends rate passed counted moved ∧ skipping.Spends rate passed counted moved

theorem Reaction.Single.spends {r : Reaction} {rate passed counted moved : ℕ} (h : r.Single)
    (hle : counted ≤ rate * (moved + 1)) (hmoved : moved ≤ passed) :
    r.Spends rate passed counted moved := by
  induction r generalizing counted moved with
  | next q => exact ⟨hle, hmoved⟩
  | exit q => exact hle
  | fail q | abort => trivial
  | endOfBuffer q => exact h.elim
  | count q n rest ih => exact h.elim
  | resetCount rest ih => exact ih h (Nat.zero_le _) hmoved
  | move n rest ih =>
      obtain ⟨rfl, h⟩ := h
      exact ih h hle hmoved
  | assertCount n rest ih | mark k rest ih | notify k advance q rest ih => exact ih h hle hmoved
  | data k extra advance q rest ih => exact ih h.2 hle hmoved
  | headersComplete q rest skipping ih ih' => exact ⟨ih h.1 hle hmoved, ih' h.2 hle hmoved⟩

section Limit

variable {σ : Type} {S : HttpParserSettings σ} {data rest : List UInt8} {b : UInt8}
  {e : Exec σ} {c : Cursor} {k : DataCb} {n nread p rate passed : ℕ} {φ : Phase}

/-! ## What is spent in a run -/

/-- A callback did not answer with the error of the limit. -/
def HttpErrno.stops (e : HttpErrno) : Prop :=
  e ≠ .ok ∧ e ≠ .headerOverflow

/-- From `p` on, where the counter was at `nread`, a reaction that spends at most `rate` for each
byte has come at most `passed` bytes and one further, and refuses only what is too long. -/
def Outcome.Spent (rate passed nread p : ℕ) : Outcome σ → Prop
  | .looping e =>
      p ≤ e.p ∧ e.p ≤ p + passed + 1 ∧ e.parser.nread ≤ nread + rate * (e.p - p)
  | .returned n parser _ =>
      (parser.httpErrno = .headerOverflow →
        httpMaxHeaderSize < nread + rate * max 1 passed) ∧
      (parser.httpErrno = .ok → p ≤ n ∧ parser.nread ≤ nread + rate * (n - p))
  | .aborted => True

/-- From `p` on, where the counter was at `nread`, at most twice the bytes are counted, and only
what is too long is refused. -/
def Outcome.Frugal (data : List UInt8) (nread p : ℕ) : Outcome σ → Prop
  | .looping e => p ≤ e.p ∧ e.parser.nread ≤ nread + 2 * (e.p - p)
  | .returned n parser _ =>
      (parser.httpErrno = .headerOverflow →
        httpMaxHeaderSize < nread + 2 * (data.length - p)) ∧
      (parser.httpErrno = .ok → p ≤ n ∧ parser.nread ≤ nread + 2 * (n - p))
  | .aborted => True

theorem frugal_of_stops {parser : HttpParser} {u : σ} (h : parser.httpErrno.stops) :
    (Outcome.returned n parser u).Frugal data nread p :=
  ⟨fun hover => absurd hover h.2, fun hok => absurd hok h.1⟩

theorem spent_of_stops {parser : HttpParser} {u : σ} (h : parser.httpErrno.stops) :
    (Outcome.returned n parser u).Spent rate passed nread p :=
  ⟨fun hover => absurd hover h.2, fun hok => absurd hok h.1⟩

theorem afterCallback_stops {parser : HttpParser} {failure : HttpErrno} {r : CbResult σ}
    (hfailure : failure.stops) (hok : parser.httpErrno = .ok)
    (h : (afterCallback parser failure r).httpErrno ≠ .ok) :
    (afterCallback parser failure r).httpErrno.stops := by
  refine ⟨h, ?_⟩
  unfold afterCallback at h ⊢
  split_ifs at h ⊢
  · exact hfailure.2
  · exact nofun
  · exact absurd hok h

theorem HttpErrno.stops_of_parsing {e : HttpErrno} (h : e.parsing = true) : e.stops := by
  refine ⟨fun he => ?_, fun he => ?_⟩ <;> subst he <;> exact Bool.false_ne_true h

section Callbacks

variable {P : Outcome σ → Prop}
  (hstop : ∀ n parser u, parser.httpErrno.stops → P (.returned n parser u)) (habort : P .aborted)

include hstop habort

theorem callbackData_elim {extra : ℕ} {advance : Bool} {rest : Exec σ → Outcome σ}
    (hrest : ∀ u marks, P (rest { e with user := u, marks := marks })) :
    P (callbackData S data k extra advance e rest) := by
  unfold callbackData
  by_cases hok : e.parser.httpErrno = .ok
  swap
  · rw [if_pos hok]
    exact habort
  rw [if_neg (not_not_intro hok)]
  split
  · exact hrest e.user e.marks
  · split
    · exact hrest e.user _
    · dsimp only
      split
      next h => exact hstop _ _ _ (afterCallback_stops ⟨nofun, nofun⟩ hok h)
      next => exact hrest _ _

theorem callbackNotify_elim {k : NotifyCb} {advance : Bool} {rest : Exec σ → Outcome σ}
    (hrest : ∀ u, P (rest { e with user := u })) :
    P (callbackNotify S k advance e rest) := by
  unfold callbackNotify
  by_cases hok : e.parser.httpErrno = .ok
  swap
  · rw [if_pos hok]
    exact habort
  rw [if_neg (not_not_intro hok)]
  split
  · exact hrest e.user
  · dsimp only
    split
    next h => exact hstop _ _ _ (afterCallback_stops ⟨nofun, nofun⟩ hok h)
    next => exact hrest _

omit habort in
theorem callbackHeadersComplete_elim {rest skipping : Exec σ → Outcome σ}
    (hrest : ∀ u, P (rest { e with user := u }))
    (hskipping : ∀ u, P (skipping { e.load e.parser.setSkipbody with user := u })) :
    P (callbackHeadersComplete S e rest skipping) := by
  unfold callbackHeadersComplete
  split
  · exact hrest e.user
  · dsimp only
    split_ifs
    · exact hstop _ _ _ ⟨nofun, nofun⟩
    · exact hrest _
    · exact hstop _ _ _ ⟨nofun, nofun⟩
    · exact hskipping _
    · exact hstop _ _ _ ⟨nofun, nofun⟩
    · exact hstop _ _ _ ⟨nofun, nofun⟩

end Callbacks

/-- A lawful reaction stays within the budget that it was judged with. -/
theorem Reaction.run_spent {r : Reaction} {counted moved : ℕ} (hr : r.Lawful c)
    (hspends : r.Spends rate passed counted moved) (hp : e.p = p + moved)
    (hcursor : e.parser.nread = c.nread) (hnread : e.parser.nread ≤ nread + counted) :
    (r.run S data e).Spent rate passed nread p := by
  induction r generalizing c e counted moved with
  | next q =>
      obtain ⟨hle, hmoved⟩ := hspends
      have hsub : e.p + 1 - p = moved + 1 := by omega
      refine ⟨by dsimp only; omega, by dsimp only; omega, ?_⟩
      dsimp only [Exec.load]
      rw [hsub]
      omega
  | endOfBuffer q =>
      obtain ⟨hle, hmoved⟩ := hspends
      have hsub : e.p - p = moved := by omega
      refine ⟨by dsimp only [Exec.load]; omega, by dsimp only [Exec.load]; omega, ?_⟩
      dsimp only [Exec.load]
      rw [hsub]
      omega
  | fail q => exact spent_of_stops (HttpErrno.stops_of_parsing hr)
  | exit q =>
      have hle : counted ≤ rate * (moved + 1) := hspends
      obtain ⟨-, -, -, hrests⟩ := hr
      have hother : HttpErrno.ok ≠ .headerOverflow := by decide
      have hsub : e.p + 1 - p = moved + 1 := by omega
      refine ⟨fun hover => absurd (hrests.errno.symm.trans hover) hother, fun _ => ⟨by omega, ?_⟩⟩
      dsimp only [Exec.load]
      rw [hsub]
      omega
  | abort => exact hr.elim
  | count q n rest ih =>
      obtain ⟨hle, hspends⟩ := hspends
      -- wrapping around only makes the counter smaller
      have hmod := Nat.mod_le (e.parser.nread + n) 0x100000000
      rw [Reaction.run]
      dsimp only
      split
      next hover => exact ⟨fun _ => by omega, fun hok => HttpErrno.noConfusion hok⟩
      next hover =>
        have hrest := hr (by rw [← hcursor]; exact Nat.le_of_not_lt hover)
        exact ih hrest hspends hp (by dsimp only; rw [hcursor]) (by dsimp only; omega)
  | resetCount rest ih => exact ih hr hspends hp rfl (Nat.zero_le _)
  | assertCount n rest ih =>
      rw [Reaction.run]
      split
      · exact ih hr.2 hspends hp hcursor hnread
      · trivial
  | mark k rest ih =>
      rcases hr with ⟨-, φ, -, hr⟩ | ⟨-, hr⟩
      · exact ih hr hspends hp hcursor hnread
      · exact ih hr hspends hp hcursor hnread
  | move n rest ih =>
      obtain ⟨-, φ, -, hr⟩ := hr
      exact ih hr hspends (by dsimp only; omega) hcursor hnread
  | data k extra advance q rest ih =>
      obtain ⟨-, -, -, φ, -, -, hr⟩ := hr
      exact callbackData_elim (fun _ _ _ => spent_of_stops) True.intro fun u marks =>
        ih hr hspends hp hcursor hnread
  | notify k advance q rest ih =>
      obtain ⟨-, -, φ, -, -, hr⟩ := hr
      exact callbackNotify_elim (fun _ _ _ => spent_of_stops) True.intro fun u =>
        ih hr hspends hp hcursor hnread
  | headersComplete q rest skipping ih ih' =>
      obtain ⟨-, ⟨φ, -, -, hr⟩, χ, -, -, hr'⟩ := hr
      exact callbackHeadersComplete_elim (fun _ _ _ => spent_of_stops)
        (fun u => ih hr hspends.1 hp hcursor hnread) fun u => ih' hr' hspends.2 hp hcursor hnread

/-! ## The states -/

/-- What is counted for a byte. -/
def Registers.perByte (q : Registers) : ℕ :=
  if q.state.parsingHeader then 2 else 0

/-- How many bytes the loop of a state passes, before one that it stops at. -/
def Registers.stretch (q : Registers) (b : UInt8) (rest : List UInt8) : ℕ :=
  match q.state with
  | .headerField => ((b :: rest).takeWhile (token · ≠ 0)).length
  | .headerValue => (headerValueLoop q q.headerState (b :: rest)).passed
  | .bodyIdentity | .chunkData => min q.contentLength (rest.length + 1) - 1
  | .bodyIdentityEof => rest.length
  | _ => 0

theorem headerField_spends {q : Registers} (hfield : q.headerState.inField = true) :
    (headerField q b rest).Spends 2 ((b :: rest).takeWhile (token · ≠ 0)).length 1 0 := by
  obtain ⟨s, i, hloop, -⟩ := headerFieldLoop_inField (b :: rest) hfield
  unfold headerField
  rw [hloop]
  dsimp only
  generalize ((b :: rest).takeWhile (token · ≠ 0)).length = passed
  refine ⟨by omega, ?_⟩
  cases hat : (b :: rest)[passed]? with
  | none =>
      have hend := List.getElem?_eq_none_iff.mp hat
      rw [List.length_cons] at hend
      exact ⟨by omega, by omega⟩
  | some b' => exact (headerFieldEnd_single (b := b')).spends (by omega) (by omega)

theorem headerValue_spends {q : Registers} (hvalue : q.headerState.inValue = true) :
    (headerValue q b rest).Spends 2 (headerValueLoop q q.headerState (b :: rest)).passed 1 0 := by
  have hsound := headerValueLoop_sound (q := q) (b :: rest) hvalue
  generalize hscan : headerValueLoop q q.headerState (b :: rest) = scan at hsound
  rw [headerValue_eq b rest hscan]
  change (headerValueEnd scan).Spends 2 scan.passed 1 (0 + scan.passed)
  unfold headerValueEnd
  cases hstop : scan.stop with
  | bufferEnd =>
      have hend := hsound.bufferEnd hstop
      rw [List.length_cons] at hend
      exact ⟨by omega, by omega, by omega⟩
  | cr => exact ⟨by omega, by omega, by omega⟩
  | lf =>
      have hsingle :
          (headerAlmostDone (scan.after.updateState .headerAlmostDone) LF).Single :=
        strictCheck_single
      refine ⟨by omega, ?_⟩
      change (headerAlmostDone (scan.after.updateState .headerAlmostDone) LF).Spends
        2 scan.passed (1 + scan.passed) (0 + scan.passed)
      exact hsingle.spends (by omega) (by omega)
  | error | assertion => trivial

theorem iteration_spends (b : UInt8) (rest : List UInt8) {q : Registers}
    (hrests : q.Rests nread φ) :
    (iteration q b rest).Spends q.perByte (q.stretch b rest) 0 0 := by
  have hfits := hrests.fits
  unfold FitsState at hfits
  unfold iteration Registers.perByte
  by_cases hloops : q.state.loops = false
  · -- one byte, counted at the head of the loop if at all
    have hsingle := turn_single b rest hloops
    split
    · exact ⟨by omega, hsingle.spends (by omega) (Nat.zero_le _)⟩
    · exact hsingle.spends (by omega) (Nat.zero_le _)
  · unfold Registers.stretch
    cases hs : q.state <;> rw [hs] at hloops hfits
    case headerField =>
      change (Reaction.count q 1 (turn q b rest)).Spends 2 _ 0 0
      rw [turn_headerField hs]
      exact ⟨by omega, headerField_spends hfits⟩
    case headerValue =>
      change (Reaction.count q 1 (turn q b rest)).Spends 2 _ 0 0
      rw [turn_headerValue hs]
      exact ⟨by omega, headerValue_spends hfits⟩
    -- the bytes of a body are not counted
    case chunkData =>
      change (turn q b rest).Spends 0 _ 0 0
      rw [turn_chunkData hs, chunkData_eq rest hfits.1 hfits.2 rfl]
      exact ⟨Nat.zero_le _, Nat.le_of_eq (Nat.zero_add _)⟩
    case bodyIdentity =>
      change (turn q b rest).Spends 0 _ 0 0
      rw [turn_bodyIdentity hs, bodyIdentity_eq rest hfits rfl]
      unfold bodyIdentityLast
      change Reaction.Spends 0 (min q.contentLength (rest.length + 1) - 1) (ite _ _ _) _ _
      split
      · exact messageDone_single.spends (Nat.zero_le _) (Nat.le_of_eq (Nat.zero_add _))
      · exact ⟨Nat.zero_le _, Nat.le_of_eq (Nat.zero_add _)⟩
    case bodyIdentityEof =>
      change (turn q b rest).Spends 0 _ 0 0
      unfold turn
      rw [hs]
      exact ⟨Nat.zero_le _, Nat.le_of_eq (Nat.zero_add _)⟩
    all_goals exact absurd rfl hloops

/-- The loops stay in the buffer. -/
theorem stretch_le (b : UInt8) (rest : List UInt8) {q : Registers} (hrests : q.Rests nread φ) :
    q.stretch b rest ≤ rest.length + 1 := by
  have hfits := hrests.fits
  unfold FitsState at hfits
  unfold Registers.stretch
  cases hs : q.state <;> rw [hs] at hfits
  case headerField => exact (List.takeWhile_sublist _).length_le
  case headerValue => exact (headerValueLoop_sound (b :: rest) hfits).passed_le
  case chunkData | bodyIdentity => dsimp only; omega
  case bodyIdentityEof => exact Nat.le_succ _
  all_goals exact Nat.zero_le _

/-- **One iteration** counts at most twice for each byte of a header. -/
theorem iteration_spent (b : UInt8) (rest : List UInt8) (h : AtHead data c e) :
    ((iteration e.parser.toRegisters b rest).run S data e).Spent e.parser.perByte
      (e.parser.stretch b rest) e.parser.nread e.p :=
  Reaction.run_spent (iteration_lawful b rest h.rests h.mark) (iteration_spends b rest h.rests)
    rfl rfl (Nat.le_refl _)

/-! ## Calls -/

theorem Outcome.Spent.frugal {outcome : Outcome σ} (h : outcome.Spent rate passed nread p)
    (hrate : rate ≤ 2) (hpassed : passed ≤ data.length - p) (hp : p < data.length) :
    outcome.Frugal data nread p := by
  have hle : ∀ n, rate * n ≤ 2 * n := fun n => Nat.mul_le_mul_right n hrate
  cases outcome with
  | looping e =>
      have hn := hle (e.p - p)
      obtain ⟨hmoved, -, hcount⟩ := h
      exact ⟨hmoved, by omega⟩
  | returned n parser u =>
      refine ⟨fun herrno => ?_, fun herrno => ?_⟩
      · have hover := h.1 herrno
        have hn := hle (max 1 passed)
        omega
      · obtain ⟨hmoved, hcount⟩ := h.2 herrno
        have hn := hle (n - p)
        exact ⟨hmoved, by omega⟩
  | aborted => trivial

theorem Outcome.Frugal.mono {outcome : Outcome σ} {nread' p' : ℕ}
    (h : outcome.Frugal data nread' p') (hp : p ≤ p') (hend : p' ≤ data.length)
    (hnread : nread' ≤ nread + 2 * (p' - p)) : outcome.Frugal data nread p := by
  cases outcome with
  | looping e =>
      obtain ⟨hle, hcount⟩ := h
      exact ⟨by omega, by omega⟩
  | returned n parser u =>
      obtain ⟨hover, hok⟩ := h
      refine ⟨fun herrno => ?_, fun herrno => ?_⟩
      · have hlong := hover herrno
        omega
      · obtain ⟨hle, hcount⟩ := hok herrno
        exact ⟨by omega, by omega⟩
  | aborted => trivial

theorem leftoverMarks_frugal (ks : List DataCb) (hok : e.parser.httpErrno = .ok)
    (hend : e.p ≤ data.length) :
    (leftoverMarks S data ks e).Frugal data e.parser.nread e.p := by
  induction ks generalizing e with
  | nil =>
      exact ⟨fun hover => absurd (hok.symm.trans hover) nofun,
        fun _ => ⟨hend, Nat.le_add_right _ _⟩⟩
  | cons k ks ih =>
      exact callbackData_elim (fun _ _ _ => frugal_of_stops) True.intro fun u marks =>
        ih (e := { e with user := u, marks := marks }) hok hend

theorem finish_frugal (hok : e.parser.httpErrno = .ok) (hend : e.p ≤ data.length) :
    (finish S data e).Frugal data e.parser.nread e.p := by
  unfold finish
  dsimp only
  split
  · trivial
  · exact leftoverMarks_frugal _ hok hend

theorem mainLoop_frugal (fuel : ℕ) (h : AtHead data c e) :
    (mainLoop S data fuel e).Frugal data e.parser.nread e.p := by
  have hend : e.p ≤ data.length := Nat.le.intro h.left
  induction fuel generalizing c e with
  | zero => exact finish_frugal h.rests.errno hend
  | succ fuel ih =>
      rw [mainLoop]
      cases hdrop : data.drop e.p with
      | nil => exact finish_frugal h.rests.errno hend
      | cons b rest =>
          have hsound := iteration_sound (Tracks.trivial S) h hdrop
          have hlen := congrArg List.length hdrop
          rw [List.length_drop, List.length_cons] at hlen
          have hfrugal : ((iteration e.parser.toRegisters b rest).run S data e).Frugal data
              e.parser.nread e.p := by
            refine (iteration_spent b rest h).frugal ?_ ?_ (by omega)
            · unfold Registers.perByte
              split <;> omega
            · rw [hlen]
              exact stretch_le b rest h.rests
          dsimp only
          generalize (iteration e.parser.toRegisters b rest).run S data e = outcome
            at hsound hfrugal ⊢
          cases outcome with
          | looping e' =>
              obtain ⟨-, c', hat⟩ := hsound
              have hend' : e'.p ≤ data.length := Nat.le.intro hat.left
              exact (ih hat hend').mono hfrugal.1 hend' hfrugal.2
          | returned n parser u => exact hfrugal
          | aborted => trivial

/-- What a call does to the counter. -/
theorem httpParserExecute_frugal {parser : HttpParser} {u : σ} (hsound : parser.Sound φ)
    (herrno : parser.httpErrno = .ok) (hdata : data ≠ []) {r : Returned σ}
    (hr : httpParserExecute S parser u data = some r) :
    (r.parser.httpErrno = .headerOverflow →
      httpMaxHeaderSize < parser.nread + 2 * data.length) ∧
    (r.parser.httpErrno = .ok → r.parser.nread ≤ parser.nread + 2 * r.count) := by
  have hrests : parser.Rests parser.nread φ := by
    have hrests := hsound (Or.inl herrno)
    rwa [show parser.toRegisters.setErrno .ok = parser.toRegisters by
      rw [setErrno, ← herrno]] at hrests
  have hloop := mainLoop_frugal (S := S) data.length
    (startExec_atByte data parser (u := u) True.intro hrests)
  rw [httpParserExecute, if_neg (not_not_intro herrno), if_neg hdata] at hr
  generalize mainLoop S data data.length (startExec parser u) = outcome at hloop hr
  cases outcome with
  | returned n parser' u' =>
      cases hr
      exact ⟨hloop.1, fun hok => (hloop.2 hok).2⟩
  | looping e => cases hr
  | aborted => cases hr

variable {datas datas' : List (List UInt8)} {r r' : Returned σ} {t : HttpParserType} {user : σ}
  {s : Life σ}

theorem executeAll_frugal {parser : HttpParser} {u : σ} (hsound : parser.Sound φ)
    (herrno : parser.httpErrno = .ok) (hdatas : ∀ data ∈ datas, data ≠ [])
    (hr : executeAll S parser u datas = some r)
    (hover : r.parser.httpErrno = .headerOverflow) :
    httpMaxHeaderSize < parser.nread + 2 * datas.flatten.length := by
  induction datas generalizing parser u φ r with
  | nil =>
      cases hr
      exact absurd (herrno.symm.trans hover) nofun
  | cons data datas ih =>
      have hdata := hdatas data List.mem_cons_self
      obtain ⟨r₁, hr₁, hreturns, ψ, -, hsound₁⟩ :=
        httpParserExecute_sound (Tracks.trivial S) (φ := φ) (u := u) True.intro hsound data
      have hfirst := httpParserExecute_frugal hsound herrno hdata hr₁
      have hcount := (hreturns hdata herrno).count_le
      rw [executeAll, hr₁, Option.bind_some] at hr
      rw [List.flatten_cons, List.length_append]
      split at hr
      next hgo =>
        -- the bytes of this buffer are in the counter at the next one
        obtain ⟨r₂, hr₂, rfl⟩ := Option.map_eq_some_iff.mp hr
        have hlong := ih hsound₁ hgo.1 (fun d hd => hdatas d (List.mem_cons_of_mem _ hd)) hr₂ hover
        have hnread := hfirst.2 hgo.1
        omega
      next hstop =>
        obtain rfl : r₁ = r := Option.some.inj hr
        have hlong := hfirst.1 hover
        omega

/-- **Half of the limit always fits.**  In every reachable state, an input that with the bytes
counted so far stays under half of the limit is not refused as too long a header, however
it is cut. -/
theorem executeAll_fits (hs : (parserSystem S t user).Reachable s)
    (herrno : s.1.httpErrno = .ok) (hdatas : ∀ data ∈ datas, data ≠ [])
    (hshort : s.1.nread + 2 * datas.flatten.length ≤ httpMaxHeaderSize)
    (hr : executeAll S s.1 s.2 datas = some r) : r.parser.httpErrno ≠ .headerOverflow := by
  obtain ⟨φ, hsound⟩ := parserSystem_sound hs
  intro hover
  have hlong := executeAll_frugal hsound herrno hdatas hr hover
  omega

end Limit

/-- A request in three buffers. -/
theorem executeAll_fits_request :
    ∃ r, executeAll (collecting .url) (httpParserInit .request) []
        [ascii "GET /", ascii "a HTTP/1.1\r\nHo", ascii "st: b\r\n\r\n"] = some r ∧
      r.parser.httpErrno ≠ .headerOverflow := by
  have hsome : (executeAll (collecting .url) (httpParserInit .request) []
      [ascii "GET /", ascii "a HTTP/1.1\r\nHo", ascii "st: b\r\n\r\n"]).isSome = true := by
    decide +kernel
  have hs : (parserSystem (collecting .url) .request []).Reachable (httpParserInit .request, []) :=
    System.Reachable.of_init rfl
  exact ⟨_, (Option.some_get hsome).symm, executeAll_fits hs rfl (by decide) (by decide)
    (Option.some_get hsome).symm⟩

end Http2Asio.Http1
