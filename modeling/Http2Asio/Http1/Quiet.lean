import Http2Asio.Http1.Limit

/-!
# Callbacks that only listen

A `Listener` is told everything and never stops the parser.  For such callbacks the plain
parser is a function that can be evaluated: `Reaction.settle` is what a reaction to one byte
comes to, `settleAll` what a list of bytes does.  `settleAll L s l = some t` says that `l`
takes the plain parser from `s` to `t` (`feed_settleAll`), and that the protocol was not
changed on the way; so every cut of `l` takes `http_parser_execute` there
(`executeAll_settles`), up to the limit on the header.

`settle` is a function and not a relation because there is only one way through a reaction
when all callbacks answer 0.  It makes the tests that a run would fail an assertion by, and
gives no answer where they fail, so an answer is a proof that they hold; `Reaction.run_settle`
turns it into a run, by induction on the reaction.  Errors are followed in the same way
(`Refuses`): some byte stops the parser, and those before it settle.

The lemmas about start lines, fields and bodies are equations about `settleByte` at registers
of the form `Registers.placed`, in which only the four registers that change from byte to byte
are in view.
-/

namespace Http2Asio.Http1

open Feeding Registers

/-- What callbacks do with what they are told.  The parser has not read the method when it
calls `on_message_begin`, so nothing is told with it. -/
structure Listener (σ : Type) where
  data : DataCb → List UInt8 → σ → σ
  messageBegin : σ → σ
  headersComplete : ParserView → σ → σ
  chunkHeader : ParserView → σ → σ
  chunkComplete : ParserView → σ → σ
  messageComplete : ParserView → σ → σ
  data_nil : ∀ k u, data k [] u = u
  data_append : ∀ k a b u, data k (a ++ b) u = data k b (data k a u)

section Settle

variable {σ : Type} (L : Listener σ)

namespace Listener

/-- What is done at a notification. -/
def notify : NotifyCb → ParserView → σ → σ
  | .messageBegin, _ => L.messageBegin
  | .messageComplete, v => L.messageComplete v
  | .chunkHeader, v => L.chunkHeader v
  | .chunkComplete, v => L.chunkComplete v

/-- The bytes of a field that has begun, if one has. -/
def pending (marked : Option DataCb) (bytes : List UInt8) (u : σ) : σ :=
  match marked with
  | none => u
  | some k => L.data k bytes u

end Listener

/-- The callbacks do what the listener does, and all of them answer 0. -/
structure Quiet (S : HttpParserSettings σ) (L : Listener σ) : Prop where
  data : ∀ k f, S.onData k = some f → ∀ v bytes u, f v bytes u = ⟨0, false, L.data k bytes u⟩
  data_absent : ∀ k, S.onData k = none → ∀ bytes u, L.data k bytes u = u
  notify : ∀ k f, S.onNotify k = some f → ∀ v u, f v u = ⟨0, false, L.notify k v u⟩
  notify_absent : ∀ k, S.onNotify k = none → ∀ v u, L.notify k v u = u
  headersComplete : ∀ f, S.onHeadersComplete = some f →
    ∀ v u, f v u = ⟨0, false, L.headersComplete v u⟩
  headersComplete_absent : S.onHeadersComplete = none → ∀ v u, L.headersComplete v u = u

/-- What a reaction to the byte `b` comes to, in a buffer of its own: the registers, the state
of the listener, and whether the parser goes on.  It is `none` if an assertion fails or the
parser goes on with a change of the protocol.  Beside these `nread` and `p` are followed, and
`marked` is the mark at the start of the buffer. -/
def Reaction.settle (b : UInt8) :
    Reaction → ℕ → ℕ → Option DataCb → σ → Option (Reply (Registers × σ))
  | .next q, _, p, marked, u =>
      if q.httpErrno = .ok ∧ q.upgrade = false then
        some (.goes (q, L.pending marked ([b].take (p + 1)) u))
      else none
  | .endOfBuffer q, _, p, marked, u =>
      if q.httpErrno = .ok ∧ q.upgrade = false then
        some (.goes (q, L.pending marked ([b].take p) u))
      else none
  | .fail q, _, p, _, u => some (.stops (q, u) (p != 0))
  | .exit q, _, _, _, u => some (.stops (q, u) true)
  | .abort, _, _, _, _ => none
  | .count _ n rest, nread, p, marked, u =>
      if nread + n ≤ httpMaxHeaderSize then rest.settle b (nread + n) p marked u else none
  | .resetCount rest, _, p, marked, u => rest.settle b 0 p marked u
  | .assertCount n rest, nread, p, marked, u =>
      if nread = n then rest.settle b nread p marked u else none
  | .mark k rest, nread, p, marked, u =>
      if p = 0 ∧ (marked = none ∨ marked = some k) then rest.settle b nread p (some k) u else none
  | .move n rest, nread, p, marked, u => rest.settle b nread (p + n) marked u
  | .data k extra _ q rest, nread, p, marked, u =>
      if q.httpErrno = .ok ∧ (marked = none ∨ marked = some k) then
        rest.settle b nread p none (L.pending marked ([b].take (p + extra)) u)
      else none
  | .notify k _ q rest, nread, p, marked, u =>
      if q.httpErrno = .ok then rest.settle b nread p marked (L.notify k q.view u) else none
  | .headersComplete q rest _, nread, p, marked, u =>
      rest.settle b nread p marked (L.headersComplete q.view u)

/-- The registers `q` at a place in a message that goes on: the four registers that change from
byte to byte, and no error. -/
def Registers.placed (q : Registers) (s : State) (h : HeaderState) (i : ℕ) : Registers :=
  { q with state := s, headerState := h, index := i, httpErrno := .ok, upgrade := false }

namespace Registers

variable (q : Registers) (s : State) (h : HeaderState) (i : ℕ)

@[simp] theorem placed_type : (q.placed s h i).type = q.type := rfl

@[simp] theorem placed_flags : (q.placed s h i).flags = q.flags := rfl

@[simp] theorem placed_state : (q.placed s h i).state = s := rfl

@[simp] theorem placed_contentLength : (q.placed s h i).contentLength = q.contentLength := rfl

@[simp] theorem placed_method : (q.placed s h i).method = q.method := rfl

@[simp] theorem placed_httpErrno : (q.placed s h i).httpErrno = .ok := rfl

@[simp] theorem placed_upgrade : (q.placed s h i).upgrade = false := rfl

@[simp] theorem placed_updateState (s' : State) :
    (q.placed s h i).updateState s' = q.placed s' h i := rfl

end Registers

/-- What one byte comes to. -/
def settleByte (s : Registers × σ) (b : UInt8) : Option (Reply (Registers × σ)) :=
  (iteration s.1 b []).settle L b 0 0 (resumedMark s.1.state) s.2

/-- Where a list of bytes leads, `none` if the parser stops. -/
def settleAll : Registers × σ → List UInt8 → Option (Registers × σ)
  | s, [] => some s
  | s, b :: l =>
      match settleByte L s b with
      | some (.goes t) => settleAll t l
      | _ => none

variable {L} {S : HttpParserSettings σ} {s t : Registers × σ} {l l' : List UInt8} {b : UInt8}
  {q q' : Registers} {u u' : σ} {e : Exec σ} {k : DataCb} {marked : Option DataCb}

theorem Quiet.incremental (hS : Quiet S L) : Incremental S L.data where
  data := hS.data
  absent := hS.data_absent
  nil := L.data_nil
  append := L.data_append

@[simp] theorem settleAll_nil : settleAll L s [] = some s := rfl

theorem settleAll_cons (h : settleByte L s b = some (.goes t)) :
    settleAll L s (b :: l) = settleAll L t l := by
  rw [settleAll, h]

theorem settleAll_cons_eq_some (h : settleAll L s (b :: l) = some t) :
    ∃ s', settleByte L s b = some (.goes s') ∧ settleAll L s' l = some t := by
  rw [settleAll] at h
  cases hbyte : settleByte L s b with
  | none =>
      rw [hbyte] at h
      cases h
  | some reply =>
      rw [hbyte] at h
      cases reply with
      | goes s' => exact ⟨s', rfl, h⟩
      | stops s' consumed => cases h

theorem settleAll_append (h : settleAll L s l = some t) :
    settleAll L s (l ++ l') = settleAll L t l' := by
  induction l generalizing s with
  | nil =>
      cases h
      rfl
  | cons b l ih =>
      obtain ⟨s', hbyte, hrest⟩ := settleAll_cons_eq_some h
      rw [List.cons_append, settleAll_cons hbyte, ih hrest]

/-- The parser stops with the error `err` somewhere in the list `l`. -/
inductive Refuses (L : Listener σ) (err : HttpErrno) : Registers × σ → List UInt8 → Prop
  | here {s t : Registers × σ} {b : UInt8} {l : List UInt8} {consumed : Bool}
      (byte : settleByte L s b = some (.stops t consumed)) (errno : t.1.httpErrno = err) :
      Refuses L err s (b :: l)
  | later {s t : Registers × σ} {b : UInt8} {l : List UInt8}
      (byte : settleByte L s b = some (.goes t)) (rest : Refuses L err t l) :
      Refuses L err s (b :: l)

theorem Refuses.after {err : HttpErrno} (h : settleAll L s l = some t)
    (hrefuses : Refuses L err t l') : Refuses L err s (l ++ l') := by
  induction l generalizing s with
  | nil =>
      cases h
      exact hrefuses
  | cons b l ih =>
      obtain ⟨s', hbyte, hrest⟩ := settleAll_cons_eq_some h
      exact .later hbyte (ih hrest)

theorem Refuses.append {err : HttpErrno} (h : Refuses L err s l) : Refuses L err s (l ++ l') := by
  induction h with
  | here byte errno => exact .here byte errno
  | later byte rest ih => exact .later byte ih

/-- The parser stops in the first part, or passes it. -/
theorem Refuses.append_cases {err : HttpErrno} (h : Refuses L err s (l ++ l')) :
    Refuses L err s l ∨ ∃ t, settleAll L s l = some t ∧ Refuses L err t l' := by
  induction l generalizing s with
  | nil => exact Or.inr ⟨s, rfl, h⟩
  | cons b l ih =>
      cases h with
      | here byte errno => exact Or.inl (.here byte errno)
      | later byte rest =>
          rcases ih rest with hfirst | ⟨t, hsettle, hrest⟩
          · exact Or.inl (.later byte hfirst)
          · exact Or.inr ⟨t, by rw [settleAll_cons byte, hsettle], hrest⟩

theorem settleAll_append_eq_some (h : settleAll L s (l ++ l') = some t) :
    ∃ s', settleAll L s l = some s' ∧ settleAll L s' l' = some t := by
  induction l generalizing s with
  | nil => exact ⟨s, rfl, h⟩
  | cons b l ih =>
      obtain ⟨s', hbyte, hrest⟩ := settleAll_cons_eq_some (by exact h)
      obtain ⟨s'', hl, hl'⟩ := ih hrest
      exact ⟨s'', by rw [settleAll_cons hbyte, hl], hl'⟩

/-! ## The plain parser settles -/

/-- The marks that go with `marked`. -/
def marksAt (marked : Option DataCb) : DataCb → Option ℕ :=
  fun k => if marked = some k then some 0 else none

theorem marksAt_none : marksAt none = fun _ => none := rfl

theorem marksAt_some : marksAt (some k) = Function.update (fun _ => none) k (some 0) := by
  funext k'
  by_cases hk : k' = k
  · subst hk
    simp [marksAt]
  · simp [marksAt, hk, Ne.symm hk]

theorem marksAt_oneMark : OneMark (marksAt marked) := by
  cases marked with
  | none => exact Or.inl rfl
  | some k => exact Or.inr ⟨k, 0, marksAt_some⟩

theorem flush_marksAt (h : e.marks = marksAt marked) :
    flush L.data [b] e = L.pending marked ([b].take e.p) e.user := by
  cases marked with
  | none => exact flush_clear h
  | some k => exact flush_since (h.trans marksAt_some)

/-- What a run comes to at its end. -/
def Outcome.Settles (S : HttpParserSettings σ) (b : UInt8) (outcome : Outcome σ) :
    Reply (Registers × σ) → Prop
  | .goes t => ∃ e n, outcome = .looping e ∧ finish S [b] e = .returned 1 ⟨t.1, n⟩ t.2
  | .stops t consumed => ∃ p n, outcome = .returned p ⟨t.1, n⟩ t.2 ∧ (p != 0) = consumed

theorem settles_looping (hS : Quiet S L) (herrno : e.parser.httpErrno = .ok)
    (hmarks : e.marks = marksAt marked) :
    (Outcome.looping e).Settles S b
      (.goes (e.parser.toRegisters, L.pending marked ([b].take e.p) e.user)) := by
  refine ⟨e, e.parser.nread, rfl, ?_⟩
  rw [finish_incremental hS.incremental herrno (hmarks ▸ marksAt_oneMark),
    flush_marksAt hmarks]
  rfl

theorem callbackData_settles (hS : Quiet S L) {extra : ℕ} {advance : Bool}
    {rest : Exec σ → Outcome σ} (herrno : e.parser.httpErrno = .ok)
    (hmarks : e.marks = marksAt marked) (hmarked : marked = none ∨ marked = some k) :
    callbackData S [b] k extra advance e rest =
      rest { e with
        user := L.pending marked ([b].take (e.p + extra)) e.user
        marks := fun _ => none } := by
  rcases hmarked with rfl | rfl
  · rw [callbackData_unmarked herrno (by rw [hmarks, marksAt_none]), ← marksAt_none, ← hmarks]
    rfl
  · rw [callbackData_incremental hS.incremental herrno (hmarks.trans marksAt_some)]
    rfl

theorem callbackNotify_settles (hS : Quiet S L) {k : NotifyCb} {advance : Bool}
    {rest : Exec σ → Outcome σ} (herrno : e.parser.httpErrno = .ok) :
    callbackNotify S k advance e rest =
      rest { e with user := L.notify k e.parser.view e.user } := by
  unfold callbackNotify
  rw [if_neg (not_not_intro herrno)]
  cases hf : S.onNotify k with
  | none => rw [hS.notify_absent k hf]
  | some f =>
      dsimp only
      rw [hS.notify k f hf]
      have hsame : afterCallback e.parser (.cbNotify k)
          (⟨0, false, L.notify k e.parser.view e.user⟩ : CbResult σ) = e.parser := rfl
      rw [hsame, if_neg (not_not_intro herrno)]

theorem callbackHeadersComplete_settles (hS : Quiet S L) {rest skipping : Exec σ → Outcome σ} :
    callbackHeadersComplete S e rest skipping =
      rest { e with user := L.headersComplete e.parser.view e.user } := by
  unfold callbackHeadersComplete
  cases hf : S.onHeadersComplete with
  | none => rw [hS.headersComplete_absent hf]
  | some f =>
      dsimp only
      rw [hS.headersComplete f hf]
      rfl

theorem Reaction.run_settle (hS : Quiet S L) {r : Reaction} {reply : Reply (Registers × σ)}
    {nread p : ℕ} (hsettle : r.settle L b nread p marked u = some reply)
    (hnread : e.parser.nread = nread) (hp : e.p = p) (hmarks : e.marks = marksAt marked)
    (huser : e.user = u) :
    (r.run S [b] e).Settles S b reply := by
  induction r generalizing nread p marked u e with
  | next q =>
      obtain ⟨⟨hq, -⟩, hreply⟩ := Option.ite_none_right_eq_some.mp hsettle
      obtain rfl := Option.some.inj hreply
      subst hp huser
      exact settles_looping (e := { e.load q with p := e.p + 1 }) hS hq hmarks
  | endOfBuffer q =>
      obtain ⟨⟨hq, -⟩, hreply⟩ := Option.ite_none_right_eq_some.mp hsettle
      obtain rfl := Option.some.inj hreply
      subst hp huser
      exact settles_looping (e := e.load q) hS hq hmarks
  -- an error settles too, as a refusal
  | fail q =>
      obtain rfl := Option.some.inj hsettle
      subst hp huser
      exact ⟨e.p, e.parser.nread, rfl, rfl⟩
  | exit q =>
      obtain rfl := Option.some.inj hsettle
      subst huser
      exact ⟨e.p + 1, e.parser.nread, rfl, rfl⟩
  | abort => cases hsettle
  | count q n rest ih =>
      obtain ⟨hfits, hrest⟩ := Option.ite_none_right_eq_some.mp hsettle
      rw [run_count (by rw [hnread]; exact hfits)]
      exact ih hrest (by dsimp only; rw [hnread]) hp hmarks huser
  | resetCount rest ih => exact ih hsettle rfl hp hmarks huser
  | assertCount n rest ih =>
      obtain ⟨hn, hrest⟩ := Option.ite_none_right_eq_some.mp hsettle
      rw [Reaction.run, if_pos (hnread.trans hn)]
      exact ih hrest hnread hp hmarks huser
  | mark k rest ih =>
      obtain ⟨⟨hzero, hmarked⟩, hrest⟩ := Option.ite_none_right_eq_some.mp hsettle
      refine ih hrest hnread hp ?_ huser
      dsimp only
      rw [hp, hzero, hmarks, marksAt_some]
      rcases hmarked with rfl | rfl
      · rfl
      · simp [marksAt_some]
  | move n rest ih => exact ih hsettle hnread (by dsimp only; rw [hp]) hmarks huser
  | data k extra advance q rest ih =>
      obtain ⟨⟨hq, hmarked⟩, hrest⟩ := Option.ite_none_right_eq_some.mp hsettle
      rw [Reaction.run, callbackData_settles (e := e.load q) hS hq hmarks hmarked]
      exact ih hrest hnread hp rfl (by dsimp only [Exec.load]; rw [hp, huser])
  | notify k advance q rest ih =>
      obtain ⟨hq, hrest⟩ := Option.ite_none_right_eq_some.mp hsettle
      rw [Reaction.run, callbackNotify_settles (e := e.load q) hS hq]
      exact ih hrest hnread hp hmarks (by dsimp only [Exec.load]; rw [huser])
  -- the answer is 0, so the branch without a body is not taken
  | headersComplete q rest skipping ih =>
      rw [Reaction.run, callbackHeadersComplete_settles hS]
      exact ih hsettle hnread hp hmarks (by dsimp only [Exec.load]; rw [huser])

theorem plainStep_settleByte (hS : Quiet S L) {reply : Reply (Registers × σ)}
    (h : settleByte L s b = some reply) : plainStep S s b = reply := by
  have hsettles := Reaction.run_settle (e := startExec ⟨s.1, 0⟩ s.2) hS h rfl rfl rfl rfl
  unfold plainStep
  cases reply with
  | goes t =>
      obtain ⟨e, n, hrun, hfinish⟩ := hsettles
      rw [hrun]
      dsimp only
      rw [hfinish]
  | stops t consumed =>
      obtain ⟨p, n, hrun, hconsumed⟩ := hsettles
      rw [hrun]
      dsimp only
      rw [hconsumed]

/-- Bytes that settle are passed by the plain parser. -/
theorem feed_settleAll (hS : Quiet S L) (h : settleAll L s l = some t) :
    (plainParser S).feed s l = ⟨t, l.length, false⟩ := by
  induction l generalizing s with
  | nil =>
      cases h
      rfl
  | cons b l ih =>
      obtain ⟨s', hbyte, hrest⟩ := settleAll_cons_eq_some h
      have hstep : (plainParser S).step s b = .goes s' := plainStep_settleByte hS hbyte
      rw [Feeder.feed_cons_goes hstep, ih hrest]
      rfl

theorem feed_refuses (hS : Quiet S L) {err : HttpErrno} (h : Refuses L err s l) :
    ∃ t n, (plainParser S).feed s l = ⟨t, n, true⟩ ∧ t.1.httpErrno = err := by
  induction h with
  | @here s t b l consumed byte errno =>
      have hstep : (plainParser S).step s b = .stops t consumed := plainStep_settleByte hS byte
      exact ⟨t, _, Feeder.feed_cons_stops hstep, errno⟩
  | @later s t b l byte rest ih =>
      have hstep : (plainParser S).step s b = .goes t := plainStep_settleByte hS byte
      obtain ⟨t', n, hfeed, herrno⟩ := ih
      exact ⟨t', n + 1, by rw [Feeder.feed_cons_goes hstep, hfeed], herrno⟩

/-! ## Every cut settles -/

theorem Reaction.settle_goes {r : Reaction} {nread p : ℕ}
    (h : r.settle L b nread p marked u = some (.goes t)) :
    t.1.httpErrno = .ok ∧ t.1.upgrade = false := by
  induction r generalizing nread p marked u with
  | next q | endOfBuffer q =>
      obtain ⟨hq, ht⟩ := Option.ite_none_right_eq_some.mp h
      cases ht
      exact hq
  | fail q | exit q | abort => cases h
  | count q n rest ih | assertCount n rest ih | mark k rest ih =>
      exact ih (Option.ite_none_right_eq_some.mp h).2
  | data k extra advance q rest ih | notify k advance q rest ih =>
      exact ih (Option.ite_none_right_eq_some.mp h).2
  | resetCount rest ih | move n rest ih | headersComplete q rest skipping ih => exact ih h

theorem settleAll_goes (hs : s.1.httpErrno = .ok ∧ s.1.upgrade = false)
    (h : settleAll L s l = some t) : t.1.httpErrno = .ok ∧ t.1.upgrade = false := by
  induction l generalizing s with
  | nil =>
      cases h
      exact hs
  | cons b l ih =>
      obtain ⟨s', hbyte, hrest⟩ := settleAll_cons_eq_some h
      exact ih (Reaction.settle_goes hbyte) hrest

variable {parser : HttpParser} {φ : Phase} {r : Returned σ} {data : List UInt8}
  {datas : List (List UInt8)}

/-- A call passes bytes that settle, unless the header gets too long. -/
theorem httpParserExecute_settles (hS : Quiet S L) (hsound : parser.Sound φ)
    (hgoes : parser.httpErrno = .ok ∧ parser.upgrade = false) (hdata : data ≠ [])
    (hsmall : data.length + httpMaxHeaderSize < 0x100000000)
    (h : settleAll L (parser.toRegisters, u) data = some t)
    (hr : httpParserExecute S parser u data = some r) :
    r.parser.httpErrno = .headerOverflow ∨
      r.count = data.length ∧ (r.parser.toRegisters, r.user) = t ∧
        r.parser.httpErrno = .ok ∧ r.parser.upgrade = false := by
  rcases httpParserExecute_plain hS.incremental hsound hgoes.1 hdata hsmall hr with
    hover | ⟨u', stopped, hfeed, huser, -⟩
  · exact Or.inl hover
  · rw [feed_settleAll hS h] at hfeed
    obtain ⟨rfl, hcount, -⟩ := Fed.mk.inj hfeed
    have hgoes' := settleAll_goes hgoes h
    obtain rfl := huser (by rw [hgoes'.1]; rfl)
    exact Or.inr ⟨hcount.symm, rfl, hgoes'⟩

theorem executeAll_cons_overflow (hr : httpParserExecute S parser u data = some r)
    (hover : r.parser.httpErrno = .headerOverflow) :
    executeAll S parser u (data :: datas) = some r := by
  rw [executeAll, hr, Option.bind_some]
  exact if_neg fun hgo => HttpErrno.noConfusion (hgo.1.symm.trans hover)

theorem executeAll_cons_goes (hr : httpParserExecute S parser u data = some r)
    (hgoes : r.parser.httpErrno = .ok ∧ r.parser.upgrade = false) {r' : Returned σ}
    (hr' : executeAll S r.parser r.user datas = some r') :
    executeAll S parser u (data :: datas) = some { r' with count := r.count + r'.count } := by
  rw [executeAll, hr, Option.bind_some, if_pos hgoes, hr']
  rfl

/-- Bytes that settle are passed however they are cut, unless the header gets too long. -/
theorem executeAll_settles (hS : Quiet S L) (hsound : parser.Sound φ)
    (hgoes : parser.httpErrno = .ok ∧ parser.upgrade = false) (hdatas : Buffers datas)
    (h : settleAll L (parser.toRegisters, u) datas.flatten = some t) :
    ∃ r, executeAll S parser u datas = some r ∧
      (r.parser.httpErrno = .headerOverflow ∨
        r.count = datas.flatten.length ∧ (r.parser.toRegisters, r.user) = t) := by
  induction datas generalizing parser u φ with
  | nil =>
      cases h
      exact ⟨_, rfl, Or.inr ⟨rfl, rfl⟩⟩
  | cons data datas ih =>
      obtain ⟨hdata, hsmall⟩ := hdatas data List.mem_cons_self
      rw [List.flatten_cons] at h
      obtain ⟨t₁, hfirst, hrest⟩ := settleAll_append_eq_some h
      obtain ⟨r₁, hr₁, -, ψ, -, hsound₁⟩ :=
        httpParserExecute_sound (Tracks.trivial S) (φ := φ) (u := u) True.intro hsound data
      rcases httpParserExecute_settles hS hsound hgoes hdata hsmall hfirst hr₁ with
        hover | ⟨hcount, rfl, hgoes₁⟩
      · exact ⟨r₁, executeAll_cons_overflow hr₁ hover, Or.inl hover⟩
      · obtain ⟨r, hr, hend⟩ := ih hsound₁ hgoes₁
          (fun d hd => hdatas d (List.mem_cons_of_mem _ hd)) hrest
        refine ⟨_, executeAll_cons_goes hr₁ hgoes₁ hr, hend.imp_right ?_⟩
        rintro ⟨hn, ht⟩
        refine ⟨?_, ht⟩
        rw [List.flatten_cons, List.length_append, hcount, hn]

/-- An error is found however the bytes are cut, after as many bytes as by the plain parser,
unless the header gets too long. -/
theorem executeAll_refuses (hS : Quiet S L) {err : HttpErrno} (herr : err ≠ .ok)
    (hsound : parser.Sound φ) (hgoes : parser.httpErrno = .ok ∧ parser.upgrade = false)
    (hdatas : Buffers datas) (h : Refuses L err (parser.toRegisters, u) datas.flatten) :
    ∃ r, executeAll S parser u datas = some r ∧
      (r.parser.httpErrno = .headerOverflow ∨ r.parser.httpErrno = err ∧
        r.count = ((plainParser S).feed (parser.toRegisters, u) datas.flatten).count) := by
  induction datas generalizing parser u φ with
  | nil => cases h
  | cons data datas ih =>
      obtain ⟨hdata, hsmall⟩ := hdatas data List.mem_cons_self
      rw [List.flatten_cons] at h
      obtain ⟨r₁, hr₁, -, ψ, -, hsound₁⟩ :=
        httpParserExecute_sound (Tracks.trivial S) (φ := φ) (u := u) True.intro hsound data
      rcases h.append_cases with hfirst | ⟨t₁, hfirst, hrest⟩
      · obtain ⟨t, n, hfeed, herrno⟩ := feed_refuses hS hfirst
        rcases httpParserExecute_plain hS.incremental hsound hgoes.1 hdata hsmall hr₁ with
          hover | ⟨u₁, stopped, hfeed', -⟩
        · exact ⟨r₁, executeAll_cons_overflow hr₁ hover, Or.inl hover⟩
        · obtain ⟨rfl, rfl, -⟩ := Fed.mk.inj (hfeed.symm.trans hfeed')
          refine ⟨r₁, ?_, Or.inr ⟨herrno, ?_⟩⟩
          · rw [executeAll, hr₁, Option.bind_some]
            exact if_neg fun hgo => herr (herrno.symm.trans hgo.1)
          · rw [List.flatten_cons, Feeder.feed_append_stops (by rw [hfeed]), hfeed]
      · rcases httpParserExecute_settles hS hsound hgoes hdata hsmall hfirst hr₁ with
          hover | ⟨hcount, rfl, hgoes₁⟩
        · exact ⟨r₁, executeAll_cons_overflow hr₁ hover, Or.inl hover⟩
        · obtain ⟨r, hr, hend⟩ := ih hsound₁ hgoes₁
            (fun d hd => hdatas d (List.mem_cons_of_mem _ hd)) hrest
          refine ⟨_, executeAll_cons_goes hr₁ hgoes₁ hr, hend.imp_right ?_⟩
          rintro ⟨herrno, hn⟩
          refine ⟨herrno, ?_⟩
          rw [List.flatten_cons, Feeder.feed_append_goes (feed_settleAll hS hfirst), ← hn, hcount]

end Settle

end Http2Asio.Http1
