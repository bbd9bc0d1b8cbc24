import Http2Asio.Http1.Plain

/-!
# One byte, in a buffer and on its own

A reaction to the byte at `p` is run twice: in a buffer, where a mark may stand anywhere
before `p`, and in the buffer that holds this byte alone, where a mark stands at its start.
Between the two runs the callbacks are apart by the bytes from the mark to `p`
(`Twin`), and the runs end the same way (`Reaction.run_twin`).

This needs a reaction that looks at one byte only (`Reaction.Single`).

The induction is over the reaction, with the cursors of both runs and the fact that it is
lawful at both of them (`Abreast`).  Nothing is assumed of the counters but that they are what
the cursors say: they differ between the runs, and a run in the buffer that finds the header
too long is left out (`Agree`).  A node that calls back with the marked bytes brings the two
callbacks to the same state, in the buffer with all of the bytes at once and alone with the
last of them, as the earlier ones were passed on before; this is where the callbacks have to
be `Incremental`.

`Reaction.run_twin_ahead` is the case that is not symmetric: inside a body the buffer holds
bytes that wait, where the byte on its own finds nothing marked.
-/

namespace Http2Asio.Http1

open Registers

/-- The reaction stays at one byte, and does not add to the counter. -/
def Reaction.Single : Reaction → Prop
  | .next _ | .fail _ | .exit _ | .abort => True
  | .endOfBuffer _ | .count _ _ _ => False
  | .move n rest => n = 0 ∧ rest.Single
  | .resetCount rest | .assertCount _ rest | .mark _ rest => rest.Single
  | .data _ extra _ _ rest => extra ≤ 1 ∧ rest.Single
  | .notify _ _ _ rest => rest.Single
  | .headersComplete _ rest skipping => rest.Single ∧ skipping.Single

/-! ## Reactions to one byte -/

/-- The states with a loop of their own. -/
def State.loops : State → Bool
  | .headerField | .headerValue | .chunkData | .bodyIdentity | .bodyIdentityEof => true
  | _ => false

section Single

variable {q : Registers} {ch : UInt8} {rest : List UInt8} {target : State}

attribute [local simp] Reaction.Single Registers.error Registers.completeMessage

theorem error_single {e : HttpErrno} : (q.error e).Single :=
  trivial

theorem assertChunked_single {r : Reaction} (h : r.Single) : (q.assertChunked r).Single := by
  unfold assertChunked
  split
  · exact h
  · trivial

theorem messageDone_single : (messageDone q).Single := by
  unfold messageDone
  simp only [completeMessage, Reaction.Single]
  split <;> trivial

theorem headersDone_single : (headersDone q ch).Single := by
  unfold headersDone
  split_ifs <;> simp

theorem headersAlmostDone_single : (headersAlmostDone q ch).Single := by
  unfold headersAlmostDone
  split_ifs <;> simp [messageDone_single, headersDone_single]

theorem headerFieldStart_single : (headerFieldStart q ch).Single := by
  unfold headerFieldStart
  dsimp only
  split_ifs <;> simp [headersAlmostDone_single]

theorem headerValueStart_single : (headerValueStart q ch).Single := by
  unfold headerValueStart
  dsimp only
  split <;> (try split_ifs) <;> simp

theorem startReq_single : (startReq q ch).Single := by
  unfold startReq
  dsimp only
  split_ifs
  · simp
  · simp
  · split <;> simp

theorem urlChar_single : (urlChar q ch).Single := by
  unfold urlChar
  dsimp only
  split <;> simp

theorem strictCheck_single {expected : UInt8} : (strictCheck expected target q ch).Single := by
  unfold strictCheck
  split <;> simp

theorem httpMinorDigit_single : (httpMinorDigit q ch).Single := by
  unfold httpMinorDigit
  dsimp only
  split_ifs <;> simp

/-- The other states look at one byte. -/
theorem turn_single (ch : UInt8) (rest : List UInt8) (h : q.state.loops = false) :
    (turn q ch rest).Single := by
  unfold turn
  cases hs : q.state <;> rw [hs] at h <;> dsimp only
  -- the states with a loop of their own
  case headerField | headerValue | chunkData | bodyIdentity | bodyIdentityEof =>
    exact absurd h nofun
  case resH | resHT | resHTT | resHTTP | reqHttpH | reqHttpHT | reqHttpHTT | reqHttpHTTP
      | resLineAlmostDone | headerAlmostDone | headerValueDiscardWsAlmostDone =>
      exact strictCheck_single
  case startReq => exact startReq_single
  case headerFieldStart => exact headerFieldStart_single
  case headerValueStart => exact headerValueStart_single
  case headersAlmostDone => exact headersAlmostDone_single
  case headersDone => exact headersDone_single
  case messageDone => exact messageDone_single
  case startReqOrRes =>
      unfold startReqOrRes
      split_ifs <;> simp [startReq_single]
  case resFirstHttpMajor | reqFirstHttpMajor =>
      simp only [resFirstHttpMajor, reqFirstHttpMajor, firstHttpMajor]
      split_ifs <;> simp
  case resHttpMajor | reqHttpMajor =>
      simp only [resHttpMajor, reqHttpMajor, httpMajorOrDot]
      split_ifs <;> simp
  case resFirstHttpMinor | reqFirstHttpMinor =>
      simp only [resFirstHttpMinor, reqFirstHttpMinor, firstHttpMinor]
      split_ifs <;> simp
  case resHttpMinor | reqHttpMinor =>
      simp only [resHttpMinor, reqHttpMinor]
      split_ifs <;> simp [httpMinorDigit_single]
  case reqMethod =>
      simp only [reqMethod]
      split_ifs <;> (try split) <;> simp
  case reqSpacesBeforeUrl | reqSchema | reqSchemaSlash | reqSchemaSlashSlash | reqServerStart
      | reqServer | reqServerWithAt | reqPath | reqQueryStringStart | reqQueryString
      | reqFragmentStart | reqFragment =>
      simp only [reqSpacesBeforeUrl, reqSchema, reqServer]
      split_ifs <;> simp [urlChar_single]
  case headerValueDiscardWs =>
      simp only [headerValueDiscardWs]
      split_ifs <;> simp [headerValueStart_single]
  case headerValueDiscardLws | headerValueLws =>
      simp only [headerValueDiscardLws, headerValueLws]
      split_ifs <;> simp [headerValueStart_single, headerFieldStart_single]
  case chunkSizeStart =>
      refine assertChunked_single ?_
      split <;> simp
  case chunkSize =>
      refine assertChunked_single ?_
      split
      · simp
      cases unhex ch <;> dsimp only <;> split <;> simp
  case chunkParameters | chunkSizeAlmostDone | chunkDataAlmostDone | chunkDataDone =>
      refine assertChunked_single ?_
      split_ifs <;> simp
  all_goals
    simp only [dead, resOrRespH, startRes, resFirstStatusCode, resStatusCode, resStatusStart,
      resStatus, reqHttpStart, reqLineAlmostDone]
    split_ifs <;> simp

/-- The other states do not see the rest of the buffer. -/
theorem turn_rest (ch : UInt8) (rest : List UInt8) (h : q.state.loops = false) :
    turn q ch rest = turn q ch [] := by
  unfold turn
  cases hs : q.state <;> rw [hs] at h <;> first | rfl | exact absurd h nofun

end Single

/-! ## Two runs -/

section Twins

variable {σ : Type} {S : HttpParserSettings σ} {act : DataCb → List UInt8 → σ → σ}
  {data rest : List UInt8} {b : UInt8} {p n : ℕ} {e e₁ : Exec σ} {c c₁ : Cursor} {k : DataCb}
  {marked : Option DataCb}

/-- The bytes from a mark to `p`, with the byte at `p`. -/
theorem slice_succ {m : ℕ} (hm : m ≤ p) (hb : data.drop p = b :: rest) :
    slice data m (p + 1) = slice data m p ++ [b] := by
  have hlast : (data.drop m)[p - m]? = some b := by
    have hhead : (data.drop p)[0]? = some b := by rw [hb]; rfl
    rw [List.getElem?_drop] at hhead ⊢
    rwa [show m + (p - m) = p + 0 from by omega]
  rw [slice, slice, show p + 1 - m = p - m + 1 from by omega, List.take_add_one, hlast]
  rfl

theorem slice_self : slice data p p = [] := by
  simp [slice]

/-- The two runs at a node: the marks, and the callbacks apart by the bytes before `p`. -/
inductive Twin (act : DataCb → List UInt8 → σ → σ) (data : List UInt8) (p : ℕ) (e e₁ : Exec σ) :
    Option DataCb → Prop
  | clear (marks : e.marks = fun _ => none) (marks₁ : e₁.marks = fun _ => none)
      (user : e.user = e₁.user) : Twin act data p e e₁ none
  | since {k : DataCb} {m : ℕ} (mark_le : m ≤ p)
      (marks : e.marks = Function.update (fun _ => none) k (some m))
      (marks₁ : e₁.marks = Function.update (fun _ => none) k (some 0))
      (user : act k (slice data m p) e.user = e₁.user) : Twin act data p e e₁ (some k)

/-- The two runs end the same way, unless the one in the buffer finds the header too long.
What the callbacks got before an error of the input is not compared. -/
inductive Agree (act : DataCb → List UInt8 → σ → σ) (data : List UInt8) (b : UInt8) (p : ℕ) :
    Outcome σ → Outcome σ → Prop
  | looping {e e₁ : Exec σ} (registers : e.parser.toRegisters = e₁.parser.toRegisters)
      (p_eq : e.p = p + 1) (marks : OneMark e.marks) (marks₁ : OneMark e₁.marks)
      (user : flush act data e = flush act [b] e₁) : Agree act data b p (.looping e) (.looping e₁)
  | returned {n : ℕ} {parser parser₁ : HttpParser} {u u₁ : σ} (n_le : n ≤ 1)
      (registers : parser.toRegisters = parser₁.toRegisters)
      (user : parser.httpErrno.parsing = false → u = u₁) :
      Agree act data b p (.returned (p + n) parser u) (.returned n parser₁ u₁)
  | overflow {n : ℕ} {parser : HttpParser} {u : σ} {outcome₁ : Outcome σ}
      (errno : parser.httpErrno = .headerOverflow) :
      Agree act data b p (.returned n parser u) outcome₁

theorem Twin.mark (hS : Incremental S act) (h : Twin act data p e e₁ none) (hp : e.p = p)
    (hp₁ : e₁.p = 0) :
    Twin act data p
      { e with marks := Function.update e.marks k (some ((e.marks k).getD e.p)) }
      { e₁ with marks := Function.update e₁.marks k (some ((e₁.marks k).getD e₁.p)) }
      (some k) := by
  cases h with
  | clear hmarks hmarks₁ huser =>
      refine .since (m := p) (Nat.le_refl _) ?_ ?_ ?_
      · simp [hmarks, hp]
      · simp [hmarks₁, hp₁]
      · rw [slice_self, hS.nil]
        exact huser

theorem Twin.mark_again (h : Twin act data p e e₁ (some k)) :
    Twin act data p
      { e with marks := Function.update e.marks k (some ((e.marks k).getD e.p)) }
      { e₁ with marks := Function.update e₁.marks k (some ((e₁.marks k).getD e₁.p)) }
      (some k) := by
  cases h with
  | since hm hmarks hmarks₁ huser =>
      refine .since hm ?_ ?_ huser
      · simp [hmarks]
      · simp [hmarks₁]

theorem Twin.oneMark (h : Twin act data p e e₁ marked) : OneMark e.marks ∧ OneMark e₁.marks := by
  cases h with
  | clear hmarks hmarks₁ _ => exact ⟨Or.inl hmarks, Or.inl hmarks₁⟩
  | since _ hmarks hmarks₁ _ => exact ⟨Or.inr ⟨_, _, hmarks⟩, Or.inr ⟨_, _, hmarks₁⟩⟩

/-- After the byte the callbacks are apart by what is pending. -/
theorem Twin.next (hS : Incremental S act) (h : Twin act data p e e₁ marked) (hp : e.p = p)
    (hp₁ : e₁.p = 0) (hb : data.drop p = b :: rest) :
    flush act data { e with p := e.p + 1 } = flush act [b] { e₁ with p := e₁.p + 1 } := by
  cases h with
  | clear hmarks hmarks₁ huser =>
      rw [flush_clear (by exact hmarks), flush_clear (by exact hmarks₁)]
      exact huser
  | since hm hmarks hmarks₁ huser =>
      rw [flush_since (by exact hmarks), flush_since (by exact hmarks₁)]
      dsimp only
      rw [hp, hp₁, slice_succ hm hb, hS.append, huser]
      rfl

/-- `CALLBACK_DATA_` in both runs delivers what is pending, and the byte if `extra` is 1. -/
theorem Twin.callbackData (hS : Incremental S act) (h : Twin act data p e e₁ marked)
    (hmarked : marked = none ∨ marked = some k) (hp : e.p = p) (hp₁ : e₁.p = 0)
    (hb : data.drop p = b :: rest) {extra : ℕ} {advance : Bool} (hextra : extra ≤ 1)
    (herrno : e.parser.httpErrno = .ok) (herrno₁ : e₁.parser.httpErrno = .ok)
    {go go₁ : Exec σ → Outcome σ}
    (hgo : ∀ u, Agree act data b p
      (go { e with user := u, marks := fun _ => none })
      (go₁ { e₁ with user := u, marks := fun _ => none })) :
    Agree act data b p (Http1.callbackData S data k extra advance e go)
      (Http1.callbackData S [b] k extra advance e₁ go₁) := by
  cases h with
  | clear hmarks hmarks₁ huser =>
      rw [callbackData_unmarked herrno (by rw [hmarks]),
        callbackData_unmarked herrno₁ (by rw [hmarks₁])]
      obtain ⟨parser, user, p', marks⟩ := e
      obtain ⟨parser₁, user₁, p₁, marks₁⟩ := e₁
      obtain rfl : marks = fun _ => none := hmarks
      obtain rfl : marks₁ = fun _ => none := hmarks₁
      obtain rfl : user = user₁ := huser
      exact hgo user
  | @since k' m hm hmarks hmarks₁ huser =>
      obtain rfl : k' = k := Option.some.inj (hmarked.resolve_left nofun)
      rw [callbackData_incremental hS herrno hmarks, callbackData_incremental hS herrno₁ hmarks₁]
      have hsame : act k' (slice data m (e.p + extra)) e.user =
          act k' (slice [b] 0 (e₁.p + extra)) e₁.user := by
        rw [hp, hp₁]
        rcases Nat.le_one_iff_eq_zero_or_eq_one.mp hextra with rfl | rfl
        · rw [Nat.add_zero, huser, Nat.add_zero, slice_self, hS.nil]
        · rw [slice_succ hm hb, hS.append, huser]
          rfl
      rw [hsame]
      exact hgo _

theorem Twin.user_eq (h : Twin act data p e e₁ none) : e.user = e₁.user := by
  cases h with
  | clear _ _ huser => exact huser

theorem Twin.called (h : Twin act data p e e₁ none) (u : σ) {parser parser₁ : HttpParser} :
    Twin act data p { e with parser := parser, user := u }
      { e₁ with parser := parser₁, user := u } none := by
  cases h with
  | clear hmarks hmarks₁ _ => exact .clear hmarks hmarks₁ rfl

theorem Twin.loaded (h : Twin act data p e e₁ marked) (q : Registers) :
    Twin act data p (e.load q) (e₁.load q) marked := by
  cases h with
  | clear hmarks hmarks₁ huser => exact .clear hmarks hmarks₁ huser
  | since hm hmarks hmarks₁ huser => exact .since hm hmarks hmarks₁ huser

theorem Twin.counted (h : Twin act data p e e₁ marked) (n n₁ : ℕ) :
    Twin act data p { e with parser := { e.parser with nread := n } }
      { e₁ with parser := { e₁.parser with nread := n₁ } } marked := by
  cases h with
  | clear hmarks hmarks₁ huser => exact .clear hmarks hmarks₁ huser
  | since hm hmarks hmarks₁ huser => exact .since hm hmarks hmarks₁ huser

/-- The parser that a callback leaves when it stops the parser. -/
theorem afterCallback_registers {parser parser₁ : HttpParser} (failure : HttpErrno)
    (r : CbResult σ) (h : parser.toRegisters = parser₁.toRegisters) :
    (afterCallback parser failure r).toRegisters =
      (afterCallback parser₁ failure r).toRegisters := by
  unfold afterCallback
  split_ifs
  · simp [h]
  · simp [h]
  · exact h

theorem Twin.callbackNotify (h : Twin act data p e e₁ none) (hp : e.p = p) (hp₁ : e₁.p = 0)
    {k : NotifyCb} {advance : Bool} (hregisters : e.parser.toRegisters = e₁.parser.toRegisters)
    (herrno : e.parser.httpErrno = .ok) {go go₁ : Exec σ → Outcome σ}
    (hgo : ∀ u, Agree act data b p (go { e with user := u }) (go₁ { e₁ with user := u })) :
    Agree act data b p (Http1.callbackNotify S k advance e go)
      (Http1.callbackNotify S k advance e₁ go₁) := by
  have herrno₁ : e₁.parser.httpErrno = .ok := hregisters ▸ herrno
  unfold Http1.callbackNotify
  rw [if_neg (not_not_intro herrno), if_neg (not_not_intro herrno₁), ← h.user_eq, ← hregisters]
  cases hf : S.onNotify k with
  | none =>
      have hagree := hgo e.user
      rwa [show ({ e₁ with user := e.user } : Exec σ) = e₁ by rw [h.user_eq]] at hagree
  | some f =>
      dsimp only
      generalize f e.parser.view e.user = r
      have hafter := afterCallback_registers (.cbNotify k) r hregisters
      have herr : (afterCallback e.parser (.cbNotify k) r).httpErrno =
          (afterCallback e₁.parser (.cbNotify k) r).httpErrno :=
        congrArg Registers.httpErrno hafter
      by_cases hstop : (afterCallback e.parser (.cbNotify k) r).httpErrno = .ok
      · have hstop₁ : (afterCallback e₁.parser (.cbNotify k) r).httpErrno = .ok := herr ▸ hstop
        rw [if_neg (not_not_intro hstop), if_neg (not_not_intro hstop₁)]
        exact hgo r.user
      · have hstop₁ : (afterCallback e₁.parser (.cbNotify k) r).httpErrno ≠ .ok := herr ▸ hstop
        rw [if_pos hstop, if_pos hstop₁, hp, hp₁]
        cases advance with
        | true => exact .returned (n := 1) (Nat.le_refl _) hafter fun _ => rfl
        | false => exact .returned (n := 0) (Nat.zero_le _) hafter fun _ => rfl

theorem Twin.callbackHeadersComplete (h : Twin act data p e e₁ none) (hp : e.p = p)
    (hp₁ : e₁.p = 0) (hregisters : e.parser.toRegisters = e₁.parser.toRegisters)
    {go go₁ skipping skipping₁ : Exec σ → Outcome σ}
    (hgo : ∀ u, Agree act data b p (go { e with user := u }) (go₁ { e₁ with user := u }))
    (hskipping : ∀ u, Agree act data b p
      (skipping { e.load e.parser.setSkipbody with user := u })
      (skipping₁ { e₁.load e₁.parser.setSkipbody with user := u })) :
    Agree act data b p (Http1.callbackHeadersComplete S e go skipping)
      (Http1.callbackHeadersComplete S e₁ go₁ skipping₁) := by
  unfold Http1.callbackHeadersComplete
  cases hf : S.onHeadersComplete with
  | none =>
      have hagree := hgo e.user
      rwa [show ({ e₁ with user := e.user } : Exec σ) = e₁ by rw [h.user_eq]] at hagree
  | some f =>
      dsimp only
      rw [← h.user_eq, ← hregisters]
      generalize f e.parser.view e.user = r
      have hreturned : ∀ {parser parser₁ : HttpParser},
          parser.toRegisters = parser₁.toRegisters →
          Agree act data b p (.returned e.p parser r.user) (.returned e₁.p parser₁ r.user) := by
        intro parser parser₁ hsame
        rw [hp, hp₁]
        exact .returned (n := 0) (Nat.zero_le _) hsame fun _ => rfl
      split_ifs
      · exact hreturned (by simp [hregisters])
      · exact hgo r.user
      · exact hreturned (by simp [hregisters])
      · exact hskipping r.user
      · exact hreturned (by simp [hregisters])
      · exact hreturned (by simp [hregisters])

/-- The two runs are at a node, with the cursors that it was judged from. -/
structure Abreast (p : ℕ) (c c₁ : Cursor) (e e₁ : Exec σ) : Prop where
  nread : e.parser.nread = c.nread
  nread₁ : e₁.parser.nread = c₁.nread
  p_eq : e.p = p
  p₁_eq : e₁.p = 0

/-- **One byte.**  A lawful reaction that stays at its byte ends the same way in a buffer and
on its own. -/
theorem Reaction.run_twin (hS : Incremental S act) (hb : data.drop p = b :: rest) {r : Reaction}
    (hsingle : r.Single) (hr : r.Lawful c) (hr₁ : r.Lawful c₁) (h : Abreast p c c₁ e e₁)
    (hmarked₁ : c₁.marked = c.marked) (htwin : Twin act data p e e₁ c.marked) :
    Agree act data b p (r.run S data e) (r.run S [b] e₁) := by
  obtain ⟨hnread, hnread₁, hp, hp₁⟩ := h
  induction r generalizing c c₁ e e₁ with
  | next q =>
      have hone := htwin.oneMark
      refine .looping rfl (congrArg (· + 1) hp) hone.1 hone.2 ?_
      exact (htwin.loaded q).next hS hp hp₁ hb
  | endOfBuffer q => exact hsingle.elim
  | fail q =>
      -- an error of the input, after which the callbacks are not compared
      rw [Reaction.run, Reaction.run, hp, hp₁]
      exact .returned (n := 0) (Nat.zero_le _) rfl fun hok =>
        absurd (hok.symm.trans hr) Bool.false_ne_true
  | exit q =>
      obtain ⟨-, -, hm, -⟩ := hr
      rw [hm] at htwin
      rw [Reaction.run, Reaction.run, hp, hp₁]
      exact .returned (n := 1) (Nat.le_refl _) rfl fun _ => htwin.user_eq
  | abort => exact hr.elim
  | count q n rest ih => exact hsingle.elim
  | resetCount rest ih => exact ih hsingle hr hr₁ hmarked₁ (htwin.counted 0 0) rfl rfl hp hp₁
  | assertCount n rest ih =>
      rw [Reaction.run, Reaction.run, if_pos (hnread.trans hr.1), if_pos (hnread₁.trans hr₁.1)]
      exact ih hsingle hr.2 hr₁.2 hmarked₁ htwin hnread hnread₁ hp hp₁
  | mark k rest ih =>
      rcases hr with ⟨hm, φ, -, hrest⟩ | ⟨hm, hrest⟩
      · obtain ⟨-, φ₁, -, hrest₁⟩ := hr₁.resolve_right fun hr₁ => by
          simp [hmarked₁, hm] at hr₁
        rw [hm] at htwin
        exact ih hsingle hrest hrest₁ rfl (htwin.mark hS hp hp₁) hnread hnread₁ hp hp₁
      · obtain ⟨-, hrest₁⟩ := hr₁.resolve_left fun hr₁ => by
          simp [hmarked₁, hm] at hr₁
        refine ih hsingle hrest hrest₁ hmarked₁ ?_ hnread hnread₁ hp hp₁
        rw [hm] at htwin ⊢
        exact htwin.mark_again
  | move n rest ih =>
      obtain ⟨rfl, hsingle⟩ := hsingle
      obtain ⟨-, φ, -, hrest⟩ := hr
      obtain ⟨-, φ₁, -, hrest₁⟩ := hr₁
      exact ih hsingle hrest hrest₁ hmarked₁ htwin hnread hnread₁ hp hp₁
  | data k extra advance q rest ih =>
      obtain ⟨hextra, hsingle⟩ := hsingle
      obtain ⟨-, -, hm, φ, -, hrests, hrest⟩ := hr
      obtain ⟨-, -, -, φ₁, -, -, hrest₁⟩ := hr₁
      exact (htwin.loaded q).callbackData hS hm hp hp₁ hb hextra hrests.errno hrests.errno fun u =>
        ih hsingle hrest hrest₁ rfl (.clear rfl rfl rfl) hnread hnread₁ hp hp₁
  | notify k advance q rest ih =>
      obtain ⟨-, hm, φ, -, hrests, hrest⟩ := hr
      obtain ⟨-, -, φ₁, -, -, hrest₁⟩ := hr₁
      have hclear : Twin act data p (e.load q) (e₁.load q) none := by
        rw [hm] at htwin
        exact htwin.loaded q
      refine hclear.callbackNotify hp hp₁ rfl hrests.errno fun u => ?_
      refine ih hsingle hrest hrest₁ hmarked₁ ?_ hnread hnread₁ hp hp₁
      rw [hm]
      exact hclear.called u
  | headersComplete q rest skipping ih ih' =>
      obtain ⟨hm, ⟨φ, -, hrests, hrest⟩, χ, -, -, hskipping⟩ := hr
      obtain ⟨-, ⟨φ₁, -, -, hrest₁⟩, χ₁, -, -, hskipping₁⟩ := hr₁
      have hclear : Twin act data p (e.load q) (e₁.load q) none := by
        rw [hm] at htwin
        exact htwin.loaded q
      refine hclear.callbackHeadersComplete hp hp₁ rfl (fun u => ?_) fun u => ?_
      · refine ih hsingle.1 hrest hrest₁ hmarked₁ ?_ hnread hnread₁ hp hp₁
        rw [hm]
        exact hclear.called u
      · refine ih' hsingle.2 hskipping hskipping₁ hmarked₁ ?_ hnread hnread₁ hp hp₁
        rw [hm]
        exact hclear.called u

/-- The reaction begins by marking or delivering the bytes that wait. -/
def Reaction.Delivers : Reaction → Prop
  | .mark _ _ | .fail _ | .abort => True
  | .data _ extra _ _ _ => extra = 0
  | _ => False

/-- In the buffer the bytes of a body may wait where on its own nothing is marked. -/
theorem Reaction.run_twin_ahead (hS : Incremental S act) (hb : data.drop p = b :: rest)
    {r : Reaction} {m : ℕ} (hsingle : r.Single) (hdelivers : r.Delivers) (hr : r.Lawful c)
    (hr₁ : r.Lawful c₁) (h : Abreast p c c₁ e e₁) (hmarked : c.marked = some k)
    (hmarked₁ : c₁.marked = none) (hm : m ≤ p)
    (hmarks : e.marks = Function.update (fun _ => none) k (some m))
    (hmarks₁ : e₁.marks = fun _ => none)
    (huser : act k (slice data m p) e.user = e₁.user) :
    Agree act data b p (r.run S data e) (r.run S [b] e₁) := by
  cases r with
  | fail q =>
      rw [Reaction.run, Reaction.run, h.p_eq, h.p₁_eq]
      exact .returned (n := 0) (Nat.zero_le _) rfl fun hok =>
        absurd (hok.symm.trans hr) Bool.false_ne_true
  | abort => exact hr.elim
  | mark k' rest =>
      obtain ⟨hk, hrest⟩ := hr.resolve_left fun hr => by simp [hmarked] at hr
      obtain ⟨-, φ₁, -, hrest₁⟩ := hr₁.resolve_right fun hr₁ => by simp [hmarked₁] at hr₁
      obtain rfl : k = k' := Option.some.inj (hmarked.symm.trans hk)
      -- the mark in the buffer stays where it is, and on its own the byte is marked
      have htwin : Twin act data p
          { e with marks := Function.update e.marks k (some ((e.marks k).getD e.p)) }
          { e₁ with marks := Function.update e₁.marks k (some ((e₁.marks k).getD e₁.p)) }
          (some k) := by
        refine .since hm ?_ ?_ huser
        · simp [hmarks]
        · simp [hmarks₁, h.p₁_eq]
      rw [← hmarked] at htwin
      exact run_twin hS hb (r := rest) hsingle hrest hrest₁
        ⟨h.nread, h.nread₁, h.p_eq, h.p₁_eq⟩ hmarked.symm htwin
  | data k' extra advance q rest =>
      obtain ⟨-, -, hk, φ, -, hrests, hrest⟩ := hr
      obtain ⟨-, -, -, φ₁, -, -, hrest₁⟩ := hr₁
      obtain rfl : extra = 0 := hdelivers
      obtain rfl : k = k' :=
        Option.some.inj (hmarked.symm.trans (hk.resolve_left (by simp [hmarked])))
      rw [Reaction.run, Reaction.run,
        callbackData_incremental (e := e.load q) hS hrests.errno hmarks,
        callbackData_unmarked (e := e₁.load q) hrests.errno (congrFun hmarks₁ k)]
      have hp : e.p = p := h.p_eq
      have hdelivered : act k (slice data m (e.p + 0)) e.user = e₁.user := by
        rw [hp]
        exact huser
      exact run_twin hS hb hsingle.2 hrest hrest₁ ⟨h.nread, h.nread₁, h.p_eq, h.p₁_eq⟩ rfl
        (.clear rfl hmarks₁ hdelivered)
  | _ => exact hdelivers.elim

end Twins

end Http2Asio.Http1
