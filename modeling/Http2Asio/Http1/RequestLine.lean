import Http2Asio.Http1.Fields

/-!
# Request lines

A request line whose target the parser takes is told as it is, with the method that it names
(`settleAll_requestLine`).  What comes of it does not depend on the messages before it.  Any
other target is refused (`refuses_target`).

`parse_url_char` is a function of the state and the byte, so a target is judged by the fold of
it over its bytes: `IsTarget` asks that the fold ends in a state in which a target may end, and
`refuses_target` takes the first byte at which it is dead.  The registers at the end of the
line are given as a whole (`Registers.line`), with none of those of the message before.
-/

namespace Http2Asio.Http1

open Feeding Registers

section Line

variable {σ : Type} {L : Listener σ} {q : Registers} {u : σ} {h : HeaderState} {i : ℕ} {b : UInt8}
  {l target : List UInt8} {s : State}

/-! ## The request line -/

/-- The states in which a request target may end. -/
def State.endsTarget : State → Bool
  | .reqServer | .reqServerWithAt | .reqPath => true
  | .reqQueryStringStart | .reqQueryString | .reqFragmentStart | .reqFragment => true
  | _ => false

/-- A request target that the parser takes. -/
def IsTarget (target : List UInt8) : Prop :=
  (target.foldl parseUrlChar .reqSpacesBeforeUrl).endsTarget = true

instance (target : List UInt8) : Decidable (IsTarget target) :=
  inferInstanceAs (Decidable (_ = true))

/-- The registers at the first field of a request. -/
def Registers.line (method : HttpMethod) : Registers where
  type := .request
  flags := {}
  state := .startReq
  headerState := .general
  index := 0
  contentLength := ullongMax
  httpMajor := 1
  httpMinor := 1
  statusCode := 0
  method := method
  httpErrno := .ok
  upgrade := false

/-- The registers `q` are those of a parser of requests. -/
structure Registers.Requesting (q : Registers) : Prop where
  type : q.type = .request
  statusCode : q.statusCode = 0

/-- After the method. -/
def Registers.begun (q : Registers) (method : HttpMethod) : Registers :=
  { q with flags := {}, contentLength := ullongMax, method := method }

theorem settleAll_method (method : HttpMethod) :
    settleAll L (q.placed .startReq h i, u) (methodString method ++ ascii " ") =
      some ((q.begun method).placed .reqSpacesBeforeUrl h ((methodString method).length + 1),
        L.messageBegin u) := by
  cases method <;> rfl

theorem parseUrlChar_dead : l.foldl parseUrlChar .dead = .dead := by
  induction l with
  | nil => rfl
  | cons b l ih =>
      have hdead : parseUrlChar .dead b = .dead := by
        unfold parseUrlChar
        split_ifs <;> rfl
      rw [List.foldl_cons, hdead, ih]

theorem parseUrlChar_blank (hb : b = ' '.toUInt8 ∨ b = CR ∨ b = LF) : parseUrlChar s b = .dead := by
  unfold parseUrlChar
  rw [if_pos hb]

theorem urlChar_settle (hgo : parseUrlChar s b ≠ .dead) :
    (urlChar (q.placed s h i) b).settle L b 1 0 (some .url) u =
      some (.goes (q.placed (parseUrlChar s b) h i, L.data .url [b] u)) := by
  unfold urlChar
  dsimp only
  rw [if_neg (by exact hgo)]
  rfl

theorem urlChar_settle_dead {marked : Option DataCb} (hdead : parseUrlChar s b = .dead) :
    (urlChar (q.placed s h i) b).settle L b 1 0 marked u =
      some (.stops ((q.placed .dead h i).setErrno .invalidUrl, u) false) := by
  have hstate : parseUrlChar (q.placed s h i).state b = .dead := hdead
  unfold urlChar
  rw [hstate]
  rfl

/-- The states of a target differ only at a blank, where the target ends. -/
theorem settleByte_urlChar (hmark : resumedMark s = some .url)
    (hblank : ¬ (b = ' '.toUInt8 ∨ b = CR ∨ b = LF)) :
    settleByte L (q.placed s h i, u) b =
      (urlChar (q.placed s h i) b).settle L b 1 0 (some .url) u := by
  have hschema : ∀ q, reqSchema q b = urlChar q b := fun q => by
    rw [reqSchema, if_neg hblank]
  have hserver : ∀ q, reqServer q b = urlChar q b := fun q => by
    rw [reqServer, if_neg fun hb => hblank (Or.inl hb), if_neg fun hb => hblank (Or.inr hb)]
  have hturn : turn (q.placed s h i) b [] = urlChar (q.placed s h i) b := by
    cases s <;> first | exact hschema _ | exact hserver _ | cases hmark
  have hheader : s.parsingHeader = true := by
    cases s <;> first | rfl | cases hmark
  unfold settleByte iteration
  rw [if_pos (by exact hheader), hturn]
  exact congrArg (fun marked => (urlChar (q.placed s h i) b).settle L b 1 0 marked u) hmark

/-- A byte of a request target. -/
theorem settleByte_url (hmark : resumedMark s = some .url) (hgo : parseUrlChar s b ≠ .dead) :
    settleByte L (q.placed s h i, u) b =
      some (.goes (q.placed (parseUrlChar s b) h i, L.data .url [b] u)) :=
  (settleByte_urlChar hmark fun hb => hgo (parseUrlChar_blank hb)).trans (urlChar_settle hgo)

theorem settleAll_url (hmark : resumedMark s = some .url)
    (hends : (l.foldl parseUrlChar s).endsTarget = true) :
    settleAll L (q.placed s h i, u) l =
      some (q.placed (l.foldl parseUrlChar s) h i, L.data .url l u) := by
  induction l generalizing s u with
  | nil =>
      rw [L.data_nil]
      rfl
  | cons b l ih =>
      have hgo : parseUrlChar s b ≠ .dead := by
        intro hdead
        rw [List.foldl_cons, hdead, parseUrlChar_dead] at hends
        cases hends
      rw [settleAll_cons (settleByte_url hmark hgo),
        ih ((parseUrlChar_mark s b).resolve_left hgo) hends, ← L.data_append]
      rfl

/-- A target that is not whole is refused at the blank after it. -/
theorem settleByte_url_blank (hmark : resumedMark s = some .url) (hends : s.endsTarget = false)
    (hb : b = ' '.toUInt8 ∨ b = CR ∨ b = LF) :
    settleByte L (q.placed s h i, u) b =
      some (.stops ((q.placed s h i).setErrno .invalidUrl, u) false) := by
  have hs : s = .reqSchema ∨ s = .reqSchemaSlash ∨ s = .reqSchemaSlashSlash ∨
      s = .reqServerStart := by
    cases s <;> simp_all [resumedMark, State.endsTarget]
  rcases hs with rfl | rfl | rfl | rfl <;> rcases hb with rfl | rfl | rfl <;> rfl

/-- Any other target is refused, at the byte that does not belong to one or at its end. -/
theorem refuses_url (hmark : resumedMark s = some .url)
    (hblank : ∀ b ∈ l, ¬ (b = ' '.toUInt8 ∨ b = CR ∨ b = LF))
    (hends : (l.foldl parseUrlChar s).endsTarget = false)
    (hb : b = ' '.toUInt8 ∨ b = CR ∨ b = LF) :
    Refuses L .invalidUrl (q.placed s h i, u) (l ++ [b]) := by
  induction l generalizing s u with
  | nil => exact .here (settleByte_url_blank hmark hends hb) rfl
  | cons c l ih =>
      obtain ⟨hc, hblank⟩ := List.forall_mem_cons.mp hblank
      rcases parseUrlChar_mark s c with hdead | hnext
      · exact .here ((settleByte_urlChar hmark hc).trans (urlChar_settle_dead hdead)) rfl
      · have hgo : parseUrlChar s c ≠ .dead := by
          intro hdead
          rw [hdead] at hnext
          cases hnext
        exact .later (settleByte_url hmark hgo) (ih hnext hblank hends)

/-- The first byte of a target. -/
theorem settleByte_target (hmethod : q.method ≠ .connect) (hspace : b ≠ ' '.toUInt8) :
    settleByte L (q.placed .reqSpacesBeforeUrl h i, u) b =
      (urlChar (q.placed .reqSpacesBeforeUrl h i) b).settle L b 1 0 (some .url) u := by
  change Reaction.settle L b
    (.count _ 1 (reqSpacesBeforeUrl (q.placed .reqSpacesBeforeUrl h i) b)) 0 0 none u = _
  rw [reqSpacesBeforeUrl, if_neg hspace, if_neg (by exact hmethod)]
  rfl

theorem refuses_target (hmethod : q.method ≠ .connect) (hne : target ≠ [])
    (hblank : ∀ b ∈ target, ¬ (b = ' '.toUInt8 ∨ b = CR ∨ b = LF)) (hbad : ¬ IsTarget target)
    (hb : b = ' '.toUInt8 ∨ b = CR ∨ b = LF) :
    Refuses L .invalidUrl (q.placed .reqSpacesBeforeUrl h i, u) (target ++ [b]) := by
  cases target with
  | nil => exact absurd rfl hne
  | cons c target =>
      obtain ⟨hc, hblank⟩ := List.forall_mem_cons.mp hblank
      have hfirst := settleByte_target (L := L) (h := h) (i := i) (u := u) hmethod
        fun hspace => hc (Or.inl hspace)
      rcases parseUrlChar_mark .reqSpacesBeforeUrl c with hdead | hnext
      · exact .here (hfirst.trans (urlChar_settle_dead hdead)) rfl
      · have hgo : parseUrlChar .reqSpacesBeforeUrl c ≠ .dead := by
          intro hdead
          rw [hdead] at hnext
          cases hnext
        exact .later (hfirst.trans (urlChar_settle hgo))
          (refuses_url hnext hblank (Bool.eq_false_iff.mpr hbad) hb)

/-- The request target is told as it is. -/
theorem settleAll_target (hmethod : q.method ≠ .connect) (htarget : IsTarget target) :
    settleAll L (q.placed .reqSpacesBeforeUrl h i, u) target =
      some (q.placed (target.foldl parseUrlChar .reqSpacesBeforeUrl) h i,
        L.data .url target u) := by
  cases target with
  | nil => cases htarget
  | cons b target =>
      have hgo : parseUrlChar .reqSpacesBeforeUrl b ≠ .dead := by
        intro hdead
        rw [IsTarget, List.foldl_cons, hdead, parseUrlChar_dead] at htarget
        cases htarget
      have hspace : b ≠ ' '.toUInt8 := fun hb => hgo (parseUrlChar_blank (Or.inl hb))
      have hfirst : settleByte L (q.placed .reqSpacesBeforeUrl h i, u) b =
          some (.goes (q.placed (parseUrlChar .reqSpacesBeforeUrl b) h i, L.data .url [b] u)) :=
        (settleByte_target hmethod hspace).trans (urlChar_settle hgo)
      rw [settleAll_cons hfirst, settleAll_url
        ((parseUrlChar_mark .reqSpacesBeforeUrl b).resolve_left hgo) htarget, ← L.data_append]
      rfl

theorem settleAll_version (hends : s.endsTarget = true) :
    settleAll L (q.placed s h i, u) (ascii " HTTP/1.1\r\n") =
      some (({ q with httpMajor := 1, httpMinor := 1 } : Registers).placed .headerFieldStart h i,
        u) := by
  have hspace : settleByte L (q.placed s h i, u) ' '.toUInt8 =
      some (.goes (q.placed .reqHttpStart h i, L.data .url [] u)) := by
    cases s <;> first | rfl | cases hends
  rw [L.data_nil] at hspace
  exact settleAll_cons hspace

/-- A request line as it is sent. -/
def requestLine (method : HttpMethod) (target : List UInt8) : List UInt8 :=
  methodString method ++ ascii " " ++ target ++ ascii " HTTP/1.1\r\n"

/-- What comes of a request line does not depend on what was before it. -/
theorem settleAll_requestLine (hq : q.Requesting) {method : HttpMethod}
    (hmethod : method ≠ .connect) (htarget : IsTarget target) :
    ∃ j, settleAll L (q.placed .startReq h i, u) (requestLine method target) =
      some ((Registers.line method).placed .headerFieldStart h j,
        L.data .url target (L.messageBegin u)) := by
  obtain ⟨htype, hstatus⟩ := hq
  refine ⟨(methodString method).length + 1, ?_⟩
  unfold requestLine
  rw [List.append_assoc, settleAll_append (settleAll_method method), settleAll_append
    (settleAll_target (by exact hmethod) htarget), settleAll_version htarget]
  have hline : ({ q.begun method with httpMajor := 1, httpMinor := 1 } : Registers).placed
      .headerFieldStart h ((methodString method).length + 1) =
      (Registers.line method).placed .headerFieldStart h ((methodString method).length + 1) := by
    unfold Registers.placed Registers.begun Registers.line
    rw [htype, hstatus]
  rw [hline]

end Line

end Http2Asio.Http1
