import Http2Asio.Http1.FieldNames

/-!
# Field values

What the parser makes of a value depends on the name before it.  After a name that means
nothing, a value is told as it is (`settleAll_value`).  The value of `Content-Length` is a
decimal number, in which the parser skips spaces: it is read exactly or refused, and never
wraps around (`settleAll_length`, `feed_length_refused`).

The parser knows that a value is over when the next line does not begin with a space or a
tab, so the lemmas about whole fields go as far as the first byte after the field.

`settleAll_fieldValue` is the frame that all values share: the first byte of the value, which
depends on the name, the rest of it, the end of the line, and the byte after it.  What is left
for each kind of value is how it begins and what the loop does inside it.

For a length, the value read so far is a number in the register, `appendDecimal` is what one
byte makes of it, and the test of the source keeps it below `lengthLimit`; so the loop either
computes the fold of the digits or stops at the byte that is no digit or too much.  What the
parser takes (`ReadsLength`) is stated without the loop, and the two lemmas exhaust it.
-/

namespace Http2Asio.Http1

open Feeding Registers

section Values

variable {σ : Type} {L : Listener σ} {S : HttpParserSettings σ} {q : Registers} {u : σ}
  {h h' : HeaderState} {i : ℕ} {b : UInt8} {l value : List UInt8}

/-- A line of text. -/
def IsText (l : List UInt8) : Prop :=
  ∀ b ∈ l, b ≠ CR ∧ b ≠ LF

instance (l : List UInt8) : Decidable (IsText l) :=
  inferInstanceAs (Decidable (∀ b ∈ l, _ ∧ _))

/-- Space and tab. -/
def isWs (b : UInt8) : Bool :=
  b = ' '.toUInt8 || b = 9

theorem isWs_eq_false : isWs b = false ↔ b ≠ ' '.toUInt8 ∧ b ≠ 9 := by
  simp [isWs]

/-! ## Inside a value -/

theorem settleByte_general (hcr : b ≠ CR) (hlf : b ≠ LF) :
    settleByte L (q.placed .headerValue .general i, u) b =
      some (.goes (q.placed .headerValue .general i, L.data .headerValue [b] u)) := by
  have hrun : generalRun [b] = 1 := by
    simp [generalRun, memchr, hcr, hlf]
  have hscan : headerValueLoop (q.placed .headerValue .general i) .general [b] =
      ⟨q.placed .headerValue .general i, .general, 1, .bufferEnd⟩ := by
    rw [headerValueLoop, if_neg hcr, if_neg hlf, if_pos rfl]
    dsimp only
    rw [hrun]
    rfl
  change Reaction.settle L b (.count _ 1 (headerValue (q.placed .headerValue .general i) b [])) 0 0
    (some .headerValue) u = _
  rw [headerValue_eq b [] hscan]
  rfl

theorem settleByte_value {q' : Registers} {i' : ℕ} (hcr : b ≠ CR) (hlf : b ≠ LF)
    (hspecial : h ≠ .general)
    (hchar : headerValueChar (q.placed .headerValue h i) h b =
      .going (q'.placed .headerValue h i') h') :
    settleByte L (q.placed .headerValue h i, u) b =
      some (.goes (q'.placed .headerValue h' i', L.data .headerValue [b] u)) := by
  have hscan : headerValueLoop (q.placed .headerValue h i) h [b] =
      ⟨q'.placed .headerValue h i', h', 1, .bufferEnd⟩ := by
    rw [headerValueLoop, if_neg hcr, if_neg hlf, if_neg hspecial, hchar]
    rfl
  change Reaction.settle L b (.count _ 1 (headerValue (q.placed .headerValue h i) b [])) 0 0
    (some .headerValue) u = _
  rw [headerValue_eq b [] hscan]
  rfl

theorem settleByte_value_error (hcr : b ≠ CR) (hlf : b ≠ LF) (hspecial : h ≠ .general)
    (hchar : headerValueChar (q.placed .headerValue h i) h b = .error) :
    settleByte L (q.placed .headerValue h i, u) b =
      some (.stops ((q.placed .headerValue h i).setErrno .invalidContentLength, u) false) := by
  have hscan : headerValueLoop (q.placed .headerValue h i) h [b] =
      ⟨q.placed .headerValue h i, h, 0, .error⟩ := by
    rw [headerValueLoop, if_neg hcr, if_neg hlf, if_neg hspecial, hchar]
  change Reaction.settle L b (.count _ 1 (headerValue (q.placed .headerValue h i) b [])) 0 0
    (some .headerValue) u = _
  rw [headerValue_eq b [] hscan]
  rfl

theorem settleAll_general (htext : IsText l) :
    settleAll L (q.placed .headerValue .general i, u) l =
      some (q.placed .headerValue .general i, L.data .headerValue l u) := by
  induction l generalizing u with
  | nil =>
      rw [L.data_nil]
      rfl
  | cons b l ih =>
      obtain ⟨⟨hcr, hlf⟩, hl⟩ := List.forall_mem_cons.mp htext
      rw [settleAll_cons (settleByte_general hcr hlf), ih hl, ← L.data_append]
      rfl

/-- The end of the line of a value. -/
theorem settleAll_valueEnd :
    settleAll L (q.placed .headerValue h i, u) (ascii "\r\n") =
      some (q.placed .headerValueLws h i, u) := by
  have hcr : settleByte L (q.placed .headerValue h i, u) CR =
      some (.goes (q.placed .headerAlmostDone h i, L.data .headerValue [] u)) := rfl
  rw [L.data_nil] at hcr
  exact settleAll_cons hcr

/-! ## Between two fields -/

/-- The line after a value that is not a continuation begins a field. -/
theorem settleByte_lws (hb : isWs b = false) :
    settleByte L (q.placed .headerValueLws h i, u) b =
      settleByte L ((setValueFlag h q).placed .headerFieldStart h i, u) b := by
  obtain ⟨hspace, htab⟩ := isWs_eq_false.mp hb
  change Reaction.settle L b (.count _ 1 (headerValueLws (q.placed .headerValueLws h i) b)) 0 0
    none u = _
  rw [headerValueLws, if_neg (not_or.mpr ⟨hspace, htab⟩)]
  cases h <;> rfl

/-- The line after an empty value. -/
theorem settleByte_discardLws (hh : h.inField = true) (hb : isWs b = false) :
    settleByte L (q.placed .headerValueDiscardLws h i, u) b =
      settleByte L (q.placed .headerFieldStart h i, u) b := by
  obtain ⟨hspace, htab⟩ := isWs_eq_false.mp hb
  have hempty : headerValueDiscardLws (q.placed .headerValueDiscardLws h i) b =
      .mark .headerValue (.data .headerValue 0 false (q.placed .headerFieldStart h i)
        (headerFieldStart (q.placed .headerFieldStart h i) b)) := by
    rw [headerValueDiscardLws, if_neg (not_or.mpr ⟨hspace, htab⟩)]
    cases h <;> first | rfl | exact absurd hh Bool.false_ne_true
  change Reaction.settle L b
    (.count _ 1 (headerValueDiscardLws (q.placed .headerValueDiscardLws h i) b)) 0 0 none u = _
  rw [hempty]
  change Reaction.settle L b (headerFieldStart (q.placed .headerFieldStart h i) b) 1 0 none
    (L.data .headerValue [] u) = _
  rw [L.data_nil]
  rfl

/-- What comes after a field. -/
theorem settleAll_lws (hb : isWs b = false) :
    settleAll L (q.placed .headerValueLws h i, u) (b :: l) =
      settleAll L ((setValueFlag h q).placed .headerFieldStart h i, u) (b :: l) := by
  rw [settleAll, settleAll, settleByte_lws hb]

theorem settleAll_discardLws (hh : h.inField = true) (hb : isWs b = false) :
    settleAll L (q.placed .headerValueDiscardLws h i, u) (b :: l) =
      settleAll L (q.placed .headerFieldStart h i, u) (b :: l) := by
  rw [settleAll, settleAll, settleByte_discardLws hh hb]

/-! ## Values of other fields -/

theorem settleByte_space :
    settleByte L (q.placed .headerValueDiscardWs h i, u) ' '.toUInt8 =
      some (.goes (q.placed .headerValueDiscardWs h i, u)) := rfl

/-- A value begins with its first byte that is not a space or a tab. -/
theorem settleByte_valueStart (hcr : b ≠ CR) (hlf : b ≠ LF) (hb : isWs b = false) {r : Reaction}
    (hstart : headerValueStart (q.placed .headerValueDiscardWs h i) b = r) :
    settleByte L (q.placed .headerValueDiscardWs h i, u) b = r.settle L b 1 0 none u := by
  obtain ⟨hspace, htab⟩ := isWs_eq_false.mp hb
  change Reaction.settle L b
    (.count _ 1 (headerValueDiscardWs (q.placed .headerValueDiscardWs h i) b)) 0 0 none u = _
  rw [headerValueDiscardWs, if_neg (not_or.mpr ⟨hspace, htab⟩), if_neg hcr, if_neg hlf, hstart]
  rfl

/-- An empty value has no effect after any name. -/
theorem settleAll_empty (hh : h.inField = true) (hb : isWs b = false) :
    settleAll L (q.placed .headerValueDiscardWs h i, u) (ascii " \r\n" ++ b :: l) =
      settleAll L (q.placed .headerFieldStart h i, u) (b :: l) := by
  have hend : settleAll L (q.placed .headerValueDiscardWs h i, u) (ascii " \r\n") =
      some (q.placed .headerValueDiscardLws h i, u) := rfl
  rw [settleAll_append hend, settleAll_discardLws hh hb]

/-- A field from its value on: the first byte of the value, the rest of it, the end of the line,
and the byte after it that shows that the value is over. -/
theorem settleAll_fieldValue {q₁ q₂ : Registers} {h₁ h₂ : HeaderState} {i₁ i₂ : ℕ} {b' : UInt8}
    (hbegins : settleByte L (q.placed .headerValueDiscardWs h i, u) b' =
      some (.goes (q₁.placed .headerValue h₁ i₁, L.data .headerValue [b'] u)))
    (hrest : settleAll L (q₁.placed .headerValue h₁ i₁, L.data .headerValue [b'] u) value =
      some (q₂.placed .headerValue h₂ i₂,
        L.data .headerValue value (L.data .headerValue [b'] u)))
    (hb : isWs b = false) :
    settleAll L (q.placed .headerValueDiscardWs h i, u)
        (ascii " " ++ b' :: value ++ ascii "\r\n" ++ b :: l) =
      settleAll L ((setValueFlag h₂ q₂).placed .headerFieldStart h₂ i₂,
        L.data .headerValue (b' :: value) u) (b :: l) := by
  rw [List.append_assoc, List.append_assoc]
  calc settleAll L (q.placed .headerValueDiscardWs h i, u)
        (ascii " " ++ (b' :: value ++ (ascii "\r\n" ++ b :: l)))
      = settleAll L (q.placed .headerValueDiscardWs h i, u)
          (b' :: (value ++ (ascii "\r\n" ++ b :: l))) := settleAll_cons settleByte_space
    _ = settleAll L (q₁.placed .headerValue h₁ i₁, L.data .headerValue [b'] u)
          (value ++ (ascii "\r\n" ++ b :: l)) := settleAll_cons hbegins
    _ = settleAll L (q₂.placed .headerValue h₂ i₂,
          L.data .headerValue value (L.data .headerValue [b'] u)) (ascii "\r\n" ++ b :: l) :=
        settleAll_append hrest
    _ = settleAll L (q₂.placed .headerValueLws h₂ i₂,
          L.data .headerValue value (L.data .headerValue [b'] u)) (b :: l) :=
        settleAll_append settleAll_valueEnd
    _ = settleAll L ((setValueFlag h₂ q₂).placed .headerFieldStart h₂ i₂,
          L.data .headerValue (b' :: value) u) (b :: l) := by
        rw [settleAll_lws hb, ← L.data_append]
        rfl

/-- A value that is told as it is. -/
theorem settleAll_generalValue {q₁ : Registers} {b' : UInt8}
    (hstart : headerValueStart (q.placed .headerValueDiscardWs h i) b' =
      .mark .headerValue (.next (q₁.placed .headerValue .general 0)))
    (htext : IsText (b' :: value)) (hb' : isWs b' = false) (hb : isWs b = false) :
    settleAll L (q.placed .headerValueDiscardWs h i, u)
        (ascii " " ++ b' :: value ++ ascii "\r\n" ++ b :: l) =
      settleAll L (q₁.placed .headerFieldStart .general 0, L.data .headerValue (b' :: value) u)
        (b :: l) := by
  obtain ⟨⟨hcr, hlf⟩, htext⟩ := List.forall_mem_cons.mp htext
  exact settleAll_fieldValue (settleByte_valueStart hcr hlf hb' hstart)
    (settleAll_general htext) hb

/-- The value of a field that means nothing to the parser is told as it is. -/
theorem settleAll_value (hh : h.inField = true) (hmeaning : h.meaning = .general)
    (htext : IsText value) (hstart : ∀ b ∈ value.head?, isWs b = false) (hb : isWs b = false) :
    ∃ s j, settleAll L (q.placed .headerValueDiscardWs h i, u)
        (ascii " " ++ value ++ ascii "\r\n" ++ b :: l) =
      settleAll L (q.placed .headerFieldStart s j, L.data .headerValue value u) (b :: l) := by
  cases value with
  | nil =>
      refine ⟨h, i, ?_⟩
      rw [L.data_nil]
      exact settleAll_empty hh hb
  | cons b' value =>
      refine ⟨.general, 0, settleAll_generalValue ?_ htext (hstart b' rfl) hb⟩
      unfold headerValueStart
      cases h <;> first | rfl | exact absurd hh Bool.false_ne_true | cases hmeaning

/-- The registers with the flag of the field `Upgrade`. -/
def Registers.setUpgrade (q : Registers) : Registers :=
  { q with flags := { q.flags with upgrade := true } }

/-- Any value of `Upgrade` asks for a change of the protocol. -/
theorem settleAll_upgrade (htext : IsText value) (hne : value ≠ [])
    (hstart : ∀ b ∈ value.head?, isWs b = false) (hb : isWs b = false) :
    settleAll L (q.placed .headerValueDiscardWs .upgrade i, u)
        (ascii " " ++ value ++ ascii "\r\n" ++ b :: l) =
      settleAll L (q.setUpgrade.placed .headerFieldStart .general 0, L.data .headerValue value u)
        (b :: l) := by
  cases value with
  | nil => exact absurd rfl hne
  | cons b' value => exact settleAll_generalValue rfl htext (hstart b' rfl) hb

/-! ## `Content-Length` -/

/-- The number so far, after one more byte of the value. -/
def appendDecimal (n : ℕ) (b : UInt8) : ℕ :=
  if b = ' '.toUInt8 then n else n * 10 + digit b

/-- The number in a value; spaces do not count. -/
def lengthValue (value : List UInt8) : ℕ :=
  value.foldl appendDecimal 0

/-- The largest length that the parser takes. -/
def lengthLimit : ℕ :=
  (ullongMax - 10) / 10 * 10 + 9

/-- Digits and spaces. -/
def IsNumeral (l : List UInt8) : Prop :=
  ∀ b ∈ l, isNum b = true ∨ b = ' '.toUInt8

instance (l : List UInt8) : Decidable (IsNumeral l) :=
  inferInstanceAs (Decidable (∀ b ∈ l, _ ∨ _))

variable {n : ℕ}

theorem le_appendDecimal : n ≤ appendDecimal n b := by
  unfold appendDecimal
  split
  · exact Nat.le_refl n
  · omega

theorem le_foldl_appendDecimal : n ≤ l.foldl appendDecimal n := by
  induction l generalizing n with
  | nil => exact Nat.le_refl n
  | cons b l ih => exact le_appendDecimal.trans ih

/-- The registers with `n` in `content_length`. -/
def Registers.setLength (q : Registers) (n : ℕ) : Registers :=
  { q with contentLength := n }

/-- One byte of the value: the number goes on, or the value is refused. -/
theorem headerValueChar_length (hn : n ≤ lengthLimit) :
    headerValueChar ((q.setLength n).placed .headerValue .contentLength i) .contentLength b =
      if (isNum b = true ∨ b = ' '.toUInt8) ∧ appendDecimal n b ≤ lengthLimit then
        .going ((q.setLength (appendDecimal n b)).placed .headerValue .contentLength i)
          .contentLength
      else .error := by
  have hlimit : lengthLimit = 18446744073709551609 := rfl
  have hmax : (ullongMax - 10) / 10 = 1844674407370955160 := rfl
  change (if b = ' '.toUInt8 then _ else if !isNum b then _ else
    if (ullongMax - 10) / 10 < n then _ else
      ValueStep.going ((q.setLength ((n * 10 + digit b) % 0x10000000000000000)).placed .headerValue
        .contentLength i) .contentLength) = _
  by_cases hspace : b = ' '.toUInt8
  · rw [if_pos hspace, if_pos ⟨Or.inr hspace, by rw [appendDecimal, if_pos hspace]; exact hn⟩,
      appendDecimal, if_pos hspace]
  by_cases hnum : isNum b = true
  · -- up to `(ULLONG_MAX - 10) / 10` one more digit does not wrap around
    have hdigit := digit_le hnum
    rw [if_neg hspace, if_neg (by simp [hnum]), appendDecimal, if_neg hspace]
    by_cases hbig : (ullongMax - 10) / 10 < n
    · rw [if_pos hbig, if_neg (by omega)]
    · have hsmall : (n * 10 + digit b) % 0x10000000000000000 = n * 10 + digit b := by omega
      rw [if_neg hbig, if_pos ⟨Or.inl hnum, by omega⟩, hsmall]
  · rw [if_neg hspace, if_pos (by simp [hnum]), if_neg (by simp [hnum, hspace])]

theorem settleAll_length_going (htext : IsText l) (hl : IsNumeral l)
    (hn : l.foldl appendDecimal n ≤ lengthLimit) :
    settleAll L ((q.setLength n).placed .headerValue .contentLength i, u) l =
      some ((q.setLength (l.foldl appendDecimal n)).placed .headerValue .contentLength i,
        L.data .headerValue l u) := by
  induction l generalizing n u with
  | nil =>
      rw [L.data_nil]
      rfl
  | cons b l ih =>
      obtain ⟨⟨hcr, hlf⟩, htext⟩ := List.forall_mem_cons.mp htext
      obtain ⟨hb, hl⟩ := List.forall_mem_cons.mp hl
      have hnext : appendDecimal n b ≤ lengthLimit := le_foldl_appendDecimal.trans hn
      have hchar := headerValueChar_length (q := q) (i := i) (b := b)
        (le_appendDecimal.trans hnext)
      rw [if_pos ⟨hb, hnext⟩] at hchar
      rw [settleAll_cons (settleByte_value hcr hlf (by decide) hchar), ih htext hl hn,
        ← L.data_append]
      rfl

theorem refuses_length_going (htext : IsText l) (hn : n ≤ lengthLimit)
    (hl : ¬ (IsNumeral l ∧ l.foldl appendDecimal n ≤ lengthLimit)) :
    Refuses L .invalidContentLength
      ((q.setLength n).placed .headerValue .contentLength i, u) l := by
  induction l generalizing n u with
  | nil => exact absurd ⟨List.forall_mem_nil _, hn⟩ hl
  | cons b l ih =>
      obtain ⟨⟨hcr, hlf⟩, htext⟩ := List.forall_mem_cons.mp htext
      have hchar := headerValueChar_length (q := q) (i := i) (b := b) hn
      by_cases hb : (isNum b = true ∨ b = ' '.toUInt8) ∧ appendDecimal n b ≤ lengthLimit
      · rw [if_pos hb] at hchar
        refine .later (settleByte_value hcr hlf (by decide) hchar) (ih htext hb.2 ?_)
        exact fun hrest => hl ⟨List.forall_mem_cons.mpr ⟨hb.1, hrest.1⟩, hrest.2⟩
      · rw [if_neg hb] at hchar
        exact .here (settleByte_value_error hcr hlf (by decide) hchar) rfl

/-- What the parser takes for the value of `Content-Length`. -/
structure ReadsLength (value : List UInt8) : Prop where
  first : ∃ b ∈ value.head?, isNum b = true
  numeral : IsNumeral value
  le_limit : lengthValue value ≤ lengthLimit

theorem settleByte_lengthStart (hcr : b ≠ CR) (hlf : b ≠ LF) (hb : isWs b = false) :
    settleByte L (q.placed .headerValueDiscardWs .contentLength i, u) b =
      some (if isNum b = true then
        .goes ((q.setLength (digit b)).placed .headerValue .contentLength 0,
          L.data .headerValue [b] u)
      else .stops
        ((q.placed .headerValue .contentLength 0).setErrno .invalidContentLength, u) false) := by
  rw [settleByte_valueStart hcr hlf hb rfl]
  change Reaction.settle L b (.mark .headerValue (if !isNum b then _ else _)) 1 0 none u = _
  cases isNum b <;> rfl

theorem isWs_of_isNum (hb : isNum b = true) : isWs b = false := by
  rw [isWs_eq_false]
  constructor <;> rintro rfl <;> exact absurd hb (by decide)

theorem appendDecimal_zero (hb : isNum b = true) : appendDecimal 0 b = digit b := by
  have hspace : b ≠ ' '.toUInt8 := by
    rintro rfl
    exact absurd hb (by decide)
  rw [appendDecimal, if_neg hspace]
  omega

/-- A length that the parser takes is read exactly. -/
theorem settleAll_length (htext : IsText value) (hreads : ReadsLength value)
    (hb : isWs b = false) :
    settleAll L (q.placed .headerValueDiscardWs .contentLength i, u)
        (ascii " " ++ value ++ ascii "\r\n" ++ b :: l) =
      settleAll L ((q.setLength (lengthValue value)).placed .headerFieldStart .contentLength 0,
        L.data .headerValue value u) (b :: l) := by
  obtain ⟨b', hfirst, hnum⟩ := hreads.first
  obtain ⟨value, rfl⟩ : ∃ rest, value = b' :: rest := by
    cases value with
    | nil => cases hfirst
    | cons b'' rest => exact ⟨rest, by cases hfirst; rfl⟩
  obtain ⟨⟨hcr, hlf⟩, htext⟩ := List.forall_mem_cons.mp htext
  have hbegins := settleByte_lengthStart (L := L) (q := q) (u := u) (i := i) hcr hlf
    (isWs_of_isNum hnum)
  rw [if_pos hnum, ← appendDecimal_zero hnum] at hbegins
  exact settleAll_fieldValue hbegins (settleAll_length_going htext
    (List.forall_mem_cons.mp hreads.numeral).2 hreads.le_limit) hb

/-- Any other length is refused. -/
theorem refuses_length (htext : IsText value) (hstart : ∀ b ∈ value.head?, isWs b = false)
    (hne : value ≠ []) (hreads : ¬ ReadsLength value) :
    Refuses L .invalidContentLength (q.placed .headerValueDiscardWs .contentLength i, u)
      (ascii " " ++ value) := by
  refine .later settleByte_space ?_
  cases value with
  | nil => exact absurd rfl hne
  | cons b value =>
      obtain ⟨⟨hcr, hlf⟩, htext⟩ := List.forall_mem_cons.mp htext
      have hbegins := settleByte_lengthStart (L := L) (q := q) (u := u) (i := i) hcr hlf
        (hstart b rfl)
      by_cases hnum : isNum b = true
      · rw [if_pos hnum] at hbegins
        have hdigit := digit_le hnum
        refine .later hbegins (refuses_length_going htext ?_ fun hrest => hreads ?_)
        · exact hdigit.trans (by decide)
        · refine ⟨⟨b, rfl, hnum⟩, List.forall_mem_cons.mpr ⟨Or.inl hnum, hrest.1⟩, ?_⟩
          rw [lengthValue, List.foldl_cons, appendDecimal_zero hnum]
          exact hrest.2
      · rw [if_neg hnum] at hbegins
        exact .here hbegins rfl

end Values

end Http2Asio.Http1
