import Http2Asio.Http1.ValueWords

/-!
# Header fields

A `Field` is a line `name: value` as a peer writes it.  `Field.effect` says what it does to
the registers, in terms of its name and its value and not of the bytes on the way, and
`settleAll_fields` that the parser comes to just this for any list of fields.

The meaning of a name and the value together decide the effect: a word of `Connection` or
`Transfer-Encoding`, a length, the flag of `Upgrade`, or nothing.  `IsRead` is what has to hold
of a field for this to be the whole effect: no list in a value that is looked at, and a length
that the parser takes.  A value is over only when the next line has begun, so the lemmas are
about the field and the first byte behind it, and lists of fields go by induction from the
front.
-/

namespace Http2Asio.Http1

open Feeding Registers

/-- A field name: bytes that may stand in a token. -/
def IsToken (name : List UInt8) : Prop :=
  ∀ b ∈ name, token b ≠ 0

instance (name : List UInt8) : Decidable (IsToken name) :=
  inferInstanceAs (Decidable (∀ b ∈ name, _))

/-- A header field. -/
structure Field where
  name : List UInt8
  value : List UInt8
  name_ne : name ≠ [] := by decide +kernel
  name_token : IsToken name := by decide +kernel
  value_text : IsText value := by decide +kernel
  value_start : ∀ b ∈ value.head?, isWs b = false := by decide +kernel

namespace Field

variable (f : Field)

/-- The field as it is sent. -/
def render : List UInt8 :=
  f.name ++ ascii ":" ++ ascii " " ++ f.value ++ ascii "\r\n"

/-- What the field does to the registers; without a value it does nothing. -/
def effect (q : Registers) : Registers :=
  if f.value = [] then q
  else
    match fieldMeaning f.name with
    | .contentLength => q.setLength (lengthValue f.value)
    | .transferEncoding => codings.effect f.value q
    | .connection => options.effect f.value q
    | .upgrade => q.setUpgrade
    | _ => q

/-- What the listener is told of the field. -/
def tell {σ : Type} (L : Listener σ) (u : σ) : σ :=
  L.data .headerValue f.value (L.data .headerField f.name u)

/-- A length that the parser takes, and at most one option of the connection: after a beginning
of one of its words the parser takes a comma for a part of the option. -/
structure IsRead : Prop where
  length : fieldMeaning f.name = .contentLength → f.value ≠ [] → ReadsLength f.value
  option : fieldMeaning f.name = .connection → ∀ b ∈ f.value, options.separates b = false

end Field

section Fields

variable {σ : Type} {L : Listener σ} {q : Registers} {u : σ} {h s : HeaderState} {i : ℕ} {b : UInt8}
  {l : List UInt8} {f : Field} {fields : List Field}

theorem meaning_cases (s : HeaderState) :
    s.meaning = .general ∨ s = .contentLength ∨ s = .transferEncoding ∨ s = .connection ∨
      s = .upgrade := by
  cases s <;> simp [HeaderState.meaning]

/-- A field comes to its effect. -/
theorem settleAll_field (hread : f.IsRead) (hb : isWs b = false) :
    ∃ s j, settleAll L (q.placed .headerFieldStart h i, u) (f.render ++ b :: l) =
      settleAll L ((f.effect q).placed .headerFieldStart s j, f.tell L u) (b :: l) := by
  obtain ⟨s, j, ⟨hin, hmeaning⟩, hname⟩ :=
    settleAll_name (L := L) (q := q) (u := u) (h := h) (i := i) f.name_ne f.name_token
  have hvalue : ∀ t, settleAll L (q.placed .headerValueDiscardWs s j,
        L.data .headerField f.name u) (ascii " " ++ f.value ++ ascii "\r\n" ++ b :: l) = t →
      settleAll L (q.placed .headerFieldStart h i, u) (f.render ++ b :: l) = t := by
    rintro t rfl
    unfold Field.render
    rw [List.append_assoc, List.append_assoc, List.append_assoc, settleAll_append hname]
    simp only [List.append_assoc]
  unfold Field.effect Field.tell
  by_cases hempty : f.value = []
  · refine ⟨s, j, hvalue _ ?_⟩
    rw [if_pos hempty, hempty, L.data_nil]
    exact settleAll_empty hin hb
  rw [if_neg hempty]
  -- one case for each meaning of the name
  rcases meaning_cases s with hgeneral | rfl | rfl | rfl | rfl
  · obtain ⟨s', j', hend⟩ := settleAll_value (L := L) (q := q) (i := j) (l := l)
      (u := L.data .headerField f.name u) hin hgeneral f.value_text f.value_start hb
    rw [← hmeaning, hgeneral]
    exact ⟨s', j', hvalue _ hend⟩
  · rw [← hmeaning]
    exact ⟨_, _, hvalue _ (settleAll_length f.value_text (hread.length hmeaning.symm hempty) hb)⟩
  · obtain ⟨s', j', hend⟩ := WordFamily.settleAll_word (F := codings) (L := L) (q := q) (i := j)
      (l := l) (u := L.data .headerField f.name u) f.value_text hempty f.value_start
      (fun _ _ => rfl) hb
    rw [← hmeaning]
    exact ⟨s', j', hvalue _ hend⟩
  · obtain ⟨s', j', hend⟩ := WordFamily.settleAll_word (F := options) (L := L) (q := q) (i := j)
      (l := l) (u := L.data .headerField f.name u) f.value_text hempty f.value_start
      (hread.option hmeaning.symm) hb
    rw [← hmeaning]
    exact ⟨s', j', hvalue _ hend⟩
  · rw [← hmeaning]
    exact ⟨_, _, hvalue _ (settleAll_upgrade f.value_text hempty f.value_start hb)⟩

theorem isWs_of_token (hb : token b ≠ 0) : isWs b = false := by
  rw [isWs_eq_false]
  constructor <;> rintro rfl <;> exact absurd hb (by decide)

/-- A line of the header does not begin with a space or a tab. -/
theorem Field.name_head (f : Field) : ∃ b name, f.name = b :: name ∧ isWs b = false := by
  obtain ⟨name, value, hne, htoken, -, -⟩ := f
  cases name with
  | nil => exact absurd rfl hne
  | cons b name =>
      exact ⟨b, name, rfl, isWs_of_token (htoken b List.mem_cons_self)⟩

theorem Field.render_cons {name : List UInt8} (hname : f.name = b :: name) :
    f.render = b :: (name ++ ascii ":" ++ ascii " " ++ f.value ++ ascii "\r\n") := by
  unfold Field.render
  rw [hname]
  rfl

/-- Fields come to their effects, one after the other. -/
theorem settleAll_fields (hread : ∀ f ∈ fields, f.IsRead) (hb : isWs b = false) :
    ∃ s j, settleAll L (q.placed .headerFieldStart h i, u)
        (fields.flatMap Field.render ++ b :: l) =
      settleAll L ((fields.foldl (fun q f => f.effect q) q).placed .headerFieldStart s j,
        fields.foldl (fun u f => f.tell L u) u) (b :: l) := by
  induction fields generalizing q u h i with
  | nil => exact ⟨h, i, rfl⟩
  | cons f fields ih =>
      obtain ⟨hf, hfields⟩ := List.forall_mem_cons.mp hread
      -- the byte after the field is the first one of the next field, or `b`
      obtain ⟨b', l', hrest, hb'⟩ : ∃ b' l', fields.flatMap Field.render ++ b :: l = b' :: l' ∧
          isWs b' = false := by
        cases fields with
        | nil => exact ⟨b, l, rfl, hb⟩
        | cons f' fields =>
            obtain ⟨b', name, hname, hb'⟩ := f'.name_head
            rw [List.flatMap_cons, Field.render_cons hname]
            exact ⟨b', _, rfl, hb'⟩
      obtain ⟨s, j, hfirst⟩ := settleAll_field (L := L) (q := q) (u := u) (h := h) (i := i)
        (l := l') hf hb'
      obtain ⟨s', j', hend⟩ := ih (q := f.effect q) (u := f.tell L u) (h := s) (i := j) hfields
      refine ⟨s', j', ?_⟩
      rw [List.flatMap_cons, List.append_assoc, hrest, hfirst, ← hrest, hend]
      rfl

/-- A length that the parser does not take is refused where it stands. -/
theorem refuses_field (hname : fieldMeaning f.name = .contentLength) (hne : f.value ≠ [])
    (hreads : ¬ ReadsLength f.value) :
    Refuses L .invalidContentLength (q.placed .headerFieldStart h i, u) f.render := by
  obtain ⟨s, j, ⟨hin, hmeaning⟩, hsettle⟩ :=
    settleAll_name (L := L) (q := q) (u := u) (h := h) (i := i) f.name_ne f.name_token
  rw [hname] at hmeaning
  obtain rfl : s = .contentLength := by
    rcases meaning_cases s with hgeneral | rfl | rfl | rfl | rfl
    · rw [hgeneral] at hmeaning
      cases hmeaning
    · rfl
    all_goals cases hmeaning
  unfold Field.render
  rw [List.append_assoc (f.name ++ ascii ":")]
  exact (Refuses.after hsettle
    (refuses_length f.value_text f.value_start hne hreads)).append

/-- What is refused in a line after its first byte is refused after other fields too. -/
theorem refuses_line {err : HttpErrno} (hread : ∀ f ∈ fields, f.IsRead) (hb : isWs b = false)
    (hgoes : ∀ s j, ∃ t, settleByte L ((fields.foldl (fun q f => f.effect q) q).placed
      .headerFieldStart s j, fields.foldl (fun u f => f.tell L u) u) b = some (.goes t))
    (hrefuses : ∀ s j, Refuses L err ((fields.foldl (fun q f => f.effect q) q).placed
      .headerFieldStart s j, fields.foldl (fun u f => f.tell L u) u) (b :: l)) :
    Refuses L err (q.placed .headerFieldStart h i, u) (fields.flatMap Field.render ++ b :: l) := by
  obtain ⟨s, j, hfields⟩ := settleAll_fields (L := L) (q := q) (u := u) (h := h) (i := i) (l := [])
    hread hb
  obtain ⟨t, hbyte⟩ := hgoes s j
  have hfirst : settleAll L (q.placed .headerFieldStart h i, u)
      (fields.flatMap Field.render ++ [b]) = some t :=
    hfields.trans (settleAll_cons hbyte)
  cases hrefuses s j with
  | here byte errno =>
      rw [hbyte] at byte
      cases byte
  | later byte rest =>
      obtain rfl := Reply.goes.inj (Option.some.inj (hbyte.symm.trans byte))
      rw [List.append_cons]
      exact Refuses.after hfirst rest

/-- The first byte of a name is not yet refused. -/
theorem settleByte_nameStart {name : List UInt8} (htoken : IsToken (b :: name)) :
    ∃ t, settleByte L (q.placed .headerFieldStart h i, u) b = some (.goes t) := by
  obtain ⟨s, j, -, hsettle⟩ := settleAll_token (L := L) (q := q) (u := u) (h := h) (i := i)
    (List.cons_ne_nil b name) htoken
  obtain ⟨t, hbyte, -⟩ := settleAll_cons_eq_some hsettle
  exact ⟨t, hbyte⟩

/-- A length is refused also after other fields. -/
theorem refuses_fields (hread : ∀ f ∈ fields, f.IsRead)
    (hname : fieldMeaning f.name = .contentLength) (hne : f.value ≠ [])
    (hreads : ¬ ReadsLength f.value) :
    Refuses L .invalidContentLength (q.placed .headerFieldStart h i, u)
      (fields.flatMap Field.render ++ f.render) := by
  obtain ⟨b, name, hcons, hb⟩ := f.name_head
  have htoken := f.name_token
  rw [hcons] at htoken
  rw [Field.render_cons hcons]
  refine refuses_line hread hb (fun s j => settleByte_nameStart htoken) fun s j => ?_
  rw [← Field.render_cons hcons]
  exact refuses_field hname hne hreads

/-- So is a name with something between it and its colon. -/
theorem refuses_fields_name {name : List UInt8} (hread : ∀ f ∈ fields, f.IsRead)
    (hname : IsToken name) (hne : name ≠ []) (hb : token b = 0) (hcolon : b ≠ ':'.toUInt8) :
    Refuses L .invalidHeaderToken (q.placed .headerFieldStart h i, u)
      (fields.flatMap Field.render ++ (name ++ [b])) := by
  cases name with
  | nil => exact absurd rfl hne
  | cons c name =>
      have hc : isWs c = false := isWs_of_token (hname c List.mem_cons_self)
      exact refuses_line hread hc (fun s j => settleByte_nameStart hname) fun s j =>
        refuses_name hne hname hb hcolon

end Fields

end Http2Asio.Http1
