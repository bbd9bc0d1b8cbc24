import Http2Asio.Http1.Quiet

/-!
# Field names

The parser acts on five field names.  It finds them byte by byte, with one state for each
beginning of one of them; `Spells` says what each of these states knows of the name read so
far.  A whole name ends in the state of the word that it spells, in any case of its letters,
and in none of these states if it spells none (`Spells.meaning_eq`).

The proof follows the tree of the names.  Four of them begin with different letters or differ
in the fourth one, so the states `c`, `co` and `con` stand for beginnings that are shared and
the others for one name each; `knownNames_next` and `going_con` say where the tree branches.
`headerFieldChar_spells` is the step: the state knows the beginning that was read, and the
next byte makes it the state of a longer beginning, of the whole name, or of none.  From there
on it is an induction over the bytes of the name.
-/

namespace Http2Asio.Http1

open Feeding Registers

/-! ## Matching a word -/

section Words

variable {α : Type*} {w word other : List α} {c : α}

/-- A beginning of a word that is not all of it. -/
theorem exists_of_prefix (hw : w <+: word) (hlt : w.length < word.length) :
    ∃ d rest, word = w ++ d :: rest := by
  obtain ⟨tail, rfl⟩ := hw
  cases tail with
  | nil => simp at hlt
  | cons d rest => exact ⟨d, rest, rfl⟩

theorem not_prefix_snoc (h : ¬ w <+: word) : ¬ w ++ [c] <+: word :=
  fun hsnoc => h ((List.prefix_append w [c]).trans hsnoc)

theorem snoc_prefix_next (h : w ++ [c] <+: word) : w <+: word ∧ word[w.length]? = some c := by
  obtain ⟨tail, rfl⟩ := h
  exact ⟨⟨[c] ++ tail, by simp⟩, by simp⟩

theorem snoc_prefix_length (h : w ++ [c] <+: word) : w.length < word.length := by
  have hle := h.length_le
  rw [List.length_append] at hle
  exact hle

end Words

/-- What comes of a word after one more byte. -/
theorem matchWord_prefix {w word : List UInt8} {going found other : HeaderState} {c : UInt8}
    (hw : w <+: word) (hlt : w.length < word.length) :
    matchWord word going found other w.length c =
      if w ++ [c] = word then found else if w ++ [c] <+: word then going else other := by
  obtain ⟨d, rest, rfl⟩ := exists_of_prefix hw hlt
  have hd : (w ++ d :: rest).getD w.length 0 = d := by simp
  unfold matchWord
  rw [hd]
  by_cases hc : c = d
  · subst hc
    rw [if_neg (by simp)]
    cases rest with
    | nil => simp
    | cons d' rest => simp
  · rw [if_pos (Or.inr hc), if_neg (by simp [hc]), if_neg (by simp [hc])]

/-! ## The five names -/

/-- A field name that means something to the parser, in lower case, with the state in which it
is matched and the state that it ends in. -/
structure KnownName where
  word : List UInt8
  matching : HeaderState
  found : HeaderState
  deriving DecidableEq

def knownNames : List KnownName :=
  [⟨ascii "connection", .matchingConnection, .connection⟩,
    ⟨ascii "proxy-connection", .matchingProxyConnection, .connection⟩,
    ⟨ascii "content-length", .matchingContentLength, .contentLength⟩,
    ⟨ascii "transfer-encoding", .matchingTransferEncoding, .transferEncoding⟩,
    ⟨ascii "upgrade", .matchingUpgrade, .upgrade⟩]

/-- What the state at the end of a name means for the value. -/
def HeaderState.meaning : HeaderState → HeaderState
  | .connection => .connection
  | .contentLength => .contentLength
  | .transferEncoding => .transferEncoding
  | .upgrade => .upgrade
  | _ => .general

/-- What a name in lower case means. -/
def wordMeaning (word : List UInt8) : HeaderState :=
  match knownNames.find? (·.word = word) with
  | some k => k.found
  | none => .general

/-- What a name means, in any case of its letters. -/
def fieldMeaning (name : List UInt8) : HeaderState :=
  wordMeaning (name.map token)

variable {k k' : KnownName} {w : List UInt8} {q : Registers} {b : UInt8} {h : HeaderState} {i : ℕ}

/-- What a state in the middle of a name knows of the name so far: a beginning of one of the
five names, or of none. -/
inductive Spells (w : List UInt8) (i : ℕ) (h : HeaderState) : Prop
  | general (state : h = .general) (none_of : ∀ k ∈ knownNames, ¬ w <+: k.word)
  | c (state : h = .c) (index : i = 0) (spelled : w = ascii "c")
  | co (state : h = .co) (index : i = 1) (spelled : w = ascii "co")
  | con (state : h = .con) (index : i = 2) (spelled : w = ascii "con")
  | going {k : KnownName} (mem : k ∈ knownNames) (state : h = k.matching)
      (index : i + 1 = w.length) (begun : w <+: k.word) (more : w.length < k.word.length)
      (only : ∀ k' ∈ knownNames, w <+: k'.word → k' = k)
  | found {k : KnownName} (mem : k ∈ knownNames) (state : h = k.found) (spelled : w = k.word)
      (only : ∀ k' ∈ knownNames, w <+: k'.word → k' = k)

theorem knownNames_length (hk : k ∈ knownNames) : k.word.length < 0x100 := by
  have hall : ∀ k ∈ knownNames, k.word.length < 0x100 := by decide
  exact hall k hk

theorem meaning_matching (hk : k ∈ knownNames) : k.matching.meaning = .general := by
  have hall : ∀ k ∈ knownNames, k.matching.meaning = .general := by decide
  exact hall k hk

theorem meaning_found (hk : k ∈ knownNames) : k.found.meaning = k.found := by
  have hall : ∀ k ∈ knownNames, k.found.meaning = k.found := by decide
  exact hall k hk

theorem wordMeaning_of_mem (hk : k ∈ knownNames) : wordMeaning k.word = k.found := by
  have hall : ∀ k ∈ knownNames, wordMeaning k.word = k.found := by decide
  exact hall k hk

theorem wordMeaning_of_none (h : ∀ k ∈ knownNames, k.word ≠ w) : wordMeaning w = .general := by
  have hfind : knownNames.find? (·.word = w) = none := by
    rw [List.find?_eq_none]
    exact fun k hk => by simpa using h k hk
  rw [wordMeaning, hfind]

/-- A name ends in the state of what it means. -/
theorem Spells.meaning_eq (hspells : Spells w i h) : h.meaning = wordMeaning w := by
  cases hspells with
  | general state none_of =>
      rw [state, wordMeaning_of_none fun k hk hw => none_of k hk (hw ▸ List.prefix_rfl)]
      rfl
  | c state index spelled | co state index spelled | con state index spelled =>
      rw [state, spelled]
      decide
  | going mem state index begun more only =>
      rw [state, meaning_matching mem, wordMeaning_of_none]
      rintro k' hk' rfl
      have hsame := only k' hk' List.prefix_rfl
      rw [hsame] at more
      exact Nat.lt_irrefl _ more
  | found mem state spelled only =>
      rw [state, meaning_found mem, spelled, wordMeaning_of_mem mem]

theorem Spells.inField (hspells : Spells w i h) : h.inField = true := by
  have hall : ∀ k ∈ knownNames, k.matching.inField = true ∧ k.found.inField = true := by decide
  cases hspells with
  | general state _ | c state _ _ | co state _ _ | con state _ _ =>
      rw [state]
      rfl
  | going mem state _ _ _ _ =>
      rw [state]
      exact (hall _ mem).1
  | found mem state _ _ =>
      rw [state]
      exact (hall _ mem).2

/-! ## One byte of a name -/

theorem headerFieldChar_matching (hk : k ∈ knownNames) (hs : q.headerState = k.matching) :
    headerFieldChar q b =
      some { q with
        index := (q.index + 1) % 0x100
        headerState :=
          matchWord k.word k.matching k.found .general ((q.index + 1) % 0x100) (token b) } := by
  simp only [knownNames, List.mem_cons, List.not_mem_nil, or_false] at hk
  rcases hk with rfl | rfl | rfl | rfl | rfl <;> simp [headerFieldChar, hs]

theorem headerFieldChar_found (hk : k ∈ knownNames) (hs : q.headerState = k.found)
    (hb : b ≠ ' '.toUInt8) : headerFieldChar q b = some { q with headerState := .general } := by
  simp only [knownNames, List.mem_cons, List.not_mem_nil, or_false] at hk
  rcases hk with rfl | rfl | rfl | rfl | rfl <;> simp [headerFieldChar, hs, hb]

/-- What follows `c`, `co` and `con` in the names that begin so. -/
theorem knownNames_next {t : UInt8} (hk : k ∈ knownNames) (h : w ++ [t] <+: k.word) :
    (w = ascii "c" → t = 'o'.toUInt8) ∧ (w = ascii "co" → t = 'n'.toUInt8) ∧
      (w = ascii "con" → t = 'n'.toUInt8 ∨ t = 't'.toUInt8) := by
  have hall : ∀ k ∈ knownNames,
      (ascii "c" <+: k.word → k.word[1]? = some 'o'.toUInt8) ∧
        (ascii "co" <+: k.word → k.word[2]? = some 'n'.toUInt8) ∧
          (ascii "con" <+: k.word →
            k.word[3]? = some 'n'.toUInt8 ∨ k.word[3]? = some 't'.toUInt8) := by
    decide
  obtain ⟨hbegun, hnext⟩ := snoc_prefix_next h
  obtain ⟨hc, hco, hcon⟩ := hall k hk
  refine ⟨?_, ?_, ?_⟩ <;> rintro rfl
  · exact Option.some.inj (hnext.symm.trans (hc hbegun))
  · exact Option.some.inj (hnext.symm.trans (hco hbegun))
  · exact (hcon hbegun).imp (fun h => Option.some.inj (hnext.symm.trans h))
      fun h => Option.some.inj (hnext.symm.trans h)

/-- After four letters it is known which name it can be. -/
theorem going_con {t : UInt8} (hk : k ∈ knownNames) (ht : ascii "con" ++ [t] <+: k.word)
    (hlen : 4 < k.word.length)
    (honly : ∀ k' ∈ knownNames, ascii "con" ++ [t] <+: k'.word → k' = k) :
    Spells (ascii "con" ++ [t]) 3 k.matching :=
  .going hk rfl rfl ht hlen honly

theorem headerFieldChar_spells (hspells : Spells w q.index q.headerState) (hb : token b ≠ 0) :
    ∃ s j, headerFieldChar q b = some { q with headerState := s, index := j } ∧
      Spells (w ++ [token b]) j s := by
  cases hspells with
  | general state none_of =>
      have hchar : headerFieldChar q b = some q := by
        rw [headerFieldChar, state]
      exact ⟨q.headerState, q.index, hchar,
        .general state fun k hk => not_prefix_snoc (none_of k hk)⟩
  | c state index spelled =>
      refine ⟨_, _, by rw [headerFieldChar, state], ?_⟩
      subst spelled
      split_ifs with ho
      · exact .co rfl (by rw [index]) (by rw [ho]; rfl)
      · exact .general rfl fun k hk h => ho ((knownNames_next hk h).1 rfl)
  | co state index spelled =>
      refine ⟨_, _, by rw [headerFieldChar, state], ?_⟩
      subst spelled
      split_ifs with hn
      · exact .con rfl (by rw [index]) (by rw [hn]; rfl)
      · exact .general rfl fun k hk h => hn ((knownNames_next hk h).2.1 rfl)
  | con state index spelled =>
      refine ⟨_, _, by rw [headerFieldChar, state], ?_⟩
      subst spelled
      rw [index]
      -- the fourth letter tells `connection` from `content-length`
      split_ifs with hn ht
      · rw [hn]
        exact going_con (k := ⟨ascii "connection", .matchingConnection, .connection⟩)
          (by decide) (by decide) (by decide) (by decide)
      · rw [ht]
        exact going_con (k := ⟨ascii "content-length", .matchingContentLength, .contentLength⟩)
          (by decide) (by decide) (by decide) (by decide)
      · exact .general rfl fun k hk h => ((knownNames_next hk h).2.2 rfl).elim hn ht
  | @going k mem state index begun more only =>
      have hindex : (q.index + 1) % 0x100 = w.length := by
        have hlt := knownNames_length mem
        omega
      refine ⟨_, _, headerFieldChar_matching mem state, ?_⟩
      rw [hindex, matchWord_prefix begun more]
      have honly : ∀ k' ∈ knownNames, w ++ [token b] <+: k'.word → k' = k :=
        fun k' hk' h => only k' hk' ((List.prefix_append w _).trans h)
      split_ifs with hword hbegins
      · exact .found mem rfl hword honly
      · refine .going mem rfl (by simp) hbegins ?_ honly
        exact lt_of_le_of_ne hbegins.length_le fun h => hword (hbegins.eq_of_length h)
      · exact .general rfl fun k' hk' h => hbegins (honly k' hk' h ▸ h)
  | @found k mem state spelled only =>
      have hspace : b ≠ ' '.toUInt8 := by
        rintro rfl
        exact hb (by decide)
      -- no name begins with another one
      refine ⟨_, _, headerFieldChar_found mem state hspace, ?_⟩
      refine .general rfl fun k' hk' h => ?_
      have hlt := snoc_prefix_length h
      rw [only k' hk' ((List.prefix_append w _).trans h), spelled] at hlt
      exact Nat.lt_irrefl _ hlt

theorem headerFieldStart_spells (hb : token b ≠ 0) :
    ∃ s, headerFieldStart q b =
        .mark .headerField (.next { q with index := 0, state := .headerField, headerState := s }) ∧
      Spells [token b] 0 s := by
  have hcr : b ≠ CR := by
    rintro rfl
    exact hb (by decide)
  have hlf : b ≠ LF := by
    rintro rfl
    exact hb (by decide)
  refine ⟨_, by rw [headerFieldStart, if_neg hcr, if_neg hlf, if_neg hb], ?_⟩
  generalize token b = t
  -- the first letter tells the names apart, but for two of them
  split_ifs with hc hp ht hu
  · exact .c rfl rfl (by rw [hc]; rfl)
  · subst hp
    exact .going (k := ⟨ascii "proxy-connection", .matchingProxyConnection, .connection⟩)
      (by decide) rfl rfl (by decide) (by decide) (by decide)
  · subst ht
    exact .going (k := ⟨ascii "transfer-encoding", .matchingTransferEncoding, .transferEncoding⟩)
      (by decide) rfl rfl (by decide) (by decide) (by decide)
  · subst hu
    exact .going (k := ⟨ascii "upgrade", .matchingUpgrade, .upgrade⟩)
      (by decide) rfl rfl (by decide) (by decide) (by decide)
  · refine .general rfl fun k hk h => ?_
    have hall : ∀ k ∈ knownNames,
        k.word.head? = some 'c'.toUInt8 ∨ k.word.head? = some 'p'.toUInt8 ∨
          k.word.head? = some 't'.toUInt8 ∨ k.word.head? = some 'u'.toUInt8 := by
      decide
    obtain ⟨tail, htail⟩ := h
    have hhead := hall k hk
    rw [← htail] at hhead
    simp only [List.cons_append, List.head?_cons, Option.some.injEq] at hhead
    rcases hhead with h | h | h | h
    exacts [hc h, hp h, ht h, hu h]

/-! ## A whole name -/

section Settle

variable {σ : Type} {L : Listener σ} {u : σ} {l name : List UInt8}

theorem settleByte_headerField {s : HeaderState} {j : ℕ} (hb : token b ≠ 0)
    (hchar : headerFieldChar (q.placed .headerField h i) b = some (q.placed .headerField s j)) :
    settleByte L (q.placed .headerField h i, u) b =
      some (.goes (q.placed .headerField s j, L.data .headerField [b] u)) := by
  change Reaction.settle L b (.count _ 1 (headerField (q.placed .headerField h i) b [])) 0 0
    (some .headerField) u = _
  rw [headerField, headerFieldLoop, if_neg hb, hchar]
  rfl

theorem settleAll_headerField (hspells : Spells w i h) (htoken : ∀ b ∈ l, token b ≠ 0) :
    ∃ s j, Spells (w ++ l.map token) j s ∧
      settleAll L (q.placed .headerField h i, u) l =
        some (q.placed .headerField s j, L.data .headerField l u) := by
  induction l generalizing w h i u with
  | nil => exact ⟨h, i, by simpa using hspells, by rw [L.data_nil]; rfl⟩
  | cons b l ih =>
      obtain ⟨hb, hl⟩ := List.forall_mem_cons.mp htoken
      obtain ⟨s, j, hchar, hspells'⟩ :=
        headerFieldChar_spells (q := q.placed .headerField h i) hspells hb
      obtain ⟨s', j', hend, hsettle⟩ := ih (u := L.data .headerField [b] u) hspells' hl
      refine ⟨s', j', by simpa using hend, ?_⟩
      rw [settleAll_cons (settleByte_headerField hb hchar), hsettle, ← L.data_append]
      rfl

theorem settleByte_colon :
    settleByte L (q.placed .headerField h i, u) ':'.toUInt8 =
      some (.goes (q.placed .headerValueDiscardWs h i, u)) := by
  have hend : settleByte L (q.placed .headerField h i, u) ':'.toUInt8 =
      some (.goes (q.placed .headerValueDiscardWs h i, L.data .headerField [] u)) := rfl
  rw [hend, L.data_nil]

theorem settleByte_headerField_error (hb : token b = 0) (hcolon : b ≠ ':'.toUInt8) :
    settleByte L (q.placed .headerField h i, u) b =
      some (.stops ((q.placed .headerField h i).setErrno .invalidHeaderToken, u) false) := by
  change Reaction.settle L b (.count _ 1 (headerField (q.placed .headerField h i) b [])) 0 0
    (some .headerField) u = _
  rw [headerField, headerFieldLoop, if_pos hb]
  change Reaction.settle L b (.count _ 1 (.move 0 (.count _ 0 (if b = ':'.toUInt8 then _ else _))))
    0 0 (some .headerField) u = _
  rw [if_neg hcolon]
  rfl

/-- The letters of a name, up to the byte after it. -/
theorem settleAll_token (hne : name ≠ []) (htoken : ∀ b ∈ name, token b ≠ 0) :
    ∃ s j, Spells (name.map token) j s ∧
      settleAll L (q.placed .headerFieldStart h i, u) name =
        some (q.placed .headerField s j, L.data .headerField name u) := by
  cases name with
  | nil => exact absurd rfl hne
  | cons b l =>
      obtain ⟨hb, hl⟩ := List.forall_mem_cons.mp htoken
      obtain ⟨s, hstart, hspells⟩ :=
        headerFieldStart_spells (q := q.placed .headerFieldStart h i) hb
      have hfirst : settleByte L (q.placed .headerFieldStart h i, u) b =
          some (.goes (q.placed .headerField s 0, L.data .headerField [b] u)) := by
        change Reaction.settle L b
          (.count _ 1 (headerFieldStart (q.placed .headerFieldStart h i) b)) 0 0 none u = _
        rw [hstart]
        rfl
      obtain ⟨s', j', hend, hsettle⟩ :=
        settleAll_headerField (L := L) (q := q) (u := L.data .headerField [b] u) hspells hl
      refine ⟨s', j', hend, ?_⟩
      rw [settleAll_cons hfirst, hsettle, ← L.data_append]
      rfl

/-- A field name is told as it is, and is one of the five in any case of its letters. -/
theorem settleAll_name (hne : name ≠ []) (htoken : ∀ b ∈ name, token b ≠ 0) :
    ∃ s j, (s.inField = true ∧ s.meaning = fieldMeaning name) ∧
      settleAll L (q.placed .headerFieldStart h i, u) (name ++ ascii ":") =
        some (q.placed .headerValueDiscardWs s j, L.data .headerField name u) := by
  obtain ⟨s, j, hend, hsettle⟩ :=
    settleAll_token (L := L) (q := q) (u := u) (h := h) (i := i) hne htoken
  refine ⟨s, j, ⟨hend.inField, hend.meaning_eq⟩, ?_⟩
  rw [settleAll_append hsettle]
  exact settleAll_cons settleByte_colon

/-- Between a name and its colon nothing may stand. -/
theorem refuses_name (hne : name ≠ []) (htoken : ∀ b ∈ name, token b ≠ 0) (hb : token b = 0)
    (hcolon : b ≠ ':'.toUInt8) :
    Refuses L .invalidHeaderToken (q.placed .headerFieldStart h i, u) (name ++ [b]) := by
  obtain ⟨s, j, -, hsettle⟩ :=
    settleAll_token (L := L) (q := q) (u := u) (h := h) (i := i) hne htoken
  exact Refuses.after hsettle (.here (settleByte_headerField_error hb hcolon) rfl)

end Settle

end Http2Asio.Http1
