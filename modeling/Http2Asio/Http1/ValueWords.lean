import Http2Asio.Http1.FieldValues
import Mathlib.Data.List.DropRight

/-!
# Values that are a word

The parser acts on `Transfer-Encoding: chunked` and on the options `keep-alive`, `close` and
`upgrade` of `Connection`.  Both values are matched byte by byte in the same way, which
`WordFamily` describes; `settleAll_word` says that a value without a separator counts as the
word that it spells, in any case of its letters and with any spaces after it, and as nothing
else.

`WordFamily` collects what the two names have in common: the words, the state in which each is
matched, the state at its end, the state for all other values, and the equations of
`headerValueChar` in these states.  `codings` and `options` are its two instances, and there
the equations are read off the source.  `Matches` says what a state knows of the value so far
and `settleByte_matches` is the step, by the cases of `Matches`: a beginning of a word goes on,
ends or is lost; a whole word stands as long as only spaces follow; what is no word stays none.
-/

namespace Http2Asio.Http1

open Feeding Registers

/-- A word that means something as a value, in lower case, with the state in which it is matched
and the state that it ends in. -/
structure ValueWord where
  word : List UInt8
  matching : HeaderState
  found : HeaderState
  deriving DecidableEq

/-- The words that the parser knows after one of the names, and what its loop does with a byte
in their states. -/
structure WordFamily where
  /-- The state at the end of the name. -/
  name : HeaderState
  words : List ValueWord
  /-- The state in any other value. -/
  other : HeaderState
  /-- The bytes that end a word. -/
  separates : UInt8 → Bool
  word_long : ∀ k ∈ words, 1 < k.word.length
  word_short : ∀ k ∈ words, k.word.length < 0x100
  unspaced : ∀ k ∈ words, k.word.getLast? ≠ some ' '.toUInt8
  head_inj : ∀ k ∈ words, ∀ k' ∈ words, k.word.head? = k'.word.head? → k = k'
  start : ∀ q i b, ∃ h,
    headerValueStart (Registers.placed q .headerValueDiscardWs name i) b =
        .mark .headerValue (.next (Registers.placed q .headerValue h 0)) ∧
      ((∃ k ∈ words, k.word.head? = some (lower b) ∧ h = k.matching) ∨
        (∀ k ∈ words, k.word.head? ≠ some (lower b)) ∧ h = other)
  going : ∀ k ∈ words, k.matching ≠ .general ∧ ∀ q b,
    headerValueChar q k.matching b =
      .going { q with index := (q.index + 1) % 0x100 }
        (matchWord k.word k.matching k.found other ((q.index + 1) % 0x100) (lower b))
  ended : ∀ k ∈ words, k.found ≠ .general ∧ ∀ q b, separates b = false →
    headerValueChar q k.found b = .going q (if b ≠ ' '.toUInt8 then other else k.found)
  lost : other = .general ∨ ∀ q b, separates b = false → headerValueChar q other b = .going q other
  flag_other : ∀ q, setValueFlag other q = q
  flag_matching : ∀ k ∈ words, ∀ q, setValueFlag k.matching q = q

/-- The values of `Transfer-Encoding`. -/
def codings : WordFamily where
  name := .transferEncoding
  words := [⟨ascii "chunked", .matchingTransferEncodingChunked, .transferEncodingChunked⟩]
  other := .general
  separates _ := false
  word_long := by decide
  word_short := by decide
  unspaced := by decide
  head_inj := by decide
  start q i b := by
    refine ⟨_, rfl, ?_⟩
    split_ifs with hc
    · exact Or.inl ⟨_, List.mem_singleton_self _, congrArg some hc.symm, rfl⟩
    · refine Or.inr ⟨?_, rfl⟩
      simp only [List.mem_singleton, forall_eq]
      exact fun h => hc (Option.some.inj h).symm
  going := by
    simp only [List.mem_singleton, forall_eq]
    exact ⟨by decide, fun q b => rfl⟩
  ended := by
    simp only [List.mem_singleton, forall_eq]
    exact ⟨by decide, fun q b _ => rfl⟩
  lost := Or.inl rfl
  flag_other q := rfl
  flag_matching := by
    simp only [List.mem_singleton, forall_eq]
    exact fun q => rfl

/-- The options of `Connection`. -/
def options : WordFamily where
  name := .connection
  words :=
    [⟨ascii "keep-alive", .matchingConnectionKeepAlive, .connectionKeepAlive⟩,
      ⟨ascii "close", .matchingConnectionClose, .connectionClose⟩,
      ⟨ascii "upgrade", .matchingConnectionUpgrade, .connectionUpgrade⟩]
  other := .matchingConnectionToken
  separates b := b = ','.toUInt8
  word_long := by decide
  word_short := by decide
  unspaced := by decide
  head_inj := by decide
  start q i b := by
    refine ⟨_, rfl, ?_⟩
    split_ifs with hk hc hu
    · exact Or.inl ⟨_, List.mem_cons_self, congrArg some hk.symm, rfl⟩
    · exact Or.inl ⟨_, List.mem_cons_of_mem _ List.mem_cons_self, congrArg some hc.symm, rfl⟩
    · exact Or.inl ⟨_, List.mem_cons_of_mem _ (List.mem_cons_of_mem _ List.mem_cons_self),
        congrArg some hu.symm, rfl⟩
    · refine Or.inr ⟨?_, rfl⟩
      simp only [List.forall_mem_cons]
      exact ⟨fun h => hk (Option.some.inj h).symm, fun h => hc (Option.some.inj h).symm,
        fun h => hu (Option.some.inj h).symm, List.forall_mem_nil _⟩
  going := by
    simp only [List.forall_mem_cons]
    exact ⟨⟨by decide, fun q b => rfl⟩, ⟨by decide, fun q b => rfl⟩, ⟨by decide, fun q b => rfl⟩,
      List.forall_mem_nil _⟩
  ended := by
    have hfound : ∀ q b h,
        h = .connectionKeepAlive ∨ h = .connectionClose ∨ h = .connectionUpgrade →
        decide (b = ','.toUInt8) = false →
        headerValueChar q h b =
          .going q (if b ≠ ' '.toUInt8 then .matchingConnectionToken else h) := by
      rintro q b h (rfl | rfl | rfl) hb <;> simp_all [headerValueChar]
    simp only [List.forall_mem_cons]
    exact ⟨⟨by decide, fun q b => hfound q b _ (by simp)⟩,
      ⟨by decide, fun q b => hfound q b _ (by simp)⟩,
      ⟨by decide, fun q b => hfound q b _ (by simp)⟩, List.forall_mem_nil _⟩
  lost := by
    refine Or.inr fun q b hb => ?_
    simp_all [headerValueChar]
  flag_other q := rfl
  flag_matching := by
    simp only [List.forall_mem_cons]
    exact ⟨fun q => rfl, fun q => rfl, fun q => rfl, List.forall_mem_nil _⟩

/-! ## The word that a value spells -/

/-- The value in lower case, without the spaces at its end. -/
def optionWord (value : List UInt8) : List UInt8 :=
  (value.rdropWhile (· = ' '.toUInt8)).map lower

variable {v : List UInt8} {b : UInt8}

theorem optionWord_space : optionWord (v ++ [' '.toUInt8]) = optionWord v := by
  simp [optionWord]

theorem optionWord_snoc (hb : b ≠ ' '.toUInt8) :
    optionWord (v ++ [b]) = v.map lower ++ [lower b] := by
  simp [optionWord, hb]

theorem optionWord_prefix : optionWord v <+: v.map lower :=
  List.IsPrefix.map (f := lower) ( List.rdropWhile_prefix _ _)

/-- What a state in the middle of a value knows of the value so far. -/
inductive WordFamily.Matches (F : WordFamily) (v : List UInt8) (i : ℕ) (h : HeaderState) : Prop
  | other (state : h = F.other)
      (none_of : ∀ k ∈ F.words, ¬ v.map lower <+: k.word ∧ optionWord v ≠ k.word)
  | going {k : ValueWord} (mem : k ∈ F.words) (state : h = k.matching) (index : i + 1 = v.length)
      (begun : v.map lower <+: k.word) (more : v.length < k.word.length)
  | found {k : ValueWord} (mem : k ∈ F.words) (state : h = k.found)
      (spelled : optionWord v = k.word)

section Family

variable {F : WordFamily} {k k' : ValueWord} {i : ℕ} {h : HeaderState}

namespace WordFamily

theorem word_ne (hk : k ∈ F.words) : k.word ≠ [] :=
  List.ne_nil_of_length_pos (Nat.zero_lt_of_lt (F.word_long k hk))

theorem eq_of_prefix {w : List UInt8} (hk : k ∈ F.words) (hk' : k' ∈ F.words)
    (hw : w <+: k.word) (hw' : w <+: k'.word) (hne : w ≠ []) : k = k' := by
  refine F.head_inj k hk k' hk' ?_
  cases w with
  | nil => exact absurd rfl hne
  | cons c w =>
      obtain ⟨tail, htail⟩ := hw
      obtain ⟨tail', htail'⟩ := hw'
      rw [← htail, ← htail']
      rfl

/-- A value that has left a word, or has more than it, spells no word any more. -/
theorem other_of_left (hv : v ≠ []) (hk : k ∈ F.words) (hbegun : v.map lower <+: k.word)
    (hleft : ¬ v.map lower ++ [lower b] <+: k.word) (hmore : v.length < k.word.length) {i : ℕ} :
    F.Matches (v ++ [b]) i F.other := by
  have hmap : v.map lower ≠ [] := by simpa using hv
  refine .other rfl fun k' hk' => ⟨fun h => ?_, fun h => ?_⟩
  · rw [List.map_append] at h
    obtain rfl := eq_of_prefix hk hk' hbegun ((List.prefix_append _ _).trans h) hmap
    exact hleft h
  · by_cases hb : b = ' '.toUInt8
    · -- the word would have been whole before the space
      rw [hb, optionWord_space] at h
      have hword : k'.word <+: v.map lower := h ▸ optionWord_prefix
      obtain rfl := eq_of_prefix hk hk' (hword.trans hbegun) List.prefix_rfl (word_ne hk')
      have hle := hword.length_le
      rw [List.length_map] at hle
      omega
    · rw [optionWord_snoc hb] at h
      obtain rfl := eq_of_prefix hk hk' hbegun ⟨_, h⟩ hmap
      exact hleft ⟨[], by rw [← h, List.append_nil]⟩

theorem other_of_found (hk : k ∈ F.words) (hspelled : optionWord v = k.word)
    (hb : b ≠ ' '.toUInt8) {i : ℕ} : F.Matches (v ++ [b]) i F.other := by
  have hword : k.word <+: v.map lower := hspelled ▸ optionWord_prefix
  have hlong : ∀ k' ∈ F.words, ¬ v.map lower ++ [lower b] <+: k'.word := by
    intro k' hk' h
    have hsame := eq_of_prefix hk hk' List.prefix_rfl
      (hword.trans ((List.prefix_append _ _).trans h)) (word_ne hk)
    have hle := h.length_le
    have hle' := hword.length_le
    rw [← hsame, List.length_append, List.length_singleton] at hle
    omega
  refine .other rfl fun k' hk' => ⟨?_, fun h => ?_⟩
  · rw [List.map_append]
    exact hlong k' hk'
  · rw [optionWord_snoc hb] at h
    exact hlong k' hk' (h ▸ List.prefix_rfl)

theorem other_of_other
    (hnone : ∀ k ∈ F.words, ¬ v.map lower <+: k.word ∧ optionWord v ≠ k.word) {i : ℕ} :
    F.Matches (v ++ [b]) i F.other := by
  refine .other rfl fun k hk => ⟨fun h => ?_, fun h => ?_⟩
  · rw [List.map_append] at h
    exact (hnone k hk).1 ((List.prefix_append _ _).trans h)
  · by_cases hb : b = ' '.toUInt8
    · rw [hb, optionWord_space] at h
      exact (hnone k hk).2 h
    · rw [optionWord_snoc hb] at h
      exact (hnone k hk).1 ⟨_, h⟩

/-! ## The value -/

variable {σ : Type} {L : Listener σ} {q : Registers} {u : σ} {l value : List UInt8}

theorem settleByte_matches (hm : F.Matches v i h) (hv : v ≠ []) (hcr : b ≠ CR) (hlf : b ≠ LF)
    (hsep : F.separates b = false) :
    ∃ h' i', settleByte L (q.placed .headerValue h i, u) b =
        some (.goes (q.placed .headerValue h' i', L.data .headerValue [b] u)) ∧
      F.Matches (v ++ [b]) i' h' := by
  cases hm with
  -- no word begins like this, and none will
  | other state none_of =>
      refine ⟨F.other, i, ?_, other_of_other none_of⟩
      rw [state]
      rcases F.lost with hgeneral | hstays
      · rw [hgeneral]
        exact settleByte_general hcr hlf
      · by_cases hgeneral : F.other = .general
        · rw [hgeneral]
          exact settleByte_general hcr hlf
        · exact settleByte_value hcr hlf hgeneral (hstays _ _ hsep)
  -- inside a word: the byte ends it, goes on with it, or leaves it
  | @going k mem state index begun more =>
      obtain ⟨hspecial, hchar⟩ := F.going k mem
      have hindex : (i + 1) % 0x100 = v.length := by
        have hshort := F.word_short k mem
        omega
      refine ⟨matchWord k.word k.matching k.found F.other v.length (lower b), v.length, ?_, ?_⟩
      · rw [state]
        have hstep : headerValueChar (q.placed .headerValue k.matching i) k.matching b =
            .going (q.placed .headerValue k.matching v.length)
              (matchWord k.word k.matching k.found F.other v.length (lower b)) := by
          rw [hchar, ← hindex]
          rfl
        exact settleByte_value hcr hlf hspecial hstep
      · have hlen : (v.map lower).length = v.length := List.length_map _
        rw [← hlen, matchWord_prefix begun (by rw [hlen]; exact more), hlen]
        split_ifs with hword hbegins
        · refine .found mem rfl ?_
          rw [optionWord_snoc ?_, hword]
          -- a blank cannot be the last letter of a word
          rintro rfl
          refine F.unspaced k mem ?_
          rw [← hword, List.getLast?_concat]
          rfl
        · refine .going mem rfl (by simp) (by rw [List.map_append]; exact hbegins) ?_
          refine lt_of_le_of_ne ?_ fun hsame => hword (hbegins.eq_of_length ?_)
          · simpa using hbegins.length_le
          · simpa using hsame
        · exact other_of_left hv mem begun hbegins more
  -- behind a word only blanks may follow
  | @found k mem state spelled =>
      obtain ⟨hspecial, hchar⟩ := F.ended k mem
      refine ⟨if b ≠ ' '.toUInt8 then F.other else k.found, i, ?_, ?_⟩
      · rw [state]
        exact settleByte_value hcr hlf hspecial (hchar _ _ hsep)
      · split_ifs with hb
        · exact other_of_found mem spelled hb
        · obtain rfl : b = ' '.toUInt8 := not_not.mp hb
          exact .found mem rfl (by rw [optionWord_space, spelled])

theorem settleAll_matches (hm : F.Matches v i h) (hv : v ≠ []) (htext : IsText l)
    (hsep : ∀ b ∈ l, F.separates b = false) :
    ∃ h' i', settleAll L (q.placed .headerValue h i, u) l =
        some (q.placed .headerValue h' i', L.data .headerValue l u) ∧
      F.Matches (v ++ l) i' h' := by
  induction l generalizing v h i u with
  | nil => exact ⟨h, i, by rw [L.data_nil]; rfl, by rwa [List.append_nil]⟩
  | cons b l ih =>
      obtain ⟨⟨hcr, hlf⟩, htext⟩ := List.forall_mem_cons.mp htext
      obtain ⟨hb, hsep⟩ := List.forall_mem_cons.mp hsep
      obtain ⟨h₁, i₁, hbyte, hm₁⟩ := settleByte_matches (L := L) (q := q) (u := u) hm hv hcr hlf hb
      obtain ⟨h', i', hrest, hend⟩ :=
        ih (u := L.data .headerValue [b] u) hm₁ (by simp) htext hsep
      refine ⟨h', i', ?_, by simpa using hend⟩
      rw [settleAll_cons hbyte, hrest, ← L.data_append]
      rfl

/-- What a value does to the registers. -/
def effect (F : WordFamily) (value : List UInt8) (q : Registers) : Registers :=
  match F.words.find? (·.word = optionWord value) with
  | some k => setValueFlag k.found q
  | none => q

theorem effect_of_none (h : ∀ k ∈ F.words, optionWord v ≠ k.word) : F.effect v q = q := by
  have hfind : F.words.find? (·.word = optionWord v) = none := by
    rw [List.find?_eq_none]
    exact fun k hk => by simpa using (h k hk).symm
  rw [effect, hfind]

theorem effect_of_mem (hk : k ∈ F.words) (h : optionWord v = k.word) :
    F.effect v q = setValueFlag k.found q := by
  cases hfind : F.words.find? (·.word = optionWord v) with
  | none =>
      rw [List.find?_eq_none] at hfind
      exact absurd h.symm (by simpa using hfind k hk)
  | some k' =>
      have hword : k'.word = optionWord v := by simpa using List.find?_some hfind
      have hsame := F.head_inj k' (List.mem_of_find?_eq_some hfind) k hk (by rw [hword, h])
      rw [effect, hfind, hsame]

theorem Matches.effect_eq (hm : F.Matches v i h) : setValueFlag h q = F.effect v q := by
  cases hm with
  | other state none_of => rw [state, F.flag_other, effect_of_none fun k hk => (none_of k hk).2]
  | @going k mem state index begun more =>
      rw [state, F.flag_matching k mem, effect_of_none]
      intro k' hk' hword
      have hle : k'.word <+: v.map lower := hword ▸ optionWord_prefix
      obtain rfl := eq_of_prefix hk' mem List.prefix_rfl (hle.trans begun) (word_ne hk')
      have hlen := hle.length_le
      rw [List.length_map] at hlen
      omega
  | @found k mem state spelled => rw [state, effect_of_mem mem spelled]

theorem matches_start (q : Registers) (i : ℕ) (hb : b ≠ ' '.toUInt8) :
    ∃ h, headerValueStart (q.placed .headerValueDiscardWs F.name i) b =
        .mark .headerValue (.next (q.placed .headerValue h 0)) ∧ F.Matches [b] 0 h := by
  obtain ⟨h, hstart, hcases⟩ := F.start q i b
  refine ⟨h, hstart, ?_⟩
  have hword : optionWord [b] = [lower b] := optionWord_snoc (v := []) hb
  rcases hcases with ⟨k, hk, hhead, rfl⟩ | ⟨hnone, rfl⟩
  · have hbegins : [lower b] <+: k.word := by
      cases hk' : k.word with
      | nil =>
          rw [hk'] at hhead
          cases hhead
      | cons c w =>
          rw [hk'] at hhead
          rw [← Option.some.inj hhead]
          exact ⟨w, rfl⟩
    exact .going hk rfl rfl hbegins (F.word_long k hk)
  · refine .other rfl fun k hk => ⟨fun hbegins => ?_, fun h => ?_⟩
    · obtain ⟨w, hw⟩ := hbegins
      exact hnone k hk (by rw [← hw]; rfl)
    · exact hnone k hk (by rw [← h, hword]; rfl)

/-- A value without a separator counts as the word it spells. -/
theorem settleAll_word (htext : IsText value) (hne : value ≠ [])
    (hstart : ∀ b ∈ value.head?, isWs b = false) (hsep : ∀ b ∈ value, F.separates b = false)
    (hb : isWs b = false) :
    ∃ s j, settleAll L (q.placed .headerValueDiscardWs F.name i, u)
        (ascii " " ++ value ++ ascii "\r\n" ++ b :: l) =
      settleAll L ((F.effect value q).placed .headerFieldStart s j, L.data .headerValue value u)
        (b :: l) := by
  cases value with
  | nil => exact absurd rfl hne
  | cons b' value =>
      obtain ⟨⟨hcr, hlf⟩, htext⟩ := List.forall_mem_cons.mp htext
      obtain ⟨h, hvalue, hm⟩ :=
        matches_start (F := F) (b := b') q i (isWs_eq_false.mp (hstart b' rfl)).1
      obtain ⟨h', i', hrest, hend⟩ := settleAll_matches (L := L) (q := q)
        (u := L.data .headerValue [b'] u) hm (by simp) htext (List.forall_mem_cons.mp hsep).2
      refine ⟨h', i', ?_⟩
      rw [settleAll_fieldValue (settleByte_valueStart hcr hlf (hstart b' rfl) hvalue) hrest hb,
        hend.effect_eq]
      rfl

end WordFamily

end Family

end Http2Asio.Http1
