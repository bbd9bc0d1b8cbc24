import Http2Asio.Http1.Plain

/-!
# The loops inside a state

Five states of the source read more than one byte at a time.  Each of their loops comes to
the same as the plain parser on the bytes that it passes (`Collects`):
`collects_headerField`, `collects_headerValue`, `collects_bodyIdentity`,
`collects_bodyIdentityEof` and `collects_chunkData`.

The loop of `s_header_value` may also run past an end of line, when the first
`HTTP_MAX_HEADER_SIZE` bytes hold none; then it passes more bytes than the limit on the
header allows.
-/

namespace Http2Asio.Http1

open Feeding Registers

section Scans

variable {σ : Type} {S : HttpParserSettings σ} {act : DataCb → List UInt8 → σ → σ}
  {q q' : Registers} {u : σ} {b : UInt8} {l : List UInt8} {k : DataCb}

/-- In the state `s` the plain parser passes the bytes `l` of a field of the kind `k`, and goes
from the registers `q` to `q'`. -/
inductive Collects (S : HttpParserSettings σ) (act : DataCb → List UInt8 → σ → σ) (k : DataCb)
    (s : State) : Registers → List UInt8 → Registers → Prop
  | nil {q : Registers} (state : q.state = s) : Collects S act k s q [] q
  | cons {q q₁ q' : Registers} {b : UInt8} {l : List UInt8} (state : q.state = s)
      (step : ∀ u, plainStep S (q, u) b = .goes (q₁, act k [b] u))
      (rest : Collects S act k s q₁ l q') : Collects S act k s q (b :: l) q'

theorem Collects.feed (hS : Incremental S act) {s : State} (h : Collects S act k s q l q') :
    (plainParser S).feed (q, u) l = ⟨(q', act k l u), l.length, false⟩ := by
  induction h generalizing u with
  | nil state =>
      rw [hS.nil]
      rfl
  | @cons q q₁ q' b l state step rest ih =>
      rw [Feeder.feed_cons_goes (step u), ih, ← hS.append k [b] l u]
      rfl

theorem Collects.state_eq {s : State} (h : Collects S act k s q l q') : q'.state = s := by
  induction h with
  | nil state => exact state
  | cons state step rest ih => exact ih

theorem Collects.take {s : State} (h : Collects S act k s q l q') (n : ℕ) :
    ∃ q', Collects S act k s q (l.take n) q' := by
  induction h generalizing n with
  | nil state => exact ⟨_, by rw [List.take_nil]; exact .nil state⟩
  | @cons q q₁ q' b l state step rest ih =>
      cases n with
      | zero => exact ⟨q, .nil state⟩
      | succ n =>
          obtain ⟨q₂, hrest⟩ := ih n
          exact ⟨q₂, .cons state step hrest⟩

/-! ## Field names -/

/-- The byte at which the loop of a field name stops does not belong to the name. -/
theorem token_of_stop (h : l[(l.takeWhile (token · ≠ 0)).length]? = some b) : token b = 0 := by
  induction l with
  | nil => exact absurd h nofun
  | cons b' l ih =>
      by_cases hb : token b' = 0
      · simp [hb] at h
        exact h ▸ hb
      · simp [hb] at h ih
        exact ih h

theorem headerFieldLoop_takeWhile :
    headerFieldLoop q (l.takeWhile (token · ≠ 0)) = headerFieldLoop q l := by
  induction l generalizing q with
  | nil => rfl
  | cons b l ih =>
      by_cases hb : token b = 0
      · simp [headerFieldLoop, hb]
      · rw [List.takeWhile_cons_of_pos (by simpa using hb), headerFieldLoop, headerFieldLoop,
          if_neg hb, if_neg hb]
        exact Option.bind_congr fun q _ => by rw [ih]

theorem collects_headerField (hS : Incremental S act) (hstate : q.state = .headerField)
    (herrno : q.httpErrno = .ok) (hfield : q.headerState.inField = true)
    (htoken : ∀ b ∈ l, token b ≠ 0) (hloop : headerFieldLoop q l = some (q', l.length)) :
    Collects S act .headerField .headerField q l q' := by
  induction l generalizing q with
  | nil =>
      cases hloop
      exact .nil hstate
  | cons b l ih =>
      have hb : token b ≠ 0 := htoken b List.mem_cons_self
      obtain ⟨s, i, hchar, hs⟩ := headerFieldChar_inField b hfield
      rw [headerFieldLoop, if_neg hb, hchar, Option.bind_some] at hloop
      obtain ⟨⟨q'', n⟩, hrest, hpair⟩ := Option.map_eq_some_iff.mp hloop
      cases hpair
      exact .cons hstate (fun u => plainStep_headerField hS hstate hb hchar herrno)
        (ih hstate herrno hs (fun b hb => htoken b (List.mem_cons_of_mem _ hb)) hrest)

/-! ## Field values -/

theorem memchr_some {ch : UInt8} {limit n : ℕ} (h : memchr l ch limit = some n) :
    l[n]? = some ch ∧ ∀ j < n, l[j]? ≠ some ch := by
  obtain ⟨hn, hat, hbefore⟩ := List.findIdx?_eq_some_iff_getElem.mp h
  rw [List.length_take] at hn
  have htake : ∀ j < limit, (l.take limit)[j]? = l[j]? := fun j hj => List.getElem?_take_of_lt hj
  refine ⟨?_, fun j hj hch => ?_⟩
  · rw [← htake n (by omega), List.getElem?_eq_getElem (by rw [List.length_take]; exact hn)]
    exact congrArg some (of_decide_eq_true hat)
  · have hlt : j < (l.take limit).length := by
      rw [List.length_take]
      omega
    rw [← htake j (by omega), List.getElem?_eq_getElem hlt] at hch
    exact hbefore j hj (decide_eq_true (Option.some.inj hch))

theorem memchr_none {ch : UInt8} {limit : ℕ} (h : memchr l ch limit = none) :
    ∀ j < limit, l[j]? ≠ some ch := by
  intro j hj hch
  rw [memchr, List.findIdx?_eq_none_iff] at h
  have hmem : ch ∈ l.take limit := by
    rw [List.mem_iff_getElem?]
    exact ⟨j, by rw [List.getElem?_take_of_lt hj, hch]⟩
  exact absurd (h ch hmem) (by simp)

/-- What `h_general` passes: nothing of it ends the line, and what comes after it does. -/
theorem generalRun_spec :
    (httpMaxHeaderSize < generalRun l ∧
      ∀ j < httpMaxHeaderSize, l[j]? ≠ some CR ∧ l[j]? ≠ some LF) ∨
      (∀ j < generalRun l, l[j]? ≠ some CR ∧ l[j]? ≠ some LF) ∧
        ∀ b, l[generalRun l]? = some b → b = CR ∨ b = LF := by
  unfold generalRun
  dsimp only
  cases hcr : memchr l CR (min l.length httpMaxHeaderSize) with
  | none =>
      have hcr := memchr_none hcr
      cases hlf : memchr l LF (min l.length httpMaxHeaderSize) with
      | none =>
          have hlf := memchr_none hlf
          -- the source takes the whole buffer for the value, though it looked no further
          dsimp only
          by_cases hlong : httpMaxHeaderSize < l.length
          · exact Or.inl ⟨hlong, fun j hj => ⟨hcr j (by omega), hlf j (by omega)⟩⟩
          · refine Or.inr ⟨fun j hj => ⟨hcr j (by omega), hlf j (by omega)⟩, fun b hb => ?_⟩
            rw [List.getElem?_eq_none (Nat.le_refl _)] at hb
            exact absurd hb nofun
      | some lf =>
          have hlt := memchr_le hlf
          have hlf := memchr_some hlf
          exact Or.inr ⟨fun j hj => ⟨hcr j (by dsimp only at hj; omega), hlf.2 j hj⟩,
            fun b hb => Or.inr (Option.some.inj (hb.symm.trans hlf.1))⟩
  | some cr =>
      have hltcr := memchr_le hcr
      have hcr := memchr_some hcr
      cases hlf : memchr l LF (min l.length httpMaxHeaderSize) with
      | none =>
          have hlf := memchr_none hlf
          exact Or.inr ⟨fun j hj => ⟨hcr.2 j hj, hlf j (by dsimp only at hj; omega)⟩,
            fun b hb => Or.inl (Option.some.inj (hb.symm.trans hcr.1))⟩
      | some lf =>
          have hlf := memchr_some hlf
          dsimp only
          split
          next hle =>
            exact Or.inr ⟨fun j hj => ⟨hcr.2 j (by omega), hlf.2 j hj⟩,
              fun b hb => Or.inr (Option.some.inj (hb.symm.trans hlf.1))⟩
          next hle =>
            exact Or.inr ⟨fun j hj => ⟨hcr.2 j hj, hlf.2 j (by omega)⟩,
              fun b hb => Or.inl (Option.some.inj (hb.symm.trans hcr.1))⟩

theorem collects_general (hS : Incremental S act) (hstate : q.state = .headerValue)
    (herrno : q.httpErrno = .ok) (hgeneral : q.headerState = .general)
    (hl : ∀ b ∈ l, b ≠ CR ∧ b ≠ LF) : Collects S act .headerValue .headerValue q l q := by
  induction l with
  | nil => exact .nil hstate
  | cons b l ih =>
      obtain ⟨hcr, hlf⟩ := hl b List.mem_cons_self
      refine .cons hstate (fun u => ?_) (ih fun b hb => hl b (List.mem_cons_of_mem _ hb))
      rw [plainStep_headerValue hS hstate hcr hlf (Or.inl ⟨hgeneral, rfl, rfl⟩) herrno,
        ← hgeneral]

theorem collects_take_general (hS : Incremental S act) (hstate : q.state = .headerValue)
    (herrno : q.httpErrno = .ok) (hgeneral : q.headerState = .general) {n : ℕ}
    (hn : ∀ j < n, l[j]? ≠ some CR ∧ l[j]? ≠ some LF) :
    Collects S act .headerValue .headerValue q (l.take n) q := by
  refine collects_general hS hstate herrno hgeneral fun b hb => ?_
  obtain ⟨j, hj, rfl⟩ := List.mem_take_iff_getElem.mp hb
  have hat := hn j (by omega)
  rw [List.getElem?_eq_getElem (by omega)] at hat
  exact ⟨fun h => hat.1 (congrArg some h), fun h => hat.2 (congrArg some h)⟩

/-- The end of a line stops the loop of a field value as it stops `h_general`. -/
theorem headerValueLoop_stop {h : HeaderState} {n : ℕ} (hat : l[n]? = some b)
    (hb : b = CR ∨ b = LF) :
    headerValueLoop q h [b] = ⟨q, h, 0, valueStop (l.drop n)⟩ := by
  obtain ⟨hlt, rfl⟩ := List.getElem?_eq_some_iff.mp hat
  have hdrop : l.drop n = l[n] :: l.drop (n + 1) := List.drop_eq_getElem_cons hlt
  rw [hdrop, headerValueLoop, valueStop]
  rcases hb with hb | hb
  · rw [if_pos hb, if_pos hb]
  · have hne : l[n] ≠ CR := by
      rw [hb]
      decide
    rw [if_neg hne, if_pos hb, if_neg hne]

/-- `h_state` stands for `parser->header_state` in the loop, which does not read it. -/
theorem headerValueChar_going {h h' s : HeaderState}
    (hchar : headerValueChar q h b = .going q' h') :
    headerValueChar { q with headerState := s } h b =
      .going { q' with headerState := s } h' := by
  unfold headerValueChar at hchar ⊢
  dsimp only at hchar ⊢
  cases h <;> dsimp only [setValueFlag] at hchar ⊢ <;> (try split_ifs at hchar ⊢) <;>
    cases hchar <;> rfl

theorem headerValueChar_error {h s : HeaderState} (hchar : headerValueChar q h b = .error) :
    headerValueChar { q with headerState := s } h b = .error := by
  unfold headerValueChar at hchar ⊢
  dsimp only at hchar ⊢
  cases h <;> dsimp only at hchar ⊢ <;> (try split_ifs at hchar ⊢) <;> cases hchar <;> rfl

/-- The registers that the loop of `s_header_value` leaves. -/
def ValueScan.after (scan : ValueScan) : Registers :=
  { scan.registers with headerState := scan.hState }

theorem valueStop_ne_error : valueStop l ≠ .error := by
  cases l with
  | nil => simp [valueStop]
  | cons b l =>
      rw [valueStop]
      split <;> simp

/-- The loop comes to the same as the plain parser, and what stops it stops the plain parser;
or it passes more bytes than a header may have, and so many of them belong to the value. -/
theorem collects_headerValue (hS : Incremental S act) {h : HeaderState} (hh : h.inValue = true)
    (hstate : q.state = .headerValue) (herrno : q.httpErrno = .ok) {scan : ValueScan}
    (hscan : headerValueLoop q h l = scan) :
    (httpMaxHeaderSize < scan.passed ∧ scan.stop ≠ .error ∧
      ∃ q', Collects S act .headerValue .headerValue { q with headerState := h }
        (l.take httpMaxHeaderSize) q') ∨
      Collects S act .headerValue .headerValue { q with headerState := h } (l.take scan.passed)
          scan.after ∧
        ∀ b, l[scan.passed]? = some b →
          headerValueLoop scan.after scan.after.headerState [b] =
            ⟨scan.after, scan.after.headerState, 0, scan.stop⟩ := by
  subst hscan
  induction l generalizing q h with
  | nil => exact Or.inr ⟨.nil hstate, fun b hb => absurd hb nofun⟩
  | cons b l ih =>
      rw [headerValueLoop]
      -- the two bytes that end the value end it alone as well
      by_cases hcr : b = CR
      · rw [if_pos hcr]
        refine Or.inr ⟨.nil hstate, fun b' hb' => ?_⟩
        obtain rfl : b = b' := Option.some.inj hb'
        rw [headerValueLoop, if_pos hcr]
      by_cases hlf : b = LF
      · rw [if_neg hcr, if_pos hlf]
        refine Or.inr ⟨.nil hstate, fun b' hb' => ?_⟩
        obtain rfl : b = b' := Option.some.inj hb'
        rw [headerValueLoop, if_neg hcr, if_pos hlf]
      rw [if_neg hcr, if_neg hlf]
      by_cases hgeneral : h = .general
      · -- `h_general` passes the rest of the line at once
        rw [if_pos hgeneral]
        subst hgeneral
        have hcollects : ∀ n, (∀ j < n, (b :: l)[j]? ≠ some CR ∧ (b :: l)[j]? ≠ some LF) →
            Collects S act .headerValue .headerValue { q with headerState := .general }
              ((b :: l).take n) { q with headerState := .general } := fun n hn =>
          collects_take_general (q := { q with headerState := .general }) hS hstate herrno rfl hn
        rcases generalRun_spec (l := b :: l) with ⟨hlong, hbefore⟩ | ⟨hpassed, hstop⟩
        · exact Or.inl ⟨hlong, valueStop_ne_error, _, hcollects _ hbefore⟩
        · exact Or.inr ⟨hcollects _ hpassed, fun b' hb' => headerValueLoop_stop hb' (hstop b' hb')⟩
      · rw [if_neg hgeneral]
        -- in any other state the value is read byte by byte, and so is the induction
        rcases headerValueChar_keeps q b hh with herror | ⟨q', h', hgo, hkeeps, hh'⟩
        · rw [herror]
          refine Or.inr ⟨.nil hstate, fun b' hb' => ?_⟩
          obtain rfl : b = b' := Option.some.inj hb'
          rw [headerValueLoop, if_neg hcr, if_neg hlf]
          change (if h = .general then _ else _) = _
          rw [if_neg hgeneral]
          simp only [ValueScan.after, headerValueChar_error herror]
        · rw [hgo]
          have hstep : ∀ u, plainStep S ({ q with headerState := h }, u) b =
              .goes ({ q' with headerState := h' }, act .headerValue [b] u) := by
            intro u
            have hfirst := plainStep_headerValue (q := { q with headerState := h })
              (u := u) hS hstate hcr hlf (Or.inr ⟨hgeneral, headerValueChar_going hgo⟩)
              (hkeeps.errno.trans herrno)
            exact hfirst
          dsimp only
          rcases ih (q := q') hh' (hkeeps.state.trans hstate) (hkeeps.errno.trans herrno) with
            ⟨hlong, hstop, q₁, hrest⟩ | ⟨hrest, hstop⟩
          · refine Or.inl ⟨Nat.lt_succ_of_lt hlong, hstop, ?_⟩
            have hall : Collects S act .headerValue .headerValue { q with headerState := h }
                (b :: l.take httpMaxHeaderSize) q₁ := .cons hstate hstep hrest
            obtain ⟨q₂, htake⟩ := hall.take httpMaxHeaderSize
            rw [List.take_cons (by decide), List.take_take] at htake
            rw [List.take_cons (by decide)]
            exact ⟨q₂, htake⟩
          · refine Or.inr ⟨?_, hstop⟩
            rw [List.take_succ_cons]
            exact .cons hstate hstep hrest

/-! ## Bodies -/

theorem collects_bodyIdentity (hS : Incremental S act) (hstate : q.state = .bodyIdentity)
    (herrno : q.httpErrno = .ok) (hle : q.contentLength < ullongMax)
    (hl : l.length < q.contentLength) :
    Collects S act .body .bodyIdentity q l
      { q with contentLength := q.contentLength - l.length } := by
  induction l generalizing q with
  | nil => exact .nil hstate
  | cons b l ih =>
      rw [List.length_cons] at hl
      have hrest := ih (q := { q with contentLength := q.contentLength - 1 }) hstate herrno
        (by dsimp only; omega) (by dsimp only; omega)
      rw [List.length_cons, Nat.add_comm, Nat.sub_add_eq]
      exact .cons hstate
        (fun u => plainStep_bodyIdentity hS hstate (by omega) (Nat.ne_of_lt hle) herrno) hrest

theorem collects_bodyIdentityEof (hS : Incremental S act) (hstate : q.state = .bodyIdentityEof)
    (herrno : q.httpErrno = .ok) : Collects S act .body .bodyIdentityEof q l q := by
  induction l with
  | nil => exact .nil hstate
  | cons b l ih => exact .cons hstate (fun _ => plainStep_bodyIdentityEof hS hstate herrno) ih

theorem collects_chunkData (hS : Incremental S act) (hstate : q.state = .chunkData)
    (herrno : q.httpErrno = .ok) (hchunked : q.flags.chunked = true)
    (hle : q.contentLength < ullongMax) (hl : l.length < q.contentLength) :
    Collects S act .body .chunkData q l
      { q with contentLength := q.contentLength - l.length } := by
  induction l generalizing q with
  | nil => exact .nil hstate
  | cons b l ih =>
      rw [List.length_cons] at hl
      have hmore : q.contentLength ≠ 1 := by omega
      have hrest := ih (q := { q with contentLength := q.contentLength - 1 }) hstate herrno hchunked
        (by dsimp only; omega) (by dsimp only; omega)
      rw [List.length_cons, Nat.add_comm, Nat.sub_add_eq]
      refine .cons hstate (fun u => ?_) hrest
      rw [plainStep_chunkData hS hstate hchunked (by omega) (Nat.ne_of_lt hle) herrno,
        if_neg hmore, ← hstate]

end Scans

end Http2Asio.Http1
