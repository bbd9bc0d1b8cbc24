import Http2Asio.Http1.Quiet

/-!
# The counter over a run

The parser sets `nread` back at the end of a header, at the end of the line with the size of
a chunk and at the end of a chunk, and it does not count the bytes of a body.  `Metered`
follows a bound on the counter over the bytes of a run: two for each byte that is counted.
`Bounded` says that the bound stays within the limit, up to the end or to where the parser
stops.  Input that is `Bounded` is never refused as too long a header, whatever the cut
(`executeAll_bounded`), however long it is as a whole: a run that is `Metered` is taken whole
(`executeAll_metered`), and what stops the parser is found (`executeAll_stops`).

Two things make the argument more than a sum.  The counter is set back by some bytes, so the
bound is followed state by state: `resets` reads off the registers whether the next byte sets
it back, and `Reaction.Resets` that the reaction to it does.  And one iteration of the parser
may take many bytes: `Bounded.reads` finds the bytes that the loop of a state passes among
those that the bound was followed over, and `Bounded.fits` that there is room for them when
they are counted at once.  `iteration_bounded` then has the step: where the loop goes on, the
counter is within a bound that leads on.

A bound may lead to an error as well as to the end of the input.  So the same lemmas serve
what is accepted and what is refused (`Refuses.bounded`), and a malformed field far into a
long run of requests is found as what it is.
-/

namespace Http2Asio.Http1

open Feeding Registers

/-- The reaction sets the counter back, or stops. -/
def Reaction.Resets : Reaction → Prop
  | .fail _ | .exit _ | .abort => True
  | .next _ | .endOfBuffer _ => False
  | .resetCount rest => rest.Single
  | .count _ _ rest | .move _ rest | .assertCount _ rest | .mark _ rest => rest.Resets
  | .data _ _ _ _ rest | .notify _ _ _ rest => rest.Resets
  | .headersComplete _ rest skipping => rest.Resets ∧ skipping.Resets

namespace Registers

/-- The states that set the counter back; the empty line after a trailer does not. -/
def resets (q : Registers) : Bool :=
  match q.state with
  | .headersAlmostDone => !q.flags.trailing
  | .headersDone | .chunkSizeAlmostDone | .chunkDataDone => true
  | _ => false

/-- The bound `m` on the counter, after one more byte. -/
def meter (q : Registers) (m : ℕ) : ℕ :=
  if q.resets then 0 else m + q.perByte

end Registers

section Metered

variable {σ : Type} {S : HttpParserSettings σ} {L : Listener σ} {s t : Registers × σ}
  {q q' : Registers} {u : σ} {b : UInt8} {l l' rest data : List UInt8} {m m' n : ℕ} {c : Cursor}
  {e : Exec σ} {k : DataCb} {φ : Phase} {act : DataCb → List UInt8 → σ → σ}

/-- The bytes `l` lead from `s` to `t`, and the bound on the counter goes from `m` to `m'`
without getting over the limit. -/
inductive Metered (L : Listener σ) :
    Registers × σ → ℕ → List UInt8 → Registers × σ → ℕ → Prop
  | nil (s : Registers × σ) (m : ℕ) : Metered L s m [] s m
  | cons {s s₁ t : Registers × σ} {m m' : ℕ} {b : UInt8} {l : List UInt8}
      (byte : settleByte L s b = some (.goes s₁)) (fits : m + s.1.perByte ≤ httpMaxHeaderSize)
      (rest : Metered L s₁ (s.1.meter m) l t m') : Metered L s m (b :: l) t m'

/-- The bytes `l` are read from `s` on, and the bound on the counter, first at `m`, does not get
over the limit up to their end or to where the parser stops. -/
inductive Bounded (L : Listener σ) : Registers × σ → ℕ → List UInt8 → Prop
  | nil (s : Registers × σ) (m : ℕ) : Bounded L s m []
  | goes {s s₁ : Registers × σ} {m : ℕ} {b : UInt8} {l : List UInt8}
      (byte : settleByte L s b = some (.goes s₁)) (fits : m + s.1.perByte ≤ httpMaxHeaderSize)
      (rest : Bounded L s₁ (s.1.meter m) l) : Bounded L s m (b :: l)
  | stops {s t : Registers × σ} {m : ℕ} {b : UInt8} {l : List UInt8} {consumed : Bool}
      (byte : settleByte L s b = some (.stops t consumed))
      (fits : m + s.1.perByte ≤ httpMaxHeaderSize) : Bounded L s m (b :: l)

/-! ## Rules -/

theorem Metered.settles (h : Metered L s m l t m') : settleAll L s l = some t := by
  induction h with
  | nil => rfl
  | cons byte fits rest ih => rw [settleAll_cons byte, ih]

theorem Metered.append {s₁ : Registers × σ} {m₁ : ℕ} (h : Metered L s m l s₁ m₁)
    (h' : Metered L s₁ m₁ l' t m') : Metered L s m (l ++ l') t m' := by
  induction h with
  | nil s m => exact h'
  | cons byte fits rest ih => exact .cons byte fits (ih h')

theorem Metered.split (h : Metered L s m (l ++ l') t m') :
    ∃ s₁ m₁, Metered L s m l s₁ m₁ ∧ Metered L s₁ m₁ l' t m' := by
  induction l generalizing s m with
  | nil => exact ⟨s, m, .nil s m, h⟩
  | cons b l ih =>
      cases h with
      | cons byte fits rest =>
          obtain ⟨s₁, m₁, hfirst, hrest⟩ := ih rest
          exact ⟨s₁, m₁, .cons byte fits hfirst, hrest⟩

theorem perByte_le : q.perByte ≤ 2 := by
  unfold perByte
  split <;> omega

theorem meter_le : q.meter m ≤ m + 2 := by
  unfold meter
  have hrate := perByte_le (q := q)
  split <;> omega

/-- Bytes that are few enough. -/
theorem metered_of_settles (h : settleAll L s l = some t)
    (hfits : m + 2 * l.length ≤ httpMaxHeaderSize) :
    ∃ m' ≤ m + 2 * l.length, Metered L s m l t m' := by
  induction l generalizing s m with
  | nil =>
      cases h
      exact ⟨m, Nat.le_refl m, .nil _ m⟩
  | cons b l ih =>
      obtain ⟨s₁, hbyte, hrest⟩ := settleAll_cons_eq_some h
      rw [List.length_cons] at hfits ⊢
      have hrate := perByte_le (q := s.1)
      have hmeter := meter_le (q := s.1) (m := m)
      obtain ⟨m', hle, hmetered⟩ := ih (m := s.1.meter m) hrest (by omega)
      exact ⟨m', by omega, .cons hbyte (by omega) hmetered⟩

/-- Bytes that are few enough, up to one at which the counter is set back. -/
theorem metered_reset {s₁ : Registers × σ} (h : settleAll L s l = some s₁)
    (hbyte : settleByte L s₁ b = some (.goes t)) (hresets : s₁.1.resets = true)
    (hfits : m + 2 * (l.length + 1) ≤ httpMaxHeaderSize) : Metered L s m (l ++ [b]) t 0 := by
  obtain ⟨m₁, hle, hfirst⟩ := metered_of_settles (m := m) h (by omega)
  have hrate := perByte_le (q := s₁.1)
  have hlast : Metered L s₁ m₁ [b] t (s₁.1.meter m₁) := .cons hbyte (by omega) (.nil t _)
  rw [meter, if_pos hresets] at hlast
  exact hfirst.append hlast

theorem metered_feed (hS : Quiet S L) (h : Metered L s m l t m') :
    (plainParser S).feed s l = ⟨t, l.length, false⟩ :=
  feed_settleAll hS h.settles

theorem resets_loops (h : q.state.loops = true) : q.resets = false := by
  unfold resets
  cases hs : q.state <;> rw [hs] at h <;> first | rfl | cases h

theorem meter_of_loops (h : q.state.loops = true) : q.meter m = m + q.perByte := by
  rw [meter, if_neg (by rw [resets_loops h]; exact Bool.false_ne_true)]

theorem Metered.bounded (h : Metered L s m l t m') (hrest : Bounded L t m' l') :
    Bounded L s m (l ++ l') := by
  induction h with
  | nil s m => exact hrest
  | cons byte fits rest ih => exact .goes byte fits (ih hrest)

/-- Where the plain parser goes on, so does the meter. -/
theorem Bounded.split (hS : Quiet S L) (h : Bounded L s m (l ++ l'))
    (hfeed : (plainParser S).feed s l = ⟨t, l.length, false⟩) :
    ∃ m₁, Metered L s m l t m₁ ∧ Bounded L t m₁ l' := by
  induction l generalizing s m with
  | nil =>
      cases hfeed
      exact ⟨m, .nil _ m, h⟩
  | cons b l ih =>
      cases h with
      | @goes s s₁ m b l' byte fits rest =>
          have hstep : (plainParser S).step s b = .goes s₁ := plainStep_settleByte hS byte
          rw [Feeder.feed_cons_goes hstep] at hfeed
          obtain ⟨hstate, hcount, hstopped⟩ := Fed.mk.inj hfeed
          obtain ⟨m₁, hfirst, hrest⟩ :=
            ih rest (Fed.ext hstate (Nat.succ.inj hcount) hstopped)
          exact ⟨m₁, .cons byte fits hfirst, hrest⟩
      | @stops s t' m b l' consumed byte fits =>
          have hstep : (plainParser S).step s b = .stops t' consumed :=
            plainStep_settleByte hS byte
          -- but the whole of `l` is passed
          rw [Feeder.feed_cons_stops hstep] at hfeed
          exact absurd (Fed.mk.inj hfeed).2.2 (by decide)

/-- What stops the parser, in bytes that are few enough. -/
theorem Refuses.bounded {err : HttpErrno} (h : Refuses L err s l)
    (hfits : m + 2 * l.length ≤ httpMaxHeaderSize) : Bounded L s m (l ++ l') := by
  induction h generalizing m with
  | @here s t b l consumed byte errno =>
      have hrate := perByte_le (q := s.1)
      rw [List.length_cons] at hfits
      exact .stops byte (by omega)
  | @later s t b l byte rest ih =>
      have hrate := perByte_le (q := s.1)
      have hmeter := meter_le (q := s.1) (m := m)
      rw [List.length_cons] at hfits
      exact .goes byte (by omega) (ih (by omega))

/-- The bound over the bytes that the loop of a state passes. -/
theorem Metered.collected (hS : Quiet S L) {state : State}
    (h : Metered L (q, u) m l t m') (hcollects : Collects S L.data k state q l q')
    (hloops : state.loops = true) :
    m' = m + (if state.parsingHeader then 2 else 0) * l.length ∧
      (l ≠ [] → m' ≤ httpMaxHeaderSize) := by
  induction hcollects generalizing u m with
  | nil state =>
      cases h
      exact ⟨rfl, fun h => absurd rfl h⟩
  | @cons q q₁ q' b l hstate step rest ih =>
      cases h with
      | cons byte fits rest' =>
          obtain rfl := Reply.goes.inj ((plainStep_settleByte hS byte).symm.trans (step u))
          have hrate : q.perByte = if state.parsingHeader then 2 else 0 := by
            rw [perByte, hstate]
          have hmeter : q.meter m = m + q.perByte := meter_of_loops (hstate ▸ hloops)
          obtain ⟨hm, hle⟩ := ih rest'
          rw [hmeter, hrate] at hm
          refine ⟨?_, fun _ => ?_⟩
          · rw [hm, List.length_cons, Nat.mul_succ]
            omega
          · by_cases hl : l = []
            · subst hl
              cases rest'
              rw [hmeter]
              exact fits
            · exact hle hl

/-! ## One iteration -/

/-- The counter is at most `n` where the loop goes on. -/
def Outcome.Counted (n : ℕ) : Outcome σ → Prop
  | .looping e => e.parser.nread ≤ n
  | _ => True

theorem Reaction.Single.run_counted {r : Reaction} (h : r.Single) (hn : e.parser.nread ≤ n) :
    (r.run S data e).Counted n := by
  induction r generalizing e with
  | next q => exact hn
  | fail q | exit q | abort => trivial
  | endOfBuffer q | count q n rest ih => exact h.elim
  | resetCount rest ih => exact ih h (Nat.zero_le _)
  | assertCount n' rest ih =>
      rw [Reaction.run]
      split
      · exact ih h hn
      · trivial
  | mark k rest ih => exact ih h hn
  | move n' rest ih => exact ih h.2 hn
  | data k extra advance q rest ih =>
      exact callbackData_elim (fun _ _ _ _ => True.intro) True.intro fun u marks => ih h.2 hn
  | notify k advance q rest ih =>
      exact callbackNotify_elim (fun _ _ _ _ => True.intro) True.intro fun u => ih h hn
  | headersComplete q rest skipping ih ih' =>
      exact callbackHeadersComplete_elim (fun _ _ _ _ => True.intro) (fun u => ih h.1 hn)
        fun u => ih' h.2 hn

theorem Reaction.Resets.run_counted {r : Reaction} (h : r.Resets) :
    (r.run S data e).Counted 0 := by
  induction r generalizing e with
  | next q | endOfBuffer q => exact h.elim
  | fail q | exit q | abort => trivial
  | resetCount rest ih =>
      have hrest : rest.Single := h
      exact hrest.run_counted (e := { e with parser := { e.parser with nread := 0 } })
        (Nat.le_refl 0)
  | count q n rest ih =>
      rw [Reaction.run]
      dsimp only
      split
      · trivial
      · exact ih h
  | assertCount n rest ih =>
      rw [Reaction.run]
      split
      · exact ih h
      · trivial
  | mark k rest ih | move n rest ih => exact ih h
  | data k extra advance q rest ih =>
      exact callbackData_elim (fun _ _ _ _ => True.intro) True.intro fun u marks => ih h
  | notify k advance q rest ih =>
      exact callbackNotify_elim (fun _ _ _ _ => True.intro) True.intro fun u => ih h
  | headersComplete q rest skipping ih ih' =>
      exact callbackHeadersComplete_elim (fun _ _ _ _ => True.intro) (fun u => ih h.1)
        fun u => ih' h.2

theorem headersDone_resets : (headersDone q b).Resets := by
  have hsingle : (headersDone q b).Single := headersDone_single
  unfold headersDone at hsingle ⊢
  split
  next => trivial
  next hlf =>
    rw [if_neg hlf] at hsingle
    exact hsingle

theorem headersAlmostDone_resets (h : q.flags.trailing = false) :
    (headersAlmostDone q b).Resets := by
  unfold headersAlmostDone
  rw [if_neg (c := q.flags.trailing = true) (by rw [h]; exact Bool.false_ne_true)]
  split
  · trivial
  · exact ⟨headersDone_resets, headersDone_resets⟩

theorem assertChunked_resets {r : Reaction} (h : r.Resets) : (q.assertChunked r).Resets := by
  unfold assertChunked
  split
  · exact h
  · trivial

theorem iteration_resets (b : UInt8) (rest : List UInt8) (h : q.resets = true) :
    (iteration q b rest).Resets := by
  have hturn : (turn q b rest).Resets := by
    unfold resets at h
    unfold turn
    cases hs : q.state <;> rw [hs] at h
    case headersAlmostDone => exact headersAlmostDone_resets (by simpa using h)
    case headersDone => exact headersDone_resets
    case chunkSizeAlmostDone =>
      refine assertChunked_resets ?_
      split <;> trivial
    case chunkDataDone =>
      refine assertChunked_resets ?_
      split <;> trivial
    all_goals cases h
  unfold iteration
  split
  · exact hturn
  · exact hturn

theorem stretch_single (b : UInt8) (rest : List UInt8) (h : q.state.loops = false) :
    q.stretch b rest = 0 := by
  unfold stretch
  cases hs : q.state <;> rw [hs] at h <;> first | rfl | cases h

/-- The bytes that the loop of a state passes, or so many of them that the header is too long. -/
theorem stretch_collects (b : UInt8) (rest : List UInt8) (hS : Incremental S act)
    (hrests : q.Rests n φ) (hloops : q.state.loops = true) :
    (∃ k q', Collects S act k q.state q ((b :: rest).take (q.stretch b rest)) q') ∨
      q.state.parsingHeader = true ∧ httpMaxHeaderSize ≤ rest.length + 1 ∧
        ∃ k q', Collects S act k q.state q ((b :: rest).take httpMaxHeaderSize) q' := by
  have hfits := hrests.fits
  unfold FitsState at hfits
  unfold stretch
  cases hs : q.state <;> rw [hs] at hfits hloops
  case headerField =>
    obtain ⟨s, i, hloop, -⟩ := headerFieldLoop_inField (b :: rest) hfits
    have hinitial : (b :: rest).takeWhile (token · ≠ 0) <+: b :: rest :=
      List.takeWhile_prefix _
    have hcollects := collects_headerField hS hs hrests.errno hfits
      (fun b' hb' => by simpa using List.mem_takeWhile_imp hb')
      (headerFieldLoop_takeWhile.trans hloop)
    rw [List.prefix_iff_eq_take.mp hinitial] at hcollects
    exact Or.inl ⟨.headerField, _, hcollects⟩
  case headerValue =>
    rcases collects_headerValue hS hfits hs hrests.errno rfl with
      ⟨hlong, -, q', hcollects⟩ | ⟨hcollects, -⟩
    · -- the loop gave up on a value as long as the limit
      have hle := (headerValueLoop_sound (q := q) (b :: rest) hfits).passed_le
      rw [List.length_cons] at hle
      exact Or.inr ⟨rfl, by omega, .headerValue, q', hcollects⟩
    · exact Or.inl ⟨.headerValue, _, hcollects⟩
  -- in a body the stretch is what there is of it in the buffer
  case chunkData =>
    have hlt : q.contentLength < ullongMax :=
      Nat.lt_of_le_of_ne hrests.contentLength_le hfits.2.2
    refine Or.inl ⟨.body, _, collects_chunkData hS hs hrests.errno hfits.1 hlt ?_⟩
    have hpos := Nat.pos_of_ne_zero hfits.2.1
    simp only [List.length_take, List.length_cons]
    omega
  case bodyIdentity =>
    have hlt : q.contentLength < ullongMax :=
      Nat.lt_of_le_of_ne hrests.contentLength_le hfits.2
    refine Or.inl ⟨.body, _, collects_bodyIdentity hS hs hrests.errno hlt ?_⟩
    have hpos := Nat.pos_of_ne_zero hfits.1
    simp only [List.length_take, List.length_cons]
    omega
  case bodyIdentityEof =>
    exact Or.inl ⟨.body, _, collects_bodyIdentityEof hS hs hrests.errno⟩
  all_goals cases hloops

/-- There is room for the bytes that a loop passes. -/
theorem Bounded.reads (hS : Quiet S L) (h : Bounded L (q, u) m (b :: rest ++ l))
    (hrests : q.Rests n φ) (hloops : q.state.loops = true) :
    ∃ k q', Collects S L.data k q.state q ((b :: rest).take (q.stretch b rest)) q' := by
  rcases stretch_collects b rest hS.incremental hrests hloops with
    hcollects | ⟨hheader, hlong, k, q', hcollects⟩
  · exact hcollects
  · -- so many bytes at two each are more than the bound allows
    rw [← List.take_append_drop httpMaxHeaderSize (b :: rest), List.append_assoc] at h
    obtain ⟨m₁, hfirst, -⟩ := h.split hS (hcollects.feed hS.incremental)
    obtain ⟨hm, hfits⟩ := hfirst.collected hS hcollects hloops
    have hlength : ((b :: rest).take httpMaxHeaderSize).length = httpMaxHeaderSize := by
      simp only [List.length_take, List.length_cons]
      omega
    have hpos : 0 < httpMaxHeaderSize := by decide
    have hle := hfits (List.ne_nil_of_length_pos (by omega))
    rw [hm, hlength, if_pos hheader] at hle
    omega

/-- There is room for what is counted at once: the bytes that a loop passes, or one byte. -/
theorem Bounded.fits (hS : Quiet S L) (h : Bounded L (q, u) m (b :: rest ++ l))
    (hrests : q.Rests n φ) :
    m + q.perByte * max 1 (q.stretch b rest) ≤ httpMaxHeaderSize := by
  by_cases hstretch : q.stretch b rest = 0
  · rw [hstretch, Nat.max_eq_left (Nat.zero_le 1), Nat.mul_one]
    cases h with
    | goes byte fits rest' => exact fits
    | stops byte fits => exact fits
  have hloops : q.state.loops = true := by
    by_contra hsingle
    exact hstretch (stretch_single b rest (by simpa using hsingle))
  obtain ⟨k, q', hcollects⟩ := h.reads hS hrests hloops
  have hle := stretch_le b rest hrests
  rw [← List.take_append_drop (q.stretch b rest) (b :: rest), List.append_assoc] at h
  obtain ⟨m₁, hfirst, -⟩ := h.split hS (hcollects.feed hS.incremental)
  obtain ⟨hm, hfits⟩ := hfirst.collected hS hcollects hloops
  have hlength : ((b :: rest).take (q.stretch b rest)).length = q.stretch b rest := by
    simp only [List.length_take, List.length_cons]
    omega
  have hmax : max 1 (q.stretch b rest) = q.stretch b rest := by omega
  rw [hlength] at hm
  rw [hmax, perByte, ← hm]
  exact hfits (List.ne_nil_of_length_pos (by omega))

/-- The bound after the bytes of an iteration of a loop. -/
theorem Metered.after (hS : Quiet S L) (hloops : q.state.loops = true) {n j : ℕ}
    (hcollects : Collects S L.data k q.state q (l.take n) q') (hn : n ≤ l.length)
    (hj : j ≤ n + 1) (hlength : j ≤ l.length)
    (h : Metered L (q, u) m (l.take j) t m') : m' = m + q.perByte * j := by
  by_cases hle : j ≤ n
  · obtain ⟨q₁, hcollects₁⟩ := hcollects.take j
    rw [List.take_take, Nat.min_eq_left hle] at hcollects₁
    have hm := (h.collected hS hcollects₁ hloops).1
    rw [List.length_take, Nat.min_eq_left hlength] at hm
    exact hm
  · -- the byte that ends the loop is read in the state of the loop
    obtain rfl : j = n + 1 := by omega
    have hlast : l.take (n + 1) = l.take n ++ [l[n]] := List.take_succ_eq_append_getElem hlength
    rw [hlast] at h
    obtain ⟨s₁, m₁, hfirst, hbyte⟩ := h.split
    have hm := (hfirst.collected hS hcollects hloops).1
    have hstate := hcollects.state_eq
    obtain ⟨rfl, -⟩ := Fed.mk.inj ((metered_feed hS hfirst).symm.trans
      (hcollects.feed hS.incremental))
    rw [List.length_take, Nat.min_eq_left hn] at hm
    cases hbyte with
    | cons byte fits rest =>
        cases rest
        rw [meter_of_loops (by rw [hstate]; exact hloops), hm, perByte, perByte, hstate,
          Nat.mul_succ, Nat.add_assoc]

/-- The counter stays within a bound that leads on, in `later` after the buffer, and nothing is
refused as too long a header. -/
def Outcome.InBounds (L : Listener σ) (data later : List UInt8) : Outcome σ → Prop
  | .looping e =>
      ∃ m ≥ e.parser.nread,
        Bounded L (e.parser.toRegisters, flush L.data data e) m (data.drop e.p ++ later)
  | .returned _ parser u =>
      parser.httpErrno ≠ .headerOverflow ∧
        (parser.httpErrno = .ok ∧ parser.upgrade = false →
          ∃ m ≥ parser.nread, Bounded L (parser.toRegisters, u) m later)
  | .aborted => True

/-- **One iteration** keeps the counter within the bound. -/
theorem iteration_bounded (hS : Quiet S L) (h : AtHead data c e)
    (hdrop : data.drop e.p = b :: rest)
    (hsmall : data.length + httpMaxHeaderSize < 0x100000000) (hnread : e.parser.nread ≤ m)
    (hbounded : Bounded L (e.parser.toRegisters, flush L.data data e) m (b :: rest ++ l)) :
    ((iteration e.parser.toRegisters b rest).run S data e).InBounds L data l := by
  have hplain := iteration_plain hS.incremental h hdrop hsmall
  have hsound := iteration_sound (Tracks.trivial S) h hdrop
  have hspent := iteration_spent (S := S) b rest h
  have hfits := hbounded.fits hS h.rests
  have hle := stretch_le b rest h.rests
  have hlen := congrArg List.length hdrop
  rw [List.length_drop, List.length_cons] at hlen
  generalize hrun : (iteration e.parser.toRegisters b rest).run S data e = outcome
    at hplain hsound hspent ⊢
  cases outcome with
  | looping e' =>
      obtain ⟨hmoved, c', hat⟩ := hsound
      obtain ⟨hp, hreach, hcount⟩ := hspent
      have hend : e'.p ≤ data.length := Nat.le.intro hat.left
      have hslice : slice data e.p e'.p = (b :: rest).take (e'.p - e.p) := by
        rw [slice, hdrop]
      have hsplit : b :: rest = (b :: rest).take (e'.p - e.p) ++ data.drop e'.p := by
        rw [← hslice, ← hdrop]
        exact drop_eq_slice_append hp
      have hfed := hplain.2
      rw [hslice] at hfed
      have hall := hbounded
      rw [hsplit, List.append_assoc] at hall
      -- the bound, followed over the bytes of this iteration and over those behind them
      obtain ⟨m₁, hfirst, hrest⟩ := hall.split hS hfed
      refine ⟨m₁, ?_, hrest⟩
      by_cases hloops : e.parser.state.loops = true
      · -- all the bytes were read in one state, which does not set the counter back
        obtain ⟨k, q', hcollects⟩ := hbounded.reads hS h.rests hloops
        have hm := hfirst.after hS hloops hcollects (by rw [List.length_cons]; exact hle)
          (by omega) (by rw [List.length_cons]; omega)
        omega
      · -- one byte, which may set the counter back
        have hstretch := stretch_single b rest (by simpa using hloops)
        obtain hone : e'.p - e.p = 1 := by omega
        rw [hone] at hfirst hcount
        cases hfirst with
        | cons byte fits hnil =>
            cases hnil
            unfold meter
            split
            next hresets =>
              have hzero : ((iteration e.parser.toRegisters b rest).run S data e).Counted 0 :=
                (iteration_resets b rest hresets).run_counted
              rw [hrun] at hzero
              exact hzero
            next =>
              dsimp only
              omega
  | returned n parser u =>
      refine ⟨fun hover => ?_, fun hgoes => ?_⟩
      · have hlong := hspent.1 hover
        omega
      · rcases hsound.reason with hstops | hupgrade
        · exact absurd hgoes.1 hstops
        · exact absurd (hgoes.2.symm.trans hupgrade) Bool.false_ne_true
  | aborted => trivial

/-! ## Calls -/

theorem finish_bounded (hS : Quiet S L) (h : AtHead data c e) (hdrop : data.drop e.p = [])
    (hnread : e.parser.nread ≤ m)
    (hbounded :
      Bounded L (e.parser.toRegisters, flush L.data data e) m (data.drop e.p ++ l)) :
    (finish S data e).InBounds L data l := by
  rw [hdrop] at hbounded
  rw [finish_incremental hS.incremental h.rests.errno h.pending.oneMark]
  have hother : HttpErrno.ok ≠ .headerOverflow := by decide
  exact ⟨fun hover => hother (h.rests.errno.symm.trans hover), fun _ => ⟨m, hnread, hbounded⟩⟩

theorem mainLoop_bounded (hS : Quiet S L)
    (hsmall : data.length + httpMaxHeaderSize < 0x100000000) (fuel : ℕ) (h : AtHead data c e)
    (hfuel : data.length ≤ e.p + fuel) (hnread : e.parser.nread ≤ m)
    (hbounded :
      Bounded L (e.parser.toRegisters, flush L.data data e) m (data.drop e.p ++ l)) :
    (mainLoop S data fuel e).InBounds L data l := by
  induction fuel generalizing c e m with
  | zero => exact finish_bounded hS h (List.drop_eq_nil_of_le hfuel) hnread hbounded
  | succ fuel ih =>
      rw [mainLoop]
      cases hdrop : data.drop e.p with
      | nil => exact finish_bounded hS h hdrop hnread hbounded
      | cons b rest =>
          have hsound := iteration_sound (Tracks.trivial S) h hdrop
          rw [hdrop] at hbounded
          have hnext := iteration_bounded hS h hdrop hsmall hnread hbounded
          dsimp only
          generalize (iteration e.parser.toRegisters b rest).run S data e = outcome
            at hsound hnext ⊢
          cases outcome with
          | looping e' =>
              obtain ⟨hmoved, c', hat⟩ := hsound
              obtain ⟨m₁, hnread', hrest⟩ := hnext
              have hend : e'.p ≤ data.length := Nat.le.intro hat.left
              exact ih hat (by omega) hnread' hrest
          | returned n parser u => exact hnext
          | aborted => trivial

/-- A call on input that is bounded does not find the header too long, and leaves a bound for
the input after it. -/
theorem httpParserExecute_bounded (hS : Quiet S L) {parser : HttpParser}
    (hsound : parser.Sound φ) (herrno : parser.httpErrno = .ok) (hdata : data ≠ [])
    (hsmall : data.length + httpMaxHeaderSize < 0x100000000) (hnread : parser.nread ≤ m)
    (hbounded : Bounded L (parser.toRegisters, u) m (data ++ l)) {r : Returned σ}
    (hr : httpParserExecute S parser u data = some r) :
    r.parser.httpErrno ≠ .headerOverflow ∧
      (r.parser.httpErrno = .ok ∧ r.parser.upgrade = false →
        ∃ m ≥ r.parser.nread, Bounded L (r.parser.toRegisters, r.user) m l) := by
  have hrests : parser.Rests parser.nread φ := by
    have hrests := hsound (Or.inl herrno)
    rwa [show parser.toRegisters.setErrno .ok = parser.toRegisters by
      rw [setErrno, ← herrno]] at hrests
  have hstart : flush L.data data (startExec parser u) = u := flush_startExec hS.incremental
  rw [← hstart] at hbounded
  have hloop := mainLoop_bounded hS hsmall data.length
    (startExec_atByte data parser (u := u) True.intro hrests) (Nat.le_add_left _ _) hnread hbounded
  rw [httpParserExecute, if_neg (not_not_intro herrno), if_neg hdata] at hr
  generalize mainLoop S data data.length (startExec parser u) = outcome at hloop hr
  cases outcome with
  | returned n parser' u' =>
      cases hr
      exact hloop
  | looping e => cases hr
  | aborted => cases hr

variable {datas : List (List UInt8)} {parser : HttpParser} {r : Returned σ}

/-- **However it is cut**, input that is bounded is not refused as too long a header. -/
theorem executeAll_bounded (hS : Quiet S L) (hsound : parser.Sound φ)
    (herrno : parser.httpErrno = .ok) (hdatas : Buffers datas) (hnread : parser.nread ≤ m)
    (hbounded : Bounded L (parser.toRegisters, u) m datas.flatten)
    (hr : executeAll S parser u datas = some r) : r.parser.httpErrno ≠ .headerOverflow := by
  induction datas generalizing parser u φ m r with
  | nil =>
      cases hr
      have hother : HttpErrno.ok ≠ .headerOverflow := by decide
      exact fun hover => hother (herrno.symm.trans hover)
  | cons data datas ih =>
      obtain ⟨hdata, hsmall⟩ := hdatas data List.mem_cons_self
      obtain ⟨r₁, hr₁, -, ψ, -, hsound₁⟩ :=
        httpParserExecute_sound (Tracks.trivial S) (φ := φ) (u := u) True.intro hsound data
      rw [List.flatten_cons] at hbounded
      obtain ⟨hfirst, hnext⟩ :=
        httpParserExecute_bounded hS hsound herrno hdata hsmall hnread hbounded hr₁
      rw [executeAll, hr₁, Option.bind_some] at hr
      split at hr
      next hgo =>
        obtain ⟨r₂, hr₂, rfl⟩ := Option.map_eq_some_iff.mp hr
        obtain ⟨m₁, hnread₁, hrest⟩ := hnext hgo
        exact ih (r := r₂) hsound₁ hgo.1 (fun d hd => hdatas d (List.mem_cons_of_mem _ hd)) hnread₁
          hrest hr₂
      next hstop =>
        obtain rfl : r₁ = r := Option.some.inj hr
        exact hfirst

/-- A run that is metered is taken whole. -/
theorem executeAll_metered (hS : Quiet S L) (hsound : parser.Sound φ)
    (hgoes : parser.httpErrno = .ok ∧ parser.upgrade = false) (hdatas : Buffers datas)
    (hnread : parser.nread ≤ m)
    (hmetered : Metered L (parser.toRegisters, u) m datas.flatten t m') :
    ∃ n, executeAll S parser u datas = some ⟨datas.flatten.length, ⟨t.1, n⟩, t.2⟩ := by
  have hbounded := hmetered.bounded (.nil t m')
  rw [List.append_nil] at hbounded
  obtain ⟨r, hr, hend⟩ := executeAll_settles hS hsound hgoes hdatas hmetered.settles
  obtain ⟨hcount, ht⟩ := hend.resolve_left
    (executeAll_bounded hS hsound hgoes.1 hdatas hnread hbounded hr)
  obtain ⟨n, ⟨registers, nread⟩, user⟩ := r
  obtain rfl : n = datas.flatten.length := hcount
  obtain ⟨hregisters, huser⟩ := Prod.mk.inj ht
  exact ⟨nread, by rw [hr, ← hregisters, ← huser]⟩

/-- What stops the parser is found, where the plain parser finds it. -/
theorem executeAll_stops (hS : Quiet S L) {err : HttpErrno} (herr : err ≠ .ok)
    (hsound : parser.Sound φ) (hgoes : parser.httpErrno = .ok ∧ parser.upgrade = false)
    (hdatas : Buffers datas) (hnread : parser.nread ≤ m)
    (hbounded : Bounded L (parser.toRegisters, u) m datas.flatten)
    (h : Refuses L err (parser.toRegisters, u) datas.flatten) :
    ∃ r, executeAll S parser u datas = some r ∧ r.parser.httpErrno = err ∧
      r.count = ((plainParser S).feed (parser.toRegisters, u) datas.flatten).count := by
  obtain ⟨r, hr, hend⟩ := executeAll_refuses hS herr hsound hgoes hdatas h
  exact ⟨r, hr, hend.resolve_left (executeAll_bounded hS hsound hgoes.1 hdatas hnread hbounded hr)⟩

end Metered

end Http2Asio.Http1
