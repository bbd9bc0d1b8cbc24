import Http2Asio.Http1.Lawful.Headers

/-!
# The values of the fields

Values are what the parser takes most trouble over: it skips the blanks before them,
folds the lines of them, and looks for the words of `Connection`, `Transfer-Encoding` and
`Content-Length` in them, while it runs ahead to the end of the line when there is nothing
to look for.

Reading a value may change the flags and the length.  `KeepsLine` is what it never does: it
leaves the error, the state and the flag of the trailer alone, and the length stays in its
type.  All steps of the scan have this property (`headerValueChar_keeps`,
`setValueFlag_keeps`), it composes, and it is all that is needed after the value
(`afterValue`).

`headerValueLoop_sound` is the main induction, over the bytes of the buffer: the loop stays
in the states of a value, so the assertion at the end of `s_header_value` does not fail; it
stops inside the buffer exactly if it finds the end of the line or an error; and the scan
for the end of the line in a value without words passes no more bytes than there are.
-/

namespace Http2Asio.Http1

open Registers Reaction

variable {q : Registers} {c : Cursor} {ch : UInt8} {rest : List UInt8}

attribute [local simp] Lawful HttpErrno.parsing rests_iff FitsState InPhase AwaitsField MarkFits
  resumedMark
  updateState setErrno Registers.error Phase.notify Phase.data Phase.headersComplete

/-! ## Header values -/

/-- What reading a value leaves alone. -/
structure KeepsLine (q q' : Registers) : Prop where
  errno : q'.httpErrno = q.httpErrno
  state : q'.state = q.state
  trailing : q'.flags.trailing = q.flags.trailing
  contentLength_le : q.contentLength ≤ ullongMax → q'.contentLength ≤ ullongMax

theorem KeepsLine.refl : KeepsLine q q :=
  ⟨rfl, rfl, rfl, id⟩

theorem KeepsLine.trans {q' q'' : Registers} (h : KeepsLine q q') (h' : KeepsLine q' q'') :
    KeepsLine q q'' :=
  ⟨h'.errno.trans h.errno, h'.state.trans h.state, h'.trailing.trans h.trailing,
    h'.contentLength_le ∘ h.contentLength_le⟩

theorem setValueFlag_keeps (h : HeaderState) : KeepsLine q (setValueFlag h q) := by
  cases h <;> exact ⟨rfl, rfl, rfl, id⟩

theorem digit_le {b : UInt8} (hb : isNum b = true) : digit b ≤ 9 := by
  simp only [isNum, Bool.and_eq_true, decide_eq_true_eq] at hb
  have hle : b.toNat ≤ '9'.toUInt8.toNat := UInt8.le_iff_toNat_le.mp hb.2
  have hnine : '9'.toUInt8.toNat = 57 := by decide
  unfold digit
  omega

theorem headerValueStart_lawful (hq : AtLine q c)
    (hphase : c.phase = .field q.flags.trailing ∨ c.phase = .value q.flags.trailing) :
    (headerValueStart q ch).Lawful c := by
  have hvalue : c.phase.data .headerValue 0 = some (.value q.flags.trailing) := by
    rcases hphase with hphase | hphase <;> rw [hphase] <;> rfl
  have hnext : ∀ q' : Registers, q'.state = .headerValue → q'.headerState.inValue = true →
      q'.httpErrno = q.httpErrno → q'.contentLength ≤ ullongMax →
      q'.flags.trailing = q.flags.trailing →
      (Reaction.next q').Lawful
        { c with marked := some .headerValue, phase := .value q.flags.trailing } := by
    intro q' hstate hvalue herrno hlen htrailing
    exact ⟨hq.left_pos, Or.inl (by simp [hstate]), .value q.flags.trailing, rfl,
      herrno.trans hq.errno, hlen, by simpa [hstate] using hvalue, by simp [hstate, htrailing],
      nofun, hq.nread_le, by simp [hstate]⟩
  refine Or.inl ⟨hq.unmarked, _, hvalue, ?_⟩
  dsimp only
  split
  · exact hnext _ rfl rfl rfl hq.contentLength_le rfl
  · refine hnext _ rfl ?_ rfl hq.contentLength_le rfl
    change HeaderState.inValue (ite _ _ _) = true
    split_ifs <;> rfl
  next hs =>
    split
    · exact error_lawful rfl
    next hnum =>
      have hdigit : digit ch ≤ 9 := digit_le (by simpa using hnum)
      refine hnext _ rfl ?_ rfl ?_ rfl
      · change q.headerState.inValue = true
        rw [show q.headerState = .contentLength from hs]
        rfl
      · change digit ch ≤ ullongMax
        unfold ullongMax
        omega
  · refine hnext _ rfl ?_ rfl hq.contentLength_le rfl
    change HeaderState.inValue (ite _ _ _) = true
    split_ifs <;> rfl
  next hs =>
    refine hnext _ rfl ?_ rfl hq.contentLength_le rfl
    change q.headerState.inValue = true
    rw [show q.headerState = .matchingConnectionTokenStart from hs]
    rfl
  · exact hnext _ rfl rfl rfl hq.contentLength_le rfl

/-- Between the colon and the value, and after an empty line in it. -/
theorem beforeValue_rests {q' : Registers} (hq : Finds q c)
    (hphase : c.phase = .field q.flags.trailing) (herrno : q'.httpErrno = q.httpErrno)
    (hlen : q'.contentLength = q.contentLength) (hflags : q'.flags = q.flags)
    (hs : q'.state = .headerValueDiscardWs ∨ q'.state = .headerValueDiscardWsAlmostDone ∨
      q'.state = .headerValueDiscardLws) : q'.Rests c.nread c.phase := by
  refine ⟨herrno.trans hq.errno, hlen ▸ hq.contentLength_le, ?_, ?_, hflags ▸ hq.headers,
    hq.nread_le, ?_⟩ <;>
  rcases hs with hs | hs | hs <;> simp [hs, hphase, hflags]

theorem headerValueDiscardWs_lawful (h : q.state = .headerValueDiscardWs) (hq : Finds q c)
    (hm : c.marked = none) : (headerValueDiscardWs q ch).Lawful c := by
  have hphase : c.phase = .field q.flags.trailing := by simpa [h] using hq.inPhase
  unfold headerValueDiscardWs
  split_ifs
  · exact next_lawful hm hq.left_pos (by rw [h]; rfl)
      (beforeValue_rests hq hphase rfl rfl rfl (Or.inl h))
  · exact next_lawful hm hq.left_pos rfl
      (beforeValue_rests hq hphase rfl rfl rfl (Or.inr (Or.inl rfl)))
  · exact next_lawful hm hq.left_pos rfl
      (beforeValue_rests hq hphase rfl rfl rfl (Or.inr (Or.inr rfl)))
  · exact headerValueStart_lawful (hq.atLine hm) (Or.inl hphase)

theorem headerValueDiscardWsAlmostDone_lawful (h : q.state = .headerValueDiscardWsAlmostDone)
    (hq : Finds q c) (hm : c.marked = none) :
    (headerValueDiscardWsAlmostDone q ch).Lawful c := by
  have hphase : c.phase = .field q.flags.trailing := by simpa [h] using hq.inPhase
  unfold headerValueDiscardWsAlmostDone strictCheck
  split
  · exact error_lawful rfl
  · exact next_lawful hm hq.left_pos rfl
      (beforeValue_rests hq hphase rfl rfl rfl (Or.inr (Or.inr rfl)))

/-- After a value the next field may begin. -/
theorem afterValue {q' : Registers} (hq : AtLine q c) (hkeeps : KeepsLine q q') :
    AtField q' { c with marked := none, phase := .value q.flags.trailing } :=
  ⟨⟨hkeeps.errno.trans hq.errno, hkeeps.contentLength_le hq.contentLength_le, hq.nread_le,
    hq.left_pos, rfl⟩, hkeeps.trailing.symm, nofun⟩

theorem headerValueDiscardLws_lawful (h : q.state = .headerValueDiscardLws) (hq : Finds q c)
    (hm : c.marked = none) : (headerValueDiscardLws q ch).Lawful c := by
  have hphase : c.phase = .field q.flags.trailing := by simpa [h] using hq.inPhase
  unfold headerValueDiscardLws
  split
  · exact next_lawful hm hq.left_pos rfl (beforeValue_rests hq hphase rfl rfl rfl (Or.inl rfl))
  · have hkeeps := setValueFlag_keeps (q := q) q.headerState
    have hnext : AtField ((setValueFlag q.headerState q).updateState .headerFieldStart)
        { c with marked := none, phase := .value q.flags.trailing } := by
      have hbefore := afterValue (hq.atLine hm) hkeeps
      exact ⟨⟨hbefore.errno, hbefore.contentLength_le, hbefore.nread_le, hbefore.left_pos, rfl⟩,
        hbefore.awaits, nofun⟩
    refine Or.inl ⟨hm, .value q.flags.trailing, by rw [hphase]; rfl, Nat.zero_le _, nofun,
      Or.inr rfl, .value q.flags.trailing, rfl, ?_, headerFieldStart_lawful hnext⟩
    exact ⟨hnext.errno, hnext.contentLength_le, trivial, hnext.awaits, nofun, hq.nread_le, nofun⟩

theorem headerValueLws_lawful (h : q.state = .headerValueLws) (hq : Finds q c)
    (hm : c.marked = none) : (headerValueLws q ch).Lawful c := by
  have hphase : c.phase = .value q.flags.trailing := by simpa [h] using hq.inPhase
  unfold headerValueLws
  split
  · exact headerValueStart_lawful
      ⟨hq.errno, hq.contentLength_le, hq.nread_le, hq.left_pos, hm⟩ (Or.inr hphase)
  · have hkeeps := setValueFlag_keeps (q := q) q.headerState
    refine headerFieldStart_lawful
      ⟨⟨hkeeps.errno.trans hq.errno, hkeeps.contentLength_le hq.contentLength_le, hq.nread_le,
        hq.left_pos, hm⟩, ?_, ?_⟩
    · rw [hphase]
      exact hkeeps.trailing.symm
    · rw [hphase]
      exact nofun

theorem headerAlmostDone_lawful (hq : AtLine q c) (hphase : c.phase = .value q.flags.trailing) :
    (headerAlmostDone q ch).Lawful c := by
  unfold headerAlmostDone strictCheck
  split
  · exact error_lawful rfl
  · refine next_lawful hq.unmarked hq.left_pos rfl ?_
    exact ⟨hq.errno, hq.contentLength_le, trivial, hphase, by simp [hphase], hq.nread_le, nofun⟩

theorem matchWord_inValue {word : List UInt8} {going found other : HeaderState} {index : ℕ}
    {b : UInt8} (hgoing : going.inValue = true) (hfound : found.inValue = true)
    (hother : other.inValue = true) :
    (matchWord word going found other index b).inValue = true := by
  unfold matchWord
  split_ifs <;> assumption

/-- A step of the loop goes on in a state of a value, or finds an error. -/
theorem headerValueChar_keeps (q : Registers) (ch : UInt8) {h : HeaderState}
    (hh : h.inValue = true) :
    headerValueChar q h ch = .error ∨
      ∃ q' h', headerValueChar q h ch = .going q' h' ∧ KeepsLine q q' ∧ h'.inValue = true := by
  unfold headerValueChar
  dsimp only
  cases h with
  | connection | transferEncoding => simp [HeaderState.inValue] at hh
  | contentLength =>
      dsimp only
      split_ifs
      · exact Or.inr ⟨_, _, rfl, KeepsLine.refl, rfl⟩
      · exact Or.inl rfl
      · exact Or.inl rfl
      · refine Or.inr ⟨_, _, rfl, ⟨rfl, rfl, rfl, fun _ => ?_⟩, rfl⟩
        dsimp only
        unfold ullongMax
        omega
  | matchingTransferEncodingChunked | matchingConnectionKeepAlive | matchingConnectionClose
  | matchingConnectionUpgrade =>
      exact Or.inr ⟨_, _, rfl, ⟨rfl, rfl, rfl, id⟩, matchWord_inValue rfl rfl rfl⟩
  | matchingConnectionTokenStart =>
      exact Or.inr ⟨_, _, rfl, KeepsLine.refl, by split_ifs <;> rfl⟩
  | matchingConnectionToken =>
      dsimp only
      split_ifs
      · exact Or.inr ⟨_, _, rfl, ⟨rfl, rfl, rfl, id⟩, rfl⟩
      · exact Or.inr ⟨_, _, rfl, KeepsLine.refl, rfl⟩
  | transferEncodingChunked => exact Or.inr ⟨_, _, rfl, KeepsLine.refl, by split_ifs <;> rfl⟩
  | connectionKeepAlive | connectionClose | connectionUpgrade =>
      dsimp only
      split
      · exact Or.inr ⟨_, _, rfl, ⟨rfl, rfl, rfl, id⟩, rfl⟩
      · exact Or.inr ⟨_, _, rfl, KeepsLine.refl, by split_ifs <;> rfl⟩
  | _ => exact Or.inr ⟨_, _, rfl, KeepsLine.refl, rfl⟩

theorem memchr_le {l : List UInt8} {b : UInt8} {limit n : ℕ} (h : memchr l b limit = some n) :
    n < l.length ∧ n < limit := by
  have hlt := (List.findIdx?_eq_some_iff_getElem.mp h).1
  rw [List.length_take] at hlt
  omega

theorem generalRun_le (l : List UInt8) : generalRun l ≤ l.length := by
  unfold generalRun
  dsimp only
  cases hcr : memchr l CR (min l.length httpMaxHeaderSize) with
  | none =>
      cases hlf : memchr l LF (min l.length httpMaxHeaderSize) with
      | none => exact Nat.le_refl _
      | some lf => exact Nat.le_of_lt (memchr_le hlf).1
  | some cr =>
      cases hlf : memchr l LF (min l.length httpMaxHeaderSize) with
      | none => exact Nat.le_of_lt (memchr_le hcr).1
      | some lf =>
          dsimp only
          split
          · exact Nat.le_of_lt (memchr_le hlf).1
          · exact Nat.le_of_lt (memchr_le hcr).1

/-- What the loop of `s_header_value` can end with. -/
structure ScanSound (q : Registers) (l : List UInt8) (scan : ValueScan) : Prop where
  keeps : KeepsLine q scan.registers
  inValue : scan.hState.inValue = true
  sound : scan.stop ≠ .assertion
  passed_le : scan.passed ≤ l.length
  bufferEnd : scan.stop = .bufferEnd → scan.passed = l.length
  more : scan.stop ≠ .bufferEnd → scan.passed < l.length

theorem headerValueLoop_sound {h : HeaderState} (l : List UInt8) (hh : h.inValue = true) :
    ScanSound q l (headerValueLoop q h l) := by
  induction l generalizing q h with
  | nil => exact ⟨KeepsLine.refl, hh, nofun, Nat.le_refl _, fun _ => rfl, absurd rfl⟩
  | cons b l ih =>
      -- where the loop stops at its first byte, nothing has changed
      have hzero : ∀ stop : ValueStop, stop ≠ .assertion → stop ≠ .bufferEnd →
          ScanSound q (b :: l) ⟨q, h, 0, stop⟩ := fun stop hsound hend =>
        ⟨KeepsLine.refl, hh, hsound, Nat.zero_le _, fun he => absurd he hend,
          fun _ => Nat.succ_pos _⟩
      unfold headerValueLoop
      split
      · exact hzero .cr nofun nofun
      split
      · exact hzero .lf nofun nofun
      split
      -- a value that is not looked at is passed at once, up to the end of its line
      · have hle := generalRun_le (b :: l)
        dsimp only
        generalize generalRun (b :: l) = passed at hle ⊢
        cases hdrop : (b :: l).drop passed with
        | nil =>
            have hend : passed = (b :: l).length :=
              Nat.le_antisymm hle (List.drop_eq_nil_iff.mp hdrop)
            exact ⟨KeepsLine.refl, hh, nofun, hle, fun _ => hend, absurd rfl⟩
        | cons b' l' =>
            have hmore : passed < (b :: l).length := by
              by_contra hge
              rw [List.drop_eq_nil_of_le (by omega)] at hdrop
              exact absurd hdrop nofun
            have hstop : valueStop (b' :: l') = .cr ∨ valueStop (b' :: l') = .lf := by
              by_cases hcr : b' = CR <;> simp [valueStop, hcr]
            rcases hstop with hstop | hstop <;> rw [hstop] <;>
              exact ⟨KeepsLine.refl, hh, nofun, hle, nofun, fun _ => hmore⟩
      · rcases headerValueChar_keeps q b hh with herror | ⟨q', h', hgo, hkeeps, hh'⟩
        · rw [herror]
          exact hzero .error nofun nofun
        · rw [hgo]
          have hrest := ih (q := q') hh'
          exact ⟨hkeeps.trans hrest.keeps, hrest.inValue, hrest.sound,
            Nat.succ_le_succ hrest.passed_le, fun he => congrArg (· + 1) (hrest.bufferEnd he),
            fun he => Nat.succ_lt_succ (hrest.more he)⟩

theorem headerValue_lawful (h : q.state = .headerValue) (hq : Finds q c)
    (hm : c.marked = some .headerValue) (hleft : c.left = rest.length + 1) :
    (headerValue q ch rest).Lawful c := by
  have hphase : c.phase = .value q.flags.trailing := by simpa [h] using hq.inPhase
  have hfits : q.headerState.inValue = true := by simpa [h] using hq.fits
  have hscan := headerValueLoop_sound (q := q) (ch :: rest) hfits
  unfold headerValue
  dsimp only
  generalize headerValueLoop q q.headerState (ch :: rest) = scan at hscan ⊢
  obtain ⟨hkeeps, hvalue, hsound, hle, hend, hmore⟩ := hscan
  rw [List.length_cons, ← hleft] at hle hend hmore
  have herrno := hkeeps.errno.trans hq.errno
  have hlen := hkeeps.contentLength_le hq.contentLength_le
  have hpass : c.phase.pass c.marked scan.passed = some (.value q.flags.trailing) := by
    rw [hm, hphase]
    rfl
  -- the same for both ways to end a line
  have hdone : ∀ (q' : Registers) (n : ℕ), q'.httpErrno = .ok → q'.contentLength ≤ ullongMax →
      q'.flags.trailing = q.flags.trailing → q'.state = .headerAlmostDone →
      n ≤ httpMaxHeaderSize → q'.Rests n (.value q.flags.trailing) := by
    intro q' n herrno hlen htrailing hstate hn
    exact ⟨herrno, hlen, by simp [hstate], by simp [hstate, htrailing], nofun, hn,
      by simp [hstate]⟩
  refine ⟨hle, _, hpass, ?_⟩
  cases hstop : scan.stop with
  | bufferEnd =>
      refine fun hnread => ⟨Nat.sub_eq_zero_of_le (Nat.le_of_eq (hend hstop).symm), ?_, herrno,
        hlen, ?_, ?_, nofun, hnread, ?_⟩
      · exact Or.inl (by simp [hm, hkeeps.state, h])
      · simpa [hkeeps.state, h] using hvalue
      · simp [hkeeps.state, h, hkeeps.trailing]
      · simp [hkeeps.state, h]
  | cr =>
      have hpos : 0 < c.left - scan.passed := Nat.sub_pos_of_lt (hmore (by rw [hstop]; exact nofun))
      refine ⟨Nat.zero_le _, fun _ => hpos, Or.inr hm, _, by rw [hm]; rfl,
        hdone _ _ herrno hlen hkeeps.trailing rfl hq.nread_le, fun hnread => ?_⟩
      exact next_lawful rfl hpos rfl (hdone _ _ herrno hlen hkeeps.trailing rfl hnread)
  -- a line that ends without CR: this byte does what the one after CR would
  | lf =>
      have hpos : 0 < c.left - scan.passed := Nat.sub_pos_of_lt (hmore (by rw [hstop]; exact nofun))
      refine fun hnread => ⟨Nat.zero_le _, nofun, Or.inr hm, _, by rw [hm]; rfl,
        hdone _ _ herrno hlen hkeeps.trailing rfl hnread, ?_⟩
      exact headerAlmostDone_lawful ⟨herrno, hlen, hnread, hpos, rfl⟩
        (congrArg _ hkeeps.trailing.symm)
  | error => exact error_lawful rfl
  | assertion => exact absurd hstop hsound

end Http2Asio.Http1
