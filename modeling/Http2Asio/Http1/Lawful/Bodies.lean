import Http2Asio.Http1.Lawful.Headers

/-!
# Bodies and chunks

In a body the counter `content_length` goes down, and the callbacks are passed the same
bytes.  The phase `.body left` or `.chunk left` says what they wait for, so the invariant
is that the two are equal; `toRead_spec` is the arithmetic of one iteration, which takes
the bytes that the buffer has or that the body lacks, whichever are fewer.

The mark of a body is set by the state itself and stays set from one iteration to the
next, so a body is entered in two ways: without a mark, or with the mark of `on_body`.
Each lemma about a body proves the part after the mark once (`hmove`) and uses it twice.
A body with a length calls `on_body` itself at its last byte, because the message ends in
the same iteration; a chunk leaves the call to the state after it, and a body without a
length leaves it to the end of the buffer.

The header of a chunk is read with the counter of the header starting anew, which an
assertion relies on.  Its size stays below the greatest length, as otherwise the test for
an overflow stops the parser, and the assertion that the length is known holds.
-/

namespace Http2Asio.Http1

open Registers Reaction

variable {q : Registers} {c : Cursor} {ch : UInt8} {rest : List UInt8}

attribute [local simp] Lawful HttpErrno.parsing rests_iff FitsState InPhase AwaitsField MarkFits
  resumedMark
  updateState setErrno Registers.error Phase.notify Phase.data Phase.headersComplete

/-! ## Bodies -/

/-- The bytes that one iteration takes of those left in the body and those in the buffer. -/
theorem toRead_spec {left : ℕ} (length : ℕ) (hleft : left ≠ 0) :
    0 < min left (length + 1) ∧ min left (length + 1) ≤ left ∧
      min left (length + 1) ≤ length + 1 := by
  omega

/-- What `s_body_identity` does at the last byte it takes. -/
def bodyIdentityLast (q : Registers) : Reaction :=
  if q.contentLength = 0 then
    .data .body 1 false (q.updateState .messageDone) (messageDone (q.updateState .messageDone))
  else .next q

theorem bodyIdentity_eq (rest : List UInt8) (h : q.HasLeft) {toRead : ℕ}
    (htoRead : min q.contentLength (rest.length + 1) = toRead) :
    bodyIdentity q rest =
      .mark .body (.move (toRead - 1)
        (bodyIdentityLast { q with contentLength := q.contentLength - toRead })) := by
  unfold bodyIdentity
  rw [if_neg (not_or.mpr h), htoRead]
  rfl

theorem bodyIdentity_lawful (h : q.state = .bodyIdentity) (hq : Finds q c)
    (hm : c.marked = none ∨ c.marked = some .body) (hleft : c.left = rest.length + 1) :
    (bodyIdentity q rest).Lawful c := by
  have hphase : c.phase = .body q.contentLength := by simpa [h] using hq.inPhase
  have hfits : q.HasLeft := by simpa [h] using hq.fits
  obtain ⟨hpos, hbody, hbuffer⟩ := toRead_spec rest.length hfits.1
  generalize htoRead : min q.contentLength (rest.length + 1) = toRead at hpos hbody hbuffer
  rw [bodyIdentity_eq rest hfits htoRead]
  -- all but the last byte are only moved over; the last one decides what follows
  have hmove : ∀ c' : Cursor, c'.left = c.left → c'.nread = c.nread → c'.marked = some .body →
      c'.phase = .body q.contentLength →
      (Reaction.move (toRead - 1)
        (bodyIdentityLast { q with contentLength := q.contentLength - toRead })).Lawful c' := by
    intro c' hleft' hnread' hmarked' hphase'
    have hle : toRead - 1 ≤ q.contentLength := by omega
    refine ⟨by omega, .body (q.contentLength - (toRead - 1)), ?_, ?_⟩
    · rw [hmarked', hphase']
      simp [hle]
    · have hsub : q.contentLength - (toRead - 1) - 1 = q.contentLength - toRead := by omega
      have hone : 1 ≤ q.contentLength - (toRead - 1) := by omega
      have hlen : q.contentLength - toRead ≤ ullongMax :=
        Nat.le_trans (Nat.sub_le _ _) hq.contentLength_le
      have hpos' : 0 < c'.left - (toRead - 1) := by omega
      unfold bodyIdentityLast
      split
      -- the body is complete, and with it the message
      next hzero =>
        dsimp only at hzero
        refine ⟨hpos', nofun, Or.inr hmarked', .body 0, ?_, ?_, messageDone_lawful ?_ rfl⟩
        · rw [hmarked']
          simp [hone, hsub, hzero]
        · exact ⟨hq.errno, hlen, trivial, rfl, nofun, hnread' ▸ hq.nread_le, nofun⟩
        · exact ⟨hq.errno, hlen, hnread' ▸ hq.nread_le, hpos', rfl⟩
      next hzero =>
        refine ⟨hpos', Or.inr ⟨hmarked', by rw [h]; rfl⟩, .body (q.contentLength - toRead), ?_,
          hq.errno, hlen, ?_, ?_, nofun, hnread' ▸ hq.nread_le, by simp [h]⟩
        · rw [hmarked']
          simp [hone, hsub]
        · have hmax : q.contentLength - toRead ≠ ullongMax := by
            have := hq.contentLength_le
            omega
          simpa [h, HasLeft] using And.intro hzero hmax
        · simp [h]
  -- the mark is set here, or stands since an earlier buffer
  rcases hm with hm | hm
  · exact Or.inl ⟨hm, .body q.contentLength, by rw [hphase]; simp, hmove _ rfl rfl rfl rfl⟩
  · exact Or.inr ⟨hm, hmove _ rfl rfl hm hphase⟩

theorem bodyIdentityEof_lawful (h : q.state = .bodyIdentityEof) (hq : Finds q c)
    (hm : c.marked = none ∨ c.marked = some .body) (hleft : c.left = rest.length + 1) :
    (bodyIdentityEof q rest).Lawful c := by
  have hphase : c.phase = .untilClose := by simpa [h] using hq.inPhase
  have hmove : ∀ c' : Cursor, c'.left = c.left → c'.nread = c.nread → c'.marked = some .body →
      c'.phase = .untilClose → (Reaction.move rest.length (.next q)).Lawful c' := by
    intro c' hleft' hnread' hmarked' hphase'
    refine ⟨by omega, .untilClose, by rw [hmarked', hphase']; rfl, ?_, ?_, .untilClose, ?_, ?_⟩
    · change 0 < c'.left - rest.length
      omega
    · exact Or.inr ⟨hmarked', by rw [h]; rfl⟩
    · rw [hmarked']
      rfl
    · exact ⟨hq.errno, hq.contentLength_le, hq.fits, by simp [h], nofun, hnread' ▸ hq.nread_le,
        by simp [h]⟩
  unfold bodyIdentityEof
  rcases hm with hm | hm
  · exact Or.inl ⟨hm, .untilClose, by rw [hphase]; rfl, hmove _ rfl rfl rfl rfl⟩
  · exact Or.inr ⟨hm, hmove _ rfl rfl hm hphase⟩

/-! ## Chunks -/

theorem unhex_lt {b : UInt8} {value : ℕ} (h : unhex b = some value) : value < 16 := by
  have hall : ∀ n < 256, ∀ v, unhex (UInt8.ofNat n) = some v → v < 16 := by decide +kernel
  have hb := hall b.toNat b.toNat_lt value
  rw [UInt8.ofNat_toNat] at hb
  exact hb h

theorem assertChunked_lawful {r : Reaction} (hchunked : q.flags.chunked = true)
    (hr : r.Lawful c) : (q.assertChunked r).Lawful c := by
  unfold assertChunked
  rwa [if_pos hchunked]

/-- The states of a chunk header. -/
theorem chunkHeader_rests {q' : Registers} {n : ℕ} (hq : Finds q c)
    (hchunked : q.flags.chunked = true) (hphase : c.phase = .chunks)
    (herrno : q'.httpErrno = q.httpErrno) (hflags : q'.flags = q.flags)
    (hlen : q'.contentLength < ullongMax) (hn : n ≤ httpMaxHeaderSize)
    (hs : q'.state = .chunkSize ∨ q'.state = .chunkParameters ∨
      q'.state = .chunkSizeAlmostDone) : q'.Rests n c.phase := by
  have hne : q'.contentLength ≠ ullongMax := Nat.ne_of_lt hlen
  refine ⟨herrno.trans hq.errno, Nat.le_of_lt hlen, ?_, ?_, by simp [hphase], hn, ?_⟩ <;>
  rcases hs with hs | hs | hs <;> simp [hs, hphase, hflags, hchunked, hne]

theorem chunkSizeStart_lawful (h : q.state = .chunkSizeStart) (hq : Finds q c)
    (hm : c.marked = none) : (chunkSizeStart q ch).Lawful c := by
  have hphase : c.phase = .chunks := by simpa [h] using hq.inPhase
  have hchunked : q.flags.chunked = true := by simpa [h] using hq.fits
  refine ⟨hq.counted h, assertChunked_lawful hchunked ?_⟩
  cases hvalue : unhex ch with
  | none => exact error_lawful rfl
  | some value =>
      have hlt : value < ullongMax := Nat.lt_trans (unhex_lt hvalue) (by decide)
      exact next_lawful hm hq.left_pos rfl
        (chunkHeader_rests hq hchunked hphase rfl rfl hlt hq.nread_le (Or.inl rfl))

theorem chunkSize_lawful (h : q.state = .chunkSize) (hq : Finds q c) (hm : c.marked = none) :
    (chunkSize q ch).Lawful c := by
  have hphase : c.phase = .chunks := by simpa [h] using hq.inPhase
  have hfits : q.flags.chunked = true ∧ q.contentLength ≠ ullongMax := by simpa [h] using hq.fits
  have hlt : q.contentLength < ullongMax := Nat.lt_of_le_of_ne hq.contentLength_le hfits.2
  refine assertChunked_lawful hfits.1 ?_
  split
  · exact next_lawful hm hq.left_pos rfl
      (chunkHeader_rests hq hfits.1 hphase rfl rfl hlt hq.nread_le (Or.inr (Or.inr rfl)))
  cases hvalue : unhex ch with
  | none =>
      dsimp only
      split
      · exact next_lawful hm hq.left_pos rfl
          (chunkHeader_rests hq hfits.1 hphase rfl rfl hlt hq.nread_le (Or.inr (Or.inl rfl)))
      · exact error_lawful rfl
  | some value =>
      dsimp only
      split
      · exact error_lawful rfl
      next hlimit =>
        have hvalue_lt := unhex_lt hvalue
        refine next_lawful hm hq.left_pos (by rw [h]; rfl)
          (chunkHeader_rests hq hfits.1 hphase rfl rfl ?_ hq.nread_le (Or.inl h))
        dsimp only
        unfold ullongMax at hlimit ⊢
        omega

theorem chunkParameters_lawful (h : q.state = .chunkParameters) (hq : Finds q c)
    (hm : c.marked = none) : (chunkParameters q ch).Lawful c := by
  have hphase : c.phase = .chunks := by simpa [h] using hq.inPhase
  have hfits : q.flags.chunked = true ∧ q.contentLength ≠ ullongMax := by simpa [h] using hq.fits
  have hlt : q.contentLength < ullongMax := Nat.lt_of_le_of_ne hq.contentLength_le hfits.2
  refine assertChunked_lawful hfits.1 ?_
  split
  · exact next_lawful hm hq.left_pos rfl
      (chunkHeader_rests hq hfits.1 hphase rfl rfl hlt hq.nread_le (Or.inr (Or.inr rfl)))
  · exact next_lawful hm hq.left_pos (by rw [h]; rfl)
      (chunkHeader_rests hq hfits.1 hphase rfl rfl hlt hq.nread_le (Or.inr (Or.inl h)))

theorem chunkSizeAlmostDone_lawful (h : q.state = .chunkSizeAlmostDone) (hq : Finds q c)
    (hm : c.marked = none) : (chunkSizeAlmostDone q ch).Lawful c := by
  have hphase : c.phase = .chunks := by simpa [h] using hq.inPhase
  have hfits : q.flags.chunked = true ∧ q.contentLength ≠ ullongMax := by simpa [h] using hq.fits
  refine assertChunked_lawful hfits.1 ?_
  split
  · exact error_lawful rfl
  -- a chunk of size zero is the last one, and a trailer may follow
  by_cases hzero : q.contentLength = 0
  · rw [Lawful]
    dsimp only
    rw [if_pos hzero]
    have hrests : Registers.Rests
        { q with flags := { q.flags with trailing := true }, state := .headerFieldStart } 0
          .trailers :=
      ⟨hq.errno, hq.contentLength_le, trivial, rfl, by simp, Nat.zero_le _, by simp⟩
    refine ⟨fun _ => hq.left_pos, hm, .trailers, ?_, hrests,
      next_lawful hm hq.left_pos rfl hrests⟩
    rw [hphase]
    simp [view, hzero]
  · rw [Lawful]
    dsimp only
    rw [if_neg hzero]
    have hrests : (q.updateState .chunkData).Rests 0 (.chunk q.contentLength) :=
      ⟨hq.errno, hq.contentLength_le, ⟨hfits.1, hzero, hfits.2⟩, rfl, by simp,
        Nat.zero_le _, by simp⟩
    refine ⟨fun _ => hq.left_pos, hm, .chunk q.contentLength, ?_, hrests,
      next_lawful hm hq.left_pos rfl hrests⟩
    rw [hphase]
    simp [view, hzero]

/-- What `s_chunk_data` does at the last byte it takes. -/
def chunkDataLast (q : Registers) : Reaction :=
  .next (if q.contentLength = 0 then q.updateState .chunkDataAlmostDone else q)

theorem chunkData_eq (rest : List UInt8) (hchunked : q.flags.chunked = true) (h : q.HasLeft)
    {toRead : ℕ}
    (htoRead : min q.contentLength (rest.length + 1) = toRead) :
    chunkData q rest =
      .mark .body (.move (toRead - 1)
        (chunkDataLast { q with contentLength := q.contentLength - toRead })) := by
  unfold chunkData assertChunked
  rw [if_pos hchunked, if_neg (not_or.mpr h), htoRead]
  rfl

theorem chunkData_lawful (h : q.state = .chunkData) (hq : Finds q c)
    (hm : c.marked = none ∨ c.marked = some .body) (hleft : c.left = rest.length + 1) :
    (chunkData q rest).Lawful c := by
  have hphase : c.phase = .chunk q.contentLength := by simpa [h] using hq.inPhase
  have hfits : q.flags.chunked = true ∧ q.HasLeft := by simpa [h] using hq.fits
  obtain ⟨hpos, hbody, hbuffer⟩ := toRead_spec rest.length hfits.2.1
  generalize htoRead : min q.contentLength (rest.length + 1) = toRead at hpos hbody hbuffer
  rw [chunkData_eq rest hfits.1 hfits.2 htoRead]
  -- as for a body of a known length, but the last byte ends no message
  have hmove : ∀ c' : Cursor, c'.left = c.left → c'.nread = c.nread → c'.marked = some .body →
      c'.phase = .chunk q.contentLength →
      (Reaction.move (toRead - 1)
        (chunkDataLast { q with contentLength := q.contentLength - toRead })).Lawful c' := by
    intro c' hleft' hnread' hmarked' hphase'
    have hle : toRead - 1 ≤ q.contentLength := by omega
    have hsub : q.contentLength - (toRead - 1) - 1 = q.contentLength - toRead := by omega
    have hone : 1 ≤ q.contentLength - (toRead - 1) := by omega
    have hlen : q.contentLength - toRead ≤ ullongMax :=
      Nat.le_trans (Nat.sub_le _ _) hq.contentLength_le
    have hmax : q.contentLength - toRead ≠ ullongMax := by
      have := hq.contentLength_le
      omega
    refine ⟨by omega, .chunk (q.contentLength - (toRead - 1)), ?_, ?_, ?_,
      .chunk (q.contentLength - toRead), ?_, ?_⟩
    · rw [hmarked', hphase']
      simp [hle]
    · change 0 < c'.left - (toRead - 1)
      omega
    · refine Or.inr ⟨hmarked', ?_⟩
      split_ifs <;> simp [h, State.inBody]
    · rw [hmarked']
      simp [hone, hsub]
    · have hnread := hnread' ▸ hq.nread_le
      split
      next hzero => exact ⟨hq.errno, hlen, ⟨hfits.1, hzero⟩, rfl, nofun, hnread, nofun⟩
      next hzero =>
        exact ⟨hq.errno, hlen, by simpa [h] using ⟨hfits.1, hzero, hmax⟩, by simp [h], nofun,
          hnread, by simp [h]⟩
  rcases hm with hm | hm
  · exact Or.inl ⟨hm, .chunk q.contentLength, by rw [hphase]; simp, hmove _ rfl rfl rfl rfl⟩
  · exact Or.inr ⟨hm, hmove _ rfl rfl hm hphase⟩

theorem chunkDataAlmostDone_lawful (h : q.state = .chunkDataAlmostDone) (hq : Finds q c)
    (hm : c.marked = none ∨ c.marked = some .body) : (chunkDataAlmostDone q ch).Lawful c := by
  have hfits : q.flags.chunked = true ∧ q.contentLength = 0 := by simpa [h] using hq.fits
  have hphase : c.phase = .chunk 0 := by simpa [h, hfits.2] using hq.inPhase
  refine assertChunked_lawful hfits.1 ?_
  rw [if_neg (not_not_intro hfits.2)]
  split
  · exact error_lawful rfl
  · have hrests : (q.updateState .chunkDataDone).Rests c.nread (.chunk 0) :=
      ⟨hq.errno, hq.contentLength_le, hfits.1, rfl, nofun, hq.nread_le, nofun⟩
    refine ⟨Nat.zero_le _, fun _ => hq.left_pos, hm, .chunk 0, ?_, hrests,
      next_lawful rfl hq.left_pos rfl hrests⟩
    rcases hm with hm | hm <;> rw [hm, hphase] <;> rfl

theorem chunkDataDone_lawful (h : q.state = .chunkDataDone) (hq : Finds q c)
    (hm : c.marked = none) : (chunkDataDone q ch).Lawful c := by
  have hphase : c.phase = .chunk 0 := by simpa [h] using hq.inPhase
  have hchunked : q.flags.chunked = true := by simpa [h] using hq.fits
  refine assertChunked_lawful hchunked ?_
  split
  · exact error_lawful rfl
  · have hrests : (q.updateState .chunkSizeStart).Rests 0 .chunks :=
      ⟨hq.errno, hq.contentLength_le, hchunked, rfl, nofun, Nat.zero_le _, fun _ => rfl⟩
    exact ⟨fun _ => hq.left_pos, hm, .chunks, by rw [hphase]; rfl, hrests,
      next_lawful hm hq.left_pos rfl hrests⟩

end Http2Asio.Http1
