import Http2Asio.Http1.Chunking
import Http2Asio.Http1.Lifetime

/-!
# How the input is cut

A user of the parser feeds it what the socket delivers: `executeAll` is the loop of such a
user.  In every state of the life of a parser, a call does what the plain parser does on its
buffer (`execute_plain`), so two ways to cut the same input come to the same
(`executeAll_cuts`).

Two things are left out on purpose.  `nread` counts the bytes of a header with some of them
counted twice at the end of a buffer, so the cut decides about inputs close to the limit
(`HPE_HEADER_OVERFLOW`).  And what a callback got of a field before an error of the input
depends on the marks.
-/

namespace Http2Asio.Http1

open Feeding Transition

section Cuts

variable {σ : Type} (S : HttpParserSettings σ)

/-- Feeds the buffers one after the other, up to an error, a pause or a change of the
protocol. -/
def executeAll : HttpParser → σ → List (List UInt8) → Option (Returned σ)
  | parser, user, [] => some ⟨0, parser, user⟩
  | parser, user, data :: datas =>
      (httpParserExecute S parser user data).bind fun r =>
        if r.parser.httpErrno = .ok ∧ r.parser.upgrade = false then
          (executeAll r.parser r.user datas).map fun r' => { r' with count := r.count + r'.count }
        else some r

/-- Buffers that a socket delivers: not empty, and of less than 4 GiB less the limit on the
header. -/
def Buffers (datas : List (List UInt8)) : Prop :=
  ∀ data ∈ datas, data ≠ [] ∧ data.length + httpMaxHeaderSize < 0x100000000

instance (datas : List (List UInt8)) : Decidable (Buffers datas) :=
  inferInstanceAs (Decidable (∀ data ∈ datas, _ ∧ _))

variable {S} {act : DataCb → List UInt8 → σ → σ} {t : HttpParserType} {user : σ} {φ : Phase}
  {data : List UInt8} {datas datas' : List (List UInt8)} {s : Life σ} {r r' : Returned σ}

/-- The buffers together are one input of the plain parser. -/
theorem executeAll_plain (hS : Incremental S act) {parser : HttpParser} {u : σ}
    (hsound : parser.Sound φ) (herrno : parser.httpErrno = .ok) (hdatas : Buffers datas)
    (hr : executeAll S parser u datas = some r) (hupgrade : r.parser.upgrade = false) :
    r.parser.httpErrno = .headerOverflow ∨
      EndsPlain S (parser.toRegisters, u) datas.flatten r.count r.parser r.user := by
  induction datas generalizing parser u φ r with
  | nil =>
      cases hr
      exact Or.inr ⟨u, false, rfl, fun _ => rfl, nofun, fun _ => herrno⟩
  | cons data datas ih =>
      obtain ⟨hdata, hsmall⟩ := hdatas data List.mem_cons_self
      obtain ⟨r₁, hr₁, -, ψ, -, hsound₁⟩ :=
        httpParserExecute_sound (Tracks.trivial S) (φ := φ) (u := u) True.intro hsound data
      have hfirst := httpParserExecute_plain hS hsound herrno hdata hsmall hr₁
      rw [executeAll, hr₁, Option.bind_some] at hr
      split at hr
      -- the call took the whole buffer, and the next one goes on where it stopped
      next hgo =>
        obtain ⟨r₂, hr₂, rfl⟩ := Option.map_eq_some_iff.mp hr
        have hfirst := hfirst.resolve_left fun h => by simp [hgo.1] at h
        obtain ⟨u₁, stopped, hfeed, huser, hstopped, -⟩ := hfirst
        obtain rfl : u₁ = r₁.user := huser (by rw [hgo.1]; rfl)
        obtain rfl : stopped = false := by
          by_contra hne
          rcases hstopped (by simpa using hne) with hbad | hbad
          · exact hbad hgo.1
          · exact absurd (hgo.2.symm.trans hbad) Bool.false_ne_true
        have hcount : r₁.count = data.length := by
          have hcount : ((plainParser S).feed (parser.toRegisters, u) data).stopped = false →
              ((plainParser S).feed (parser.toRegisters, u) data).count = data.length :=
            Feeder.feed_count
          rw [hfeed] at hcount
          exact hcount rfl
        rw [hcount] at hfeed
        rcases ih hsound₁ hgo.1 (fun d hd => hdatas d (List.mem_cons_of_mem _ hd)) hr₂ hupgrade with
          hover | ⟨u₂, stopped, hfeed₂, hend⟩
        · exact Or.inl hover
        · refine Or.inr ⟨u₂, stopped, ?_, hend⟩
          rw [List.flatten_cons, Feeder.feed_append_goes hfeed, hfeed₂, hcount]
      -- the call is the last one, and so is the byte that the plain parser stopped at
      next hstop =>
        obtain rfl : r₁ = r := Option.some.inj hr
        have hbad : r₁.parser.httpErrno ≠ .ok := fun h => hstop ⟨h, hupgrade⟩
        rcases hfirst with hover | ⟨u₁, stopped, hfeed, huser, hstopped, hgoes⟩
        · exact Or.inl hover
        · refine Or.inr ⟨u₁, stopped, ?_, huser, hstopped, hgoes⟩
          have htrue : stopped = true := by
            by_contra hne
            exact hbad (hgoes (by simpa using hne))
          rw [List.flatten_cons, Feeder.feed_append_stops (by rw [hfeed]; exact htrue), hfeed]

/-- A sound parser without an error in every reachable state. -/
theorem parserSystem_sound (hs : (parserSystem S t user).Reachable s) : ∃ φ, s.1.Sound φ := by
  obtain ⟨φ, -, hsound⟩ := (parserSystem_invariant (Tracks.trivial S) True.intro).reachable hs
  exact ⟨φ, hsound⟩

/-- **A buffer is its bytes.**  In every reachable state a call ends as the plain parser does,
which gets one byte at a time: with the same registers, after as many bytes, and with the
same state of the callbacks. -/
theorem execute_plain (hS : Incremental S act) (hs : (parserSystem S t user).Reachable s)
    (herrno : s.1.httpErrno = .ok) (hdata : data ≠ [])
    (hsmall : data.length + httpMaxHeaderSize < 0x100000000)
    (hr : httpParserExecute S s.1 s.2 data = some r) :
    r.parser.httpErrno = .headerOverflow ∨
      EndsPlain S (s.1.toRegisters, s.2) data r.count r.parser r.user := by
  obtain ⟨φ, hsound⟩ := parserSystem_sound hs
  exact httpParserExecute_plain hS hsound herrno hdata hsmall hr

/-- **The cut does not matter.**  Two ways to cut the same input into buffers leave the same
registers after the same number of bytes, and the same state of the callbacks unless the
input was in error. -/
theorem executeAll_cuts (hS : Incremental S act) (hs : (parserSystem S t user).Reachable s)
    (herrno : s.1.httpErrno = .ok) (hdatas : Buffers datas) (hdatas' : Buffers datas')
    (hsame : datas.flatten = datas'.flatten)
    (hr : executeAll S s.1 s.2 datas = some r) (hr' : executeAll S s.1 s.2 datas' = some r')
    (hover : r.parser.httpErrno ≠ .headerOverflow)
    (hover' : r'.parser.httpErrno ≠ .headerOverflow)
    (hupgrade : r.parser.upgrade = false) (hupgrade' : r'.parser.upgrade = false) :
    r.count = r'.count ∧ r.parser.toRegisters = r'.parser.toRegisters ∧
      (r.parser.httpErrno.parsing = false → r.user = r'.user) := by
  obtain ⟨φ, hsound⟩ := parserSystem_sound hs
  obtain ⟨u, stopped, hfeed, huser, -⟩ :=
    (executeAll_plain hS hsound herrno hdatas hr hupgrade).resolve_left hover
  obtain ⟨u', stopped', hfeed', huser', -⟩ :=
    (executeAll_plain hS hsound herrno hdatas' hr' hupgrade').resolve_left hover'
  rw [← hsame, hfeed] at hfeed'
  obtain ⟨hstate, hcount, -⟩ := Fed.mk.inj hfeed'
  obtain ⟨hregisters, rfl⟩ := Prod.mk.inj hstate
  refine ⟨hcount, hregisters, fun h => ?_⟩
  rw [← huser h, ← huser' (by rwa [← hregisters])]

end Cuts

theorem collecting_incremental (k : DataCb) :
    Incremental (collecting k) fun k' bytes u => if k' = k then u ++ bytes else u where
  data k' f hf v bytes u := by
    by_cases hk : k' = k
    · simp only [collecting, if_pos hk, Option.some.injEq] at hf
      rw [← hf, if_pos hk]
    · simp [collecting, hk] at hf
  absent k' hk' bytes u := by
    by_cases hk : k' = k
    · simp [collecting, hk] at hk'
    · exact if_neg hk
  nil k' u := by
    split <;> simp
  append k' a b u := by
    split <;> simp

/-- A request target that comes in two buffers. -/
theorem execute_plain_target :
    ∃ s r, (parserSystem (collecting .url) .request []).Reachable s ∧
      httpParserExecute (collecting .url) s.1 s.2 (ascii "bc HTTP/1.1") = some r ∧
        EndsPlain (collecting .url) (s.1.toRegisters, s.2) (ascii "bc HTTP/1.1") r.count r.parser
          r.user := by
  have hsome : ((parserSystem (collecting .url) .request []).run (httpParserInit .request, [])
      [.execute (ascii "GET /a")]).isSome = true := by
    decide +kernel
  have herrno : (Option.get _ hsome).1.httpErrno = .ok := by
    decide +kernel +revert
  have hr : (httpParserExecute (collecting .url) (Option.get _ hsome).1 (Option.get _ hsome).2
      (ascii "bc HTTP/1.1")).isSome = true := by
    clear herrno
    decide +kernel +revert
  have hover : (Option.get _ hr).parser.httpErrno ≠ .headerOverflow := by
    clear herrno
    decide +kernel +revert
  have hs := System.Reachable.run (System.Reachable.of_init rfl) (Option.some_get hsome).symm
  have hplain := execute_plain (collecting_incremental .url) hs herrno (by decide) (by decide)
    (Option.some_get hr).symm
  exact ⟨_, _, hs, (Option.some_get hr).symm, hplain.resolve_left hover⟩

/-- A request in two buffers and in three. -/
theorem executeAll_cuts_request :
    ∃ r r', executeAll (collecting .url) (httpParserInit .request) []
        [ascii "GET /a", ascii "bc HTTP/1.1\r\n"] = some r ∧
      executeAll (collecting .url) (httpParserInit .request) []
        [ascii "GE", ascii "T /abc HTT", ascii "P/1.1\r\n"] = some r' ∧
      r.count = r'.count ∧ r.parser.toRegisters = r'.parser.toRegisters ∧ r.user = r'.user := by
  have hsome : (executeAll (collecting .url) (httpParserInit .request) []
      [ascii "GET /a", ascii "bc HTTP/1.1\r\n"]).isSome = true := by
    decide +kernel
  have hsome' : (executeAll (collecting .url) (httpParserInit .request) []
      [ascii "GE", ascii "T /abc HTT", ascii "P/1.1\r\n"]).isSome = true := by
    decide +kernel
  have hclean : (Option.get _ hsome).parser.httpErrno = .ok ∧
      (Option.get _ hsome).parser.upgrade = false := by
    clear hsome'
    decide +kernel +revert
  have hclean' : (Option.get _ hsome').parser.httpErrno = .ok ∧
      (Option.get _ hsome').parser.upgrade = false := by
    clear hclean hsome
    decide +kernel +revert
  have hs : (parserSystem (collecting .url) .request []).Reachable (httpParserInit .request, []) :=
    System.Reachable.of_init rfl
  obtain ⟨hcount, hregisters, huser⟩ := executeAll_cuts (collecting_incremental .url) hs rfl
    (by decide) (by decide) (by decide) (Option.some_get hsome).symm (Option.some_get hsome').symm
    (by rw [hclean.1]; nofun) (by rw [hclean'.1]; nofun) hclean.2 hclean'.2
  exact ⟨_, _, (Option.some_get hsome).symm, (Option.some_get hsome').symm, hcount, hregisters,
    huser (by rw [hclean.1]; rfl)⟩

end Http2Asio.Http1
