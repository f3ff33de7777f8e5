import NetRedact.Proofs.Detection
import NetRedact.Redaction

/-!
# Pieces of a pass

A pass cuts its text into gaps, which it copies, and literals, which it replaces.  The text that goes
in and the text that comes out are woven from the same pieces, one with the literals and one with the
surrogates; so whatever holds at a place of one text has a counterpart in the other.
-/

namespace NetRedact

open NetRedact.Text NetRedact.Scan

/-- A gap and the literal behind it, with the address that it spells and what took its place. -/
structure Piece where
  gap : List Char
  literal : List Char
  address : Address
  surrogate : List Char

namespace Piece

/-- The entry that records the replacement. -/
def entry (p : Piece) : MappingEntry :=
  ⟨p.literal, p.surrogate, p.address.kind⟩

end Piece

/-- The text of pieces, where `part` is the literal or the surrogate. -/
def weave (part : Piece → List Char) (pieces : List Piece) : List Char :=
  pieces.flatMap fun p => p.gap ++ part p

/-- The places that the literals or the surrogates of pieces have in a text. -/
def placed (part : Piece → List Char) (offset : Nat) : List Piece → List Candidate
  | [] => []
  | p :: later =>
    let start := offset + byteLength p.gap
    let stop := start + byteLength (part p)
    ⟨⟨start, stop⟩, p.address⟩ :: placed part stop later

/-- The places that the gaps of pieces, and the tail behind the last one, have in a text. -/
def gapSpans (part : Piece → List Char) (tail : List Char) (offset : Nat) : List Piece → List Span
  | [] => [⟨offset, offset + byteLength tail⟩]
  | p :: later =>
    let start := offset + byteLength p.gap
    ⟨offset, start⟩ :: gapSpans part tail (start + byteLength (part p)) later

/-- The pieces and the tail of a pass over a text.  They make up both texts, each literal is one of
the candidates and no candidate is left out, and the entries and surrogates are those of the
pieces. -/
structure Woven (source : Source) (text : List Char) (r : Redaction) (pieces : List Piece)
    (tail : List Char) : Prop where
  text_eq : text = weave Piece.literal pieces ++ tail
  result_eq : r.text = weave Piece.surrogate pieces ++ tail
  entries_eq : r.entries = pieces.map Piece.entry
  placed_eq : placed Piece.literal 0 pieces = candidates text
  surrogate_eq : ∀ i (hi : i < pieces.length),
    pieces[i].surrogate = source.surrogate i pieces[i].address

/-! ## Places -/

theorem weave_cons (part : Piece → List Char) (p : Piece) (pieces : List Piece) :
    weave part (p :: pieces) = p.gap ++ (part p ++ weave part pieces) := by
  simp [weave]

theorem weave_append (part : Piece → List Char) (front back : List Piece) :
    weave part (front ++ back) = weave part front ++ weave part back := by
  simp [weave]

theorem placed_append (part : Piece → List Char) (offset : Nat) (front back : List Piece) :
    placed part offset (front ++ back) =
      placed part offset front ++ placed part (offset + byteLength (weave part front)) back := by
  induction front generalizing offset with
  | nil => simp [placed, weave]
  | cons p front ih =>
      rw [List.cons_append, placed, placed, ih, weave_cons]
      simp [Nat.add_assoc]

/-- A place belongs to the piece behind some of the pieces. -/
theorem mem_placed_iff {part : Piece → List Char} {offset : Nat} {pieces : List Piece}
    {c : Candidate} :
    c ∈ placed part offset pieces ↔ ∃ front p back, pieces = front ++ p :: back ∧
      c.span.start = offset + byteLength (weave part front ++ p.gap) ∧
      c.span.stop = c.span.start + byteLength (part p) ∧ c.address = p.address := by
  induction pieces generalizing offset with
  | nil => simp [placed]
  | cons p pieces ih =>
      rw [placed, List.mem_cons, ih]
      constructor
      · rintro (rfl | ⟨front, q, back, rfl, hstart, hstop, haddress⟩)
        · exact ⟨[], p, pieces, rfl, by simp [weave], rfl, rfl⟩
        · refine ⟨p :: front, q, back, rfl, ?_, hstop, haddress⟩
          rw [hstart, weave_cons]
          simp only [byteLength_append]
          omega
      · rintro ⟨front, q, back, hpieces, hstart, hstop, haddress⟩
        cases front with
        | nil =>
            obtain ⟨rfl, rfl⟩ : p = q ∧ pieces = back := by simpa using hpieces
            left
            obtain ⟨⟨start, stop⟩, address⟩ := c
            simp only [weave, List.flatMap_nil, List.nil_append] at hstart hstop haddress
            simp [hstart, hstop, haddress]
        | cons p' front =>
            obtain ⟨rfl, rfl⟩ : p = p' ∧ pieces = front ++ q :: back := by simpa using hpieces
            refine Or.inr ⟨front, q, back, rfl, ?_, hstop, haddress⟩
            rw [hstart, weave_cons]
            simp only [byteLength_append]
            omega

/-- Every place lies within the text of its pieces. -/
theorem placed_bounds {part : Piece → List Char} {offset : Nat} {pieces : List Piece}
    {c : Candidate} (h : c ∈ placed part offset pieces) :
    offset ≤ c.span.start ∧ c.span.stop ≤ offset + byteLength (weave part pieces) := by
  obtain ⟨front, p, back, rfl, hstart, hstop, -⟩ := mem_placed_iff.mp h
  rw [weave_append, weave_cons]
  simp only [byteLength_append] at hstart hstop ⊢
  omega

/-- Gaps and places take turns, so no gap shares a byte with a place. -/
theorem gapSpans_free {part : Piece → List Char} {tail : List Char} {offset : Nat}
    {pieces : List Piece} {gap : Span} {c : Candidate} (hgap : gap ∈ gapSpans part tail offset pieces)
    (hc : c ∈ placed part offset pieces) : gap.overlaps c.span = false := by
  have hbound : ∀ {offset : Nat} {pieces : List Piece} {gap : Span},
      gap ∈ gapSpans part tail offset pieces → offset ≤ gap.start := by
    intro offset pieces
    induction pieces generalizing offset with
    | nil => simp [gapSpans]
    | cons p pieces ih =>
        intro gap hgap
        rcases List.mem_cons.mp hgap with rfl | hgap
        · exact Nat.le_refl _
        · have := ih hgap
          omega
  have hfree : ∀ {a b : Span}, a.stop ≤ b.start ∨ b.stop ≤ a.start → a.overlaps b = false := by
    intro a b h
    rw [← Bool.not_eq_true, Span.overlaps_iff]
    omega
  induction pieces generalizing offset with
  | nil => simp [placed] at hc
  | cons p pieces ih =>
      rcases List.mem_cons.mp hgap with rfl | hgap <;> rcases List.mem_cons.mp hc with rfl | hc
      · exact hfree (Or.inl (Nat.le_refl _))
      · have := (placed_bounds hc).1
        exact hfree (Or.inl (by simp only; omega))
      · have := hbound hgap
        exact hfree (Or.inr (by simp only; omega))
      · exact ih hgap hc

/-! ## The pass -/

/-- Candidates in order whose literals lie in the text from byte `cursor` on. -/
structure Located (cursor : Nat) (rest : List Char) (cs : List Candidate) : Prop where
  pairwise : cs.Pairwise fun earlier later => earlier.span.stop ≤ later.span.start
  exists_cut : ∀ c ∈ cs, ∃ before literal after, rest = before ++ (literal ++ after) ∧
    c.span = ⟨cursor + byteLength before, cursor + byteLength before + byteLength literal⟩

/-- What is left of the text behind the first literal has the others in it. -/
private theorem Located.tail {cursor : Nat} {before literal after : List Char} {c : Candidate}
    {cs : List Candidate} (h : Located cursor (before ++ (literal ++ after)) (c :: cs))
    (hc : c.span = ⟨cursor + byteLength before, cursor + byteLength before + byteLength literal⟩) :
    Located c.span.stop after cs := by
  obtain ⟨hfirst, hpairwise⟩ := List.pairwise_cons.mp h.pairwise
  refine ⟨hpairwise, ?_⟩
  intro c' hc'
  obtain ⟨before', literal', after', heq, hspan⟩ := h.exists_cut c' (by simp [hc'])
  have hle := hfirst c' hc'
  rw [hc, hspan] at hle
  simp only at hle
  rw [← List.append_assoc] at heq
  obtain ⟨middle, rfl, hafter⟩ := append_eq_append_of_byteLength_le heq
    (by simp only [byteLength_append]; omega)
  refine ⟨middle, literal', after', hafter, ?_⟩
  rw [hspan, hc]
  simp only [byteLength_append, Span.mk.injEq]
  omega

/-- A pass that is not given up puts the surrogates of pieces in the place of their literals, and then
goes on with what is behind them. -/
theorem Redaction.splice_weave (source : Source) (output : List Char) (entries : List MappingEntry)
    (occurrence cursor : Nat) (rest : List Char) (later : List Candidate) {pieces : List Piece}
    (hsurrogates : ∀ i (hi : i < pieces.length),
      pieces[i].surrogate = source.surrogate (occurrence + i) pieces[i].address) :
    splice source output entries occurrence cursor (weave Piece.literal pieces ++ rest)
        (placed Piece.literal cursor pieces ++ later) .never =
      splice source ((weave Piece.surrogate pieces).reverse ++ output)
        ((pieces.map Piece.entry).reverse ++ entries) (occurrence + pieces.length)
        (cursor + byteLength (weave Piece.literal pieces)) rest later .never := by
  induction pieces generalizing output entries occurrence cursor with
  | nil => simp [placed, weave]
  | cons p pieces ih =>
      have hsurrogate : source.surrogate occurrence p.address = p.surrogate :=
        (hsurrogates 0 (by simp)).symm
      have hlater : ∀ i (hi : i < pieces.length),
          pieces[i].surrogate = source.surrogate (occurrence + 1 + i) pieces[i].address := by
        intro i hi
        have := hsurrogates (i + 1) (by simpa using hi)
        simpa [Nat.add_assoc, Nat.add_comm 1] using this
      -- The pass cuts the text by bytes, and the cuts are those of the piece.
      have hgap : cursor + byteLength p.gap - cursor = byteLength p.gap := by omega
      have hliteral : cursor + byteLength p.gap + byteLength p.literal -
          (cursor + byteLength p.gap) = byteLength p.literal := by omega
      rw [placed, List.cons_append, splice, weave_cons]
      simp only [Cancellation.check, hgap, hliteral, List.append_assoc, splitBytes_append,
        hsurrogate, ih _ _ _ _ hlater]
      simp [weave_cons, Piece.entry, Candidate.kind, Nat.add_assoc, Nat.add_comm 1]

/-- Candidates that are located in a text cut it into pieces, one for each of them.  The induction is
on the candidates; the text behind the first one is what the others are located in. -/
theorem Located.exists_pieces (source : Source) (occurrence : Nat) {cursor : Nat} {rest : List Char}
    {cs : List Candidate} (h : Located cursor rest cs) :
    ∃ pieces tail, rest = weave Piece.literal pieces ++ tail ∧
      placed Piece.literal cursor pieces = cs ∧
      ∀ i (hi : i < pieces.length),
        pieces[i].surrogate = source.surrogate (occurrence + i) pieces[i].address := by
  induction cs generalizing occurrence cursor rest with
  | nil => exact ⟨[], rest, rfl, rfl, by simp⟩
  | cons c cs ih =>
      obtain ⟨before, literal, after, rfl, hspan⟩ := h.exists_cut c (by simp)
      obtain ⟨pieces, tail, rfl, hplaced, hsurrogates⟩ := ih (occurrence + 1) (h.tail hspan)
      refine ⟨⟨before, literal, c.address, source.surrogate occurrence c.address⟩ :: pieces, tail,
        ?_, ?_, ?_⟩
      · simp [weave_cons]
      · have hstop : c.span.stop = cursor + byteLength before + byteLength literal := by rw [hspan]
        rw [placed]
        simp only [← hstop, hplaced]
        rw [hstop, ← hspan]
      · intro i hi
        cases i with
        | zero => rfl
        | succ i =>
            have := hsurrogates i (by simpa using hi)
            simpa [Nat.add_assoc, Nat.add_comm 1] using this

/-- A pass that is not given up takes the candidates of its text from left to right. -/
theorem Redaction.run_eq (source : Source) (text : List Char) :
    run source text = splice source [] [] 0 0 text (candidates text) .never := by
  rw [run, runUntil, findCandidates_never]
  rfl

/-- Pieces whose literals are the candidates of their text are what the pass weaves its result
from. -/
theorem run_of_placed (source : Source) {text tail : List Char} {pieces : List Piece}
    (htext : text = weave Piece.literal pieces ++ tail)
    (hplaced : placed Piece.literal 0 pieces = candidates text)
    (hsurrogates : ∀ i (hi : i < pieces.length),
      pieces[i].surrogate = source.surrogate i pieces[i].address) :
    Redaction.run source text =
      .ok ⟨weave Piece.surrogate pieces ++ tail, pieces.map Piece.entry⟩ := by
  have hsplice := Redaction.splice_weave source [] [] 0 0 tail [] (by simpa using hsurrogates)
  rw [← htext, List.append_nil, hplaced, ← Redaction.run_eq, Redaction.splice] at hsplice
  simpa using hsplice

/-- A pass that is not given up comes to its end, and its result is woven from pieces. -/
theorem exists_woven (source : Source) (text : List Char) :
    ∃ r pieces tail, Redaction.run source text = .ok r ∧ Woven source text r pieces tail := by
  have hlocated : Located 0 text (candidates text) := by
    refine ⟨(candidates_ascending text).pairwise, ?_⟩
    intro c hc
    obtain ⟨before, literal, after, htext, hspan, -⟩ := stands_of_mem_candidates hc
    exact ⟨before, literal, after, htext, by simpa [spanOf] using hspan⟩
  obtain ⟨pieces, tail, htext, hplaced, hsurrogates⟩ := hlocated.exists_pieces source 0
  have hsurrogates : ∀ i (hi : i < pieces.length),
      pieces[i].surrogate = source.surrogate i pieces[i].address := by simpa using hsurrogates
  exact ⟨⟨weave Piece.surrogate pieces ++ tail, pieces.map Piece.entry⟩, pieces, tail,
    run_of_placed source htext hplaced hsurrogates, htext, rfl, rfl, hplaced, hsurrogates⟩

end NetRedact
