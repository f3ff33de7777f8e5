import NetRedact.Proofs.Skeletons

/-!
# What a pass copies and what it replaces

The scan names spans, and the pass cuts its text at their ends.  Here both texts of a pass are written
with the spans alone: the input is the stretches between the spans with the literals between them, and
the output is the same stretches with the surrogates in the place of the literals.  Each cut is made
by the checked `slice?`, so the statement also says that no span is out of order, outside the text or
off a character boundary; in such a case the checked cut would have no result.
-/

namespace NetRedact

open NetRedact.Text NetRedact.Scan

/-! ## Cuts -/

namespace Text

/-- Cutting a text does not change it. -/
theorem splitBytes_join (bytes : Nat) (text : List Char) :
    (splitBytes bytes text).1 ++ (splitBytes bytes text).2 = text := by
  have hafter : ∀ taken : List Char, (splitBytesAfter taken bytes text).1 ++
      (splitBytesAfter taken bytes text).2 = taken.reverse ++ text := by
    induction text generalizing bytes with
    | nil => simp [splitBytesAfter]
    | cons c text ih =>
        intro taken
        unfold splitBytesAfter
        split
        · simp [ih]
        · rfl
  exact hafter []

/-- A text has a part between two offsets where both lie between characters of it. -/
theorem slice?_eq_some_iff {start stop : Nat} {text middle : List Char} :
    slice? start stop text = some middle ↔ ∃ before after, text = before ++ (middle ++ after) ∧
      start = byteLength before ∧ stop = start + byteLength middle := by
  constructor
  · intro h
    unfold slice? at h
    split at h
    · rename_i hle
      simp only [Option.ite_none_right_eq_some, Option.some.injEq] at h
      obtain ⟨⟨hfront, hmiddle⟩, rfl⟩ := h
      refine ⟨(splitBytes start text).1, (splitBytes (stop - start) (splitBytes start text).2).2,
        ?_, hfront.symm, ?_⟩
      · rw [splitBytes_join, splitBytes_join]
      · omega
    · cases h
  · rintro ⟨before, after, rfl, rfl, rfl⟩
    simp [slice?, splitBytes_append]

end Text

/-- The part of a text that a span names, if it names one. -/
def Scan.Span.cut? (text : List Char) (span : Span) : Option (List Char) :=
  slice? span.start span.stop text

/-- The stretches in front of, between and behind spans of a text that ends at byte `stop`; the first
one begins at byte `cursor`. -/
def copied (cursor stop : Nat) : List Span → List Span
  | [] => [⟨cursor, stop⟩]
  | span :: later => ⟨cursor, span.start⟩ :: copied span.stop stop later

/-- Parts with a gap in front of each one, and what is left of the gaps behind the last one. -/
def interleave : List (List Char) → List (List Char) → List Char
  | gap :: gaps, part :: parts => gap ++ (part ++ interleave gaps parts)
  | gaps, _ => gaps.flatten

/-- A pass over a text in which the scan has found the given candidates left the gaps as they were,
and in the place of the literal of each candidate it put the surrogate of its address. -/
structure Spliced (source : Source) (text : List Char) (found : List Candidate)
    (gaps literals : List (List Char)) (r : Redaction) : Prop where
  /-- The spans are not empty, and each one ends before the next one starts. -/
  ascending : Ascending found
  /-- The spans lie in the text. -/
  stop_le : ∀ c ∈ found, c.span.stop ≤ byteLength text
  /-- The stretches that are copied can all be cut out of the text. -/
  cut_gaps : (copied 0 (byteLength text) (found.map Candidate.span)).mapM (Span.cut? text) = some gaps
  /-- The literals can all be cut out of the text. -/
  cut_literals : (found.map Candidate.span).mapM (Span.cut? text) = some literals
  text_eq : text = interleave gaps literals
  result_eq : r.text = interleave gaps (found.mapIdx fun i c => source.surrogate i c.address)
  entry_literals : r.entries.map MappingEntry.literal = literals
  entry_surrogates :
    r.entries.map MappingEntry.surrogate = found.mapIdx fun i c => source.surrogate i c.address
  entry_kinds : r.entries.map MappingEntry.kind = found.map Candidate.kind
  /-- A text without candidates is not changed. -/
  unchanged : found = [] → r = ⟨text, []⟩

/-! ## Pieces and their places -/

/-- Pieces are woven by filling their gaps up, the last gap being the tail. -/
theorem interleave_pieces (part : Piece → List Char) (tail : List Char) (pieces : List Piece) :
    interleave (pieces.map Piece.gap ++ [tail]) (pieces.map part) = weave part pieces ++ tail := by
  induction pieces with
  | nil => simp [interleave, weave]
  | cons p pieces ih => simp [interleave, weave_cons, ih]

/-- The spans of pieces cut the literals out of the text, and the stretches between them cut out the
gaps.  The induction is on the pieces; `before` is the text in front of those that are left. -/
theorem cut_placed (before : List Char) {text tail : List Char} {pieces : List Piece}
    (htext : text = before ++ (weave Piece.literal pieces ++ tail)) :
    (copied (byteLength before) (byteLength text)
        ((placed Piece.literal (byteLength before) pieces).map Candidate.span)).mapM
          (Span.cut? text) = some (pieces.map Piece.gap ++ [tail]) ∧
      ((placed Piece.literal (byteLength before) pieces).map Candidate.span).mapM
        (Span.cut? text) = some (pieces.map Piece.literal) := by
  induction pieces generalizing before with
  | nil =>
      have htail : slice? (byteLength before) (byteLength text) text = some tail := by
        rw [slice?_eq_some_iff]
        refine ⟨before, [], ?_, rfl, ?_⟩
        · simpa [weave] using htext
        · simp [htext, weave]
      simp [placed, copied, Span.cut?, htail]
  | cons p pieces ih =>
      rw [weave_cons] at htext
      have hgap : slice? (byteLength before) (byteLength before + byteLength p.gap) text =
          some p.gap := by
        rw [slice?_eq_some_iff]
        exact ⟨before, p.literal ++ weave Piece.literal pieces ++ tail, by simp [htext], rfl, rfl⟩
      have hliteral : slice? (byteLength before + byteLength p.gap)
          (byteLength before + byteLength p.gap + byteLength p.literal) text = some p.literal := by
        rw [slice?_eq_some_iff]
        exact ⟨before ++ p.gap, weave Piece.literal pieces ++ tail, by simp [htext], by simp, rfl⟩
      -- For the rest, the piece belongs to the text in front.
      obtain ⟨hgaps, hliterals⟩ := ih (before ++ p.gap ++ p.literal) (by simp [htext])
      simp only [byteLength_append] at hgaps hliterals
      constructor
      · simp only [placed, copied, List.map_cons, List.mapM_cons, Span.cut?, hgap]
        show (do let gaps ← List.mapM (Span.cut? text) _; pure (p.gap :: gaps)) = _
        rw [hgaps]
        rfl
      · simp only [placed, List.map_cons, List.mapM_cons, Span.cut?, hliteral]
        show (do let literals ← List.mapM (Span.cut? text) _; pure (p.literal :: literals)) = _
        rw [hliterals]
        rfl

/-- The places of pieces have the addresses of the pieces, in their order. -/
theorem addresses_placed (part : Piece → List Char) (offset : Nat) (pieces : List Piece) :
    (placed part offset pieces).map Candidate.address = pieces.map Piece.address := by
  induction pieces generalizing offset with
  | nil => rfl
  | cons p pieces ih => rw [placed, List.map_cons, List.map_cons, ih]

/-- The surrogates of a pass are those of the candidates, counted from the first one. -/
theorem Woven.surrogates_eq_mapIdx {source : Source} {text tail : List Char} {r : Redaction}
    {pieces : List Piece} (hw : Woven source text r pieces tail) :
    pieces.map Piece.surrogate =
      (candidates text).mapIdx fun i c => source.surrogate i c.address := by
  have haddresses := addresses_placed Piece.literal 0 pieces
  rw [hw.placed_eq] at haddresses
  have hlength : (candidates text).length = pieces.length := by
    simpa using congrArg List.length haddresses
  refine List.ext_getElem (by simp [hlength]) ?_
  intro i hi hi'
  have hi : i < pieces.length := by simpa using hi
  have haddress : (candidates text)[i].address = pieces[i].address := by
    have hget := congrArg (fun addresses => addresses[i]?) haddresses
    simpa [hi, hlength] using hget
  rw [List.getElem_map, List.getElem_mapIdx, hw.surrogate_eq i hi, haddress]

/-- A text without candidates has no pieces: all of it is the tail, and it is not changed. -/
theorem Woven.eq_of_candidates_nil {source : Source} {text tail : List Char} {r : Redaction}
    {pieces : List Piece} (hw : Woven source text r pieces tail) (hnone : candidates text = []) :
    r = ⟨text, []⟩ := by
  have hpieces : pieces = [] := by
    have hplaced := hw.placed_eq
    rw [hnone] at hplaced
    cases pieces with
    | nil => rfl
    | cons p pieces => cases hplaced
  subst hpieces
  obtain ⟨resultText, entries⟩ := r
  have htext := hw.text_eq
  have hresult := hw.result_eq
  have hentries := hw.entries_eq
  simp only [weave, List.flatMap_nil, List.nil_append, List.map_nil] at htext hresult hentries
  rw [hresult, hentries, htext]

/-! ## The pass -/

/-- A pass that is not given up comes to its end, and its result is spliced from the stretches
between the candidates that the scan finds and the surrogates of these candidates. -/
theorem runUntil_spliced (source : Source) (text : List Char) :
    ∃ found gaps literals r, findCandidates text .never = .ok (found, .never) ∧
      Redaction.runUntil source text .never = .ok r ∧
      Spliced source text found gaps literals r := by
  obtain ⟨r, pieces, tail, hrun, hw⟩ := exists_woven source text
  have hcuts := cut_placed [] hw.text_eq
  rw [byteLength_nil, hw.placed_eq] at hcuts
  have hkinds := congrArg (List.map Address.kind) (addresses_placed Piece.literal 0 pieces)
  rw [hw.placed_eq, List.map_map, List.map_map] at hkinds
  refine ⟨candidates text, pieces.map Piece.gap ++ [tail], pieces.map Piece.literal, r,
    findCandidates_never text, hrun, ?_⟩
  exact
    { ascending := candidates_ascending text
      stop_le := by
        intro c hc
        rw [← hw.placed_eq] at hc
        have hbound := (placed_bounds hc).2
        rw [hw.text_eq, byteLength_append]
        omega
      cut_gaps := hcuts.1
      cut_literals := hcuts.2
      text_eq := by rw [interleave_pieces, ← hw.text_eq]
      result_eq := by rw [← hw.surrogates_eq_mapIdx, interleave_pieces, hw.result_eq]
      entry_literals := by
        rw [hw.entries_eq, List.map_map]
        rfl
      entry_surrogates := by
        rw [← hw.surrogates_eq_mapIdx, hw.entries_eq, List.map_map]
        rfl
      entry_kinds := by
        rw [hw.entries_eq, List.map_map]
        exact hkinds.symm
      unchanged := hw.eq_of_candidates_nil }

end NetRedact
