import NetRedact.Proofs.Weaving

/-!
# What a random pass shows

A pass with random surrogates shows of its text what it copies, and of each literal the place, the
kind and, for a MAC address, the layout.  It shows nothing of the octets of the literals, of their
spelling or of their length: texts that a scan cuts into the same gaps, with literals of the same
kinds and layouts between them, cannot be told apart by their results.
-/

namespace NetRedact

open NetRedact.Text NetRedact.Scan

/-! ## Skeletons -/

/-- The texts between spans that stand in ascending order and without overlaps, and those in front of
the first and behind the last one; `rest` is the text from byte `cursor` on. -/
def gaps (cursor : Nat) (rest : List Char) : List Span → List (List Char)
  | [] => [rest]
  | span :: later =>
    let (gap, rest) := splitBytes (span.start - cursor) rest
    let (_, rest) := splitBytes (span.stop - span.start) rest
    gap :: gaps span.stop rest later

/-- The kind of an address, and the layout if it has one. -/
def Address.shape (address : Address) : AddressKind × Option MacStyle :=
  (address.kind, address.style?)

/-- What remains of a text without its literals. -/
structure Skeleton where
  gaps : List (List Char)
  shapes : List (AddressKind × Option MacStyle)
  deriving DecidableEq

/-- The skeleton of a text in which a scan has found the given candidates. -/
def skeleton (text : List Char) (found : List Candidate) : Skeleton :=
  ⟨gaps 0 text (found.map Candidate.span), found.map fun c => c.address.shape⟩

/-! ## Surrogates -/

/-- What a literal is rendered like is its kind and layout. -/
theorem renderLike_of_shape {address address' : Address} (h : address.shape = address'.shape)
    (bytes : List UInt8) : renderLike address bytes = renderLike address' bytes := by
  obtain ⟨hkind, hstyle⟩ := Prod.mk.inj h
  cases address with
  | ipv4 octets =>
      cases address' with
      | ipv4 octets' => rfl
      | ipv6 octets' => cases hkind
      | mac octets' style' => cases hkind
  | ipv6 octets =>
      cases address' with
      | ipv4 octets' => cases hkind
      | ipv6 octets' => rfl
      | mac octets' style' => cases hkind
  | mac octets style =>
      cases address' with
      | ipv4 octets' => cases hkind
      | ipv6 octets' => cases hkind
      | mac octets' style' =>
          cases hstyle
          rfl

/-- The pieces of a pass have the gaps that the scan leaves. -/
theorem gaps_placed (tail : List Char) (cursor : Nat) (pieces : List Piece) :
    gaps cursor (weave Piece.literal pieces ++ tail)
      ((placed Piece.literal cursor pieces).map Candidate.span) = pieces.map Piece.gap ++ [tail] := by
  induction pieces generalizing cursor with
  | nil => rfl
  | cons p pieces ih =>
      rw [placed, List.map_cons, gaps, weave_cons]
      simp only [Nat.add_sub_cancel_left, List.append_assoc, splitBytes_append, ih, List.map_cons,
        List.cons_append]

/-- The pieces of a pass have the kinds and layouts of the candidates. -/
theorem shapes_placed (part : Piece → List Char) (offset : Nat) (pieces : List Piece) :
    (placed part offset pieces).map (fun c => c.address.shape) =
      pieces.map fun p => p.address.shape := by
  induction pieces generalizing offset with
  | nil => rfl
  | cons p pieces ih => rw [placed, List.map_cons, List.map_cons, ih]

/-- Pieces are woven by filling their gaps up. -/
theorem weave_eq_zipWith (part : Piece → List Char) (pieces : List Piece) :
    weave part pieces =
      (List.zipWith (· ++ ·) (pieces.map Piece.gap) (pieces.map part)).flatten := by
  induction pieces with
  | nil => rfl
  | cons p pieces ih => simp [weave_cons, ih]

namespace Woven

/-- The skeleton of a text is that of the pieces of the pass. -/
theorem skeleton_eq {source : Source} {text tail : List Char} {r : Redaction} {pieces : List Piece}
    (hw : Woven source text r pieces tail) :
    skeleton text (candidates text) =
      ⟨pieces.map Piece.gap ++ [tail], pieces.map fun p => p.address.shape⟩ := by
  unfold skeleton
  rw [← hw.placed_eq, shapes_placed]
  conv => lhs; rw [hw.text_eq]
  rw [gaps_placed]

/-- With the same draws, literals of the same kinds and layouts have the same surrogates. -/
theorem surrogates_eq {draws : Nat → Octets 16} {text text' tail tail' : List Char}
    {r r' : Redaction} {pieces pieces' : List Piece} (hw : Woven (.random draws) text r pieces tail)
    (hw' : Woven (.random draws) text' r' pieces' tail')
    (hshapes : pieces.map (fun p => p.address.shape) = pieces'.map fun p => p.address.shape) :
    pieces.map Piece.surrogate = pieces'.map Piece.surrogate := by
  have hlength : pieces.length = pieces'.length := by
    simpa using congrArg List.length hshapes
  refine List.ext_getElem (by simpa using hlength) ?_
  intro i hi hi'
  have hi : i < pieces.length := by simpa using hi
  have hi' : i < pieces'.length := by simpa using hi'
  have hshape : pieces[i].address.shape = pieces'[i].address.shape := by
    have hget := congrArg (fun shapes => shapes[i]?) hshapes
    simpa [hi, hi'] using hget
  rw [List.getElem_map, List.getElem_map, hw.surrogate_eq i hi, hw'.surrogate_eq i hi']
  exact renderLike_of_shape hshape _

end Woven

/-- Passes with the same draws over texts of the same skeleton have the same result, but for the
literals in the entries: the texts are equal, and so are the surrogates and the kinds in their
order. -/
theorem random_runs_agree {text text' : List Char} {found found' : List Candidate}
    (draws : Nat → Octets 16) (hscan : findCandidates text .never = .ok (found, .never))
    (hscan' : findCandidates text' .never = .ok (found', .never))
    (hskeleton : skeleton text found = skeleton text' found') :
    ∃ r r', Redaction.run (.random draws) text = .ok r ∧
      Redaction.run (.random draws) text' = .ok r' ∧ r.text = r'.text ∧
      r.entries.map MappingEntry.surrogate = r'.entries.map MappingEntry.surrogate ∧
      r.entries.map MappingEntry.kind = r'.entries.map MappingEntry.kind := by
  obtain ⟨r, pieces, tail, hrun, hw⟩ := exists_woven (.random draws) text
  obtain ⟨r', pieces', tail', hrun', hw'⟩ := exists_woven (.random draws) text'
  rw [findCandidates_never] at hscan hscan'
  cases hscan
  cases hscan'
  rw [hw.skeleton_eq, hw'.skeleton_eq] at hskeleton
  obtain ⟨hgaps, hshapes⟩ := Skeleton.mk.inj hskeleton
  obtain ⟨hgaps, htail⟩ := List.append_inj' hgaps rfl
  have hsurrogates := hw.surrogates_eq hw' hshapes
  refine ⟨r, r', hrun, hrun', ?_, ?_, ?_⟩
  · rw [hw.result_eq, hw'.result_eq, weave_eq_zipWith, weave_eq_zipWith, hgaps, hsurrogates,
      List.singleton_inj.mp htail]
  · rw [hw.entries_eq, hw'.entries_eq, List.map_map, List.map_map]
    exact hsurrogates
  · have hkinds := congrArg (List.map Prod.fst) hshapes
    rw [List.map_map, List.map_map] at hkinds
    rw [hw.entries_eq, hw'.entries_eq, List.map_map, List.map_map]
    exact hkinds

/-- A scan whose detectors find literals of the three kinds one behind the other finds all of
them. -/
theorem findCandidates_of_found {text : List Char} (ipv6 ipv4 mac : List Candidate)
    (hipv6 : Detector.ipv6.found text = ipv6) (hipv4 : Detector.ipv4.found text = ipv4)
    (hmac : Detector.mac.found text = mac) (hascending : Ascending (ipv6 ++ ipv4 ++ mac)) :
    findCandidates text .never = .ok (ipv6 ++ ipv4 ++ mac, .never) := by
  have hhigher : Ascending (ipv6 ++ ipv4) :=
    ⟨(List.pairwise_append.mp hascending.pairwise).1,
      fun c hc => hascending.nonempty c (List.mem_append_left _ hc)⟩
  rw [findCandidates_never, candidates, hipv6, hipv4, hmac, mergeDisjoint_eq_append hhigher,
    mergeDisjoint_eq_append hascending]

/-- Two lines with three literals each, which differ in their octets, their spelling and their
length. -/
theorem random_runs_agree_three_kinds :
    let text := "on ::1 and 10.0.0.1 by 00-11-22-33-44-55.".toList
    let text' := "on 2001:DB8::7 and 192.168.7.77 by AA-bb-CC-dd-EE-ff.".toList
    let found : List Candidate := [⟨⟨3, 6⟩, .ipv6 #v[0, 0, 0, 0, 0, 0, 0, 0, 0, 0, 0, 0, 0, 0, 0, 1]⟩,
      ⟨⟨11, 19⟩, .ipv4 #v[10, 0, 0, 1]⟩, ⟨⟨23, 40⟩, .mac #v[0, 17, 34, 51, 68, 85] .hyphen⟩]
    let found' : List Candidate :=
      [⟨⟨3, 14⟩, .ipv6 #v[32, 1, 13, 184, 0, 0, 0, 0, 0, 0, 0, 0, 0, 0, 0, 7]⟩,
        ⟨⟨19, 31⟩, .ipv4 #v[192, 168, 7, 77]⟩,
        ⟨⟨35, 52⟩, .mac #v[170, 187, 204, 221, 238, 255] .hyphen⟩]
    let source : Source := .random fun occurrence => .replicate 16 (UInt8.ofNat occurrence)
    findCandidates text .never = .ok (found, .never) ∧
      findCandidates text' .never = .ok (found', .never) ∧
      skeleton text found = skeleton text' found' ∧
      ∃ r r', Redaction.run source text = .ok r ∧ Redaction.run source text' = .ok r' ∧
        r.text = r'.text ∧
        r.entries.map MappingEntry.surrogate = r'.entries.map MappingEntry.surrogate ∧
        r.entries.map MappingEntry.kind = r'.entries.map MappingEntry.kind := by
  intro text text' found found' source
  have hscan : findCandidates text .never = .ok (found, .never) :=
    findCandidates_of_found (found.take 1) ((found.drop 1).take 1) (found.drop 2)
      (by decide +kernel) (by decide +kernel) (by decide +kernel) ⟨by decide, by decide⟩
  have hscan' : findCandidates text' .never = .ok (found', .never) :=
    findCandidates_of_found (found'.take 1) ((found'.drop 1).take 1) (found'.drop 2)
      (by decide +kernel) (by decide +kernel) (by decide +kernel) ⟨by decide, by decide⟩
  have hskeleton : skeleton text found = skeleton text' found' := by decide +kernel
  exact ⟨hscan, hscan', hskeleton, random_runs_agree _ hscan hscan' hskeleton⟩

end NetRedact
