import NetRedact.Proofs.Overhang
import NetRedact.Proofs.Splicing

/-!
# Literals that overlap

The three detectors look at the same text, each for itself, and their literals may share bytes.  For
two literals of different kinds this happens in one way only: an IPv4 literal is the dotted tail of
an IPv6 literal.  It then lies strictly inside of it, behind a colon, and ends where it ends.  A MAC
literal shares no byte with any other.  So the join, which drops an incoming candidate for one shared
byte, drops the embedded tails and nothing else.

Each pair of kinds is treated in the same way.  A literal has no clear side at an inner place, for
its own detector or one that blocks more.  Hence the literal of a detector that blocks more cannot
begin or end inside of one whose detector blocks less, and covers it if they share a byte.  What is
left is a literal inside of another one.
-/

namespace NetRedact.Scan

open NetRedact.Text

/-! ## Covering -/

/-- A side that is clear stays so when fewer separators are blocked. -/
theorem isClear_of_subset {blocked blocked' side : List Char} (hsub : blocked ⊆ blocked')
    (hclear : isClear blocked' side = true) : isClear blocked side = true := by
  cases side with
  | nil => rfl
  | cons c rest =>
      by_cases hdot : c = '.'
      · subst hdot
        cases rest with
        | nil => rfl
        | cons d rest => exact hclear
      · rw [isClear_cons hdot] at hclear ⊢
        simp only [Bool.not_eq_true', Bool.or_eq_false_iff, List.contains_eq_mem,
          decide_eq_false_iff_not] at hclear ⊢
        exact ⟨hclear.1, fun hmem => hclear.2 (hsub hmem)⟩

/-- A text without a clear side at an inner place has none when more separators are blocked. -/
theorem Linked.mono {blocked blocked' cs : List Char} (h : Linked blocked cs)
    (hsub : blocked ⊆ blocked') : Linked blocked' cs := by
  constructor
  · intro front back beyond hcs hne
    apply Bool.eq_false_iff.mpr
    intro hclear
    have hfalse := h.before front back beyond hcs hne
    rw [isClear_of_subset hsub hclear] at hfalse
    contradiction
  · intro front back beyond hcs hne
    apply Bool.eq_false_iff.mpr
    intro hclear
    have hfalse := h.after front back beyond hcs hne
    rw [isClear_of_subset hsub hclear] at hfalse
    contradiction

/-- What has clear sides cannot begin or end inside of a linked text, so it covers the text if they
share a byte. -/
theorem covers_of_linked {blocked before literal after before' literal' after' : List Char}
    (htext : before ++ (literal ++ after) = before' ++ (literal' ++ after'))
    (hlinked : Linked blocked literal) (hbefore : isClear blocked before'.reverse = true)
    (hafter : isClear blocked after' = true)
    (hoverlaps : (spanOf before literal).overlaps (spanOf before' literal') = true) :
    ∃ x z, literal' = x ++ (literal ++ z) ∧ before = before' ++ x ∧ after = z ++ after' := by
  obtain ⟨hstart, hstart'⟩ := (Span.overlaps_iff _ _).mp hoverlaps
  simp only [spanOf] at hstart hstart'
  have hfront : byteLength before' ≤ byteLength before := by
    by_contra hlt
    obtain ⟨y, rfl, hrest⟩ := append_eq_append_of_byteLength_le htext (by omega)
    rw [byteLength_append] at hlt hstart'
    obtain ⟨y', hliteral, -⟩ := append_eq_append_of_byteLength_le hrest.symm (by omega)
    have hne : y ≠ [] := by
      rintro rfl
      simp at hlt
    have hfalse := hlinked.before y y' before.reverse hliteral hne
    rw [← List.reverse_append, hbefore] at hfalse
    contradiction
  obtain ⟨x, rfl, hrest⟩ := append_eq_append_of_byteLength_le htext.symm hfront
  rw [byteLength_append] at hstart hstart'
  rw [← List.append_assoc] at hrest
  have hback : byteLength (x ++ literal) ≤ byteLength literal' := by
    by_contra hlt
    obtain ⟨y, hwhole, rfl⟩ := append_eq_append_of_byteLength_le hrest (by omega)
    obtain ⟨w, -, hliteral⟩ := append_eq_append_of_byteLength_le hwhole (by omega)
    have hne : y ≠ [] := by
      rintro rfl
      rw [hwhole, List.append_nil] at hlt
      exact hlt (Nat.le_refl _)
    have hfalse := hlinked.after w y after hliteral hne
    rw [hafter] at hfalse
    contradiction
  obtain ⟨z, hliteral, hafter'⟩ := append_eq_append_of_byteLength_le hrest.symm hback
  exact ⟨x, z, by rw [hliteral, List.append_assoc], rfl, hafter'⟩

/-- If the detector of one kind blocks all that the other one's does, its literals cover those of the
other kind that they share a byte with. -/
theorem StandsOn.covers {text : List Char} {kind kind' : AddressKind} {span span' : Span}
    (h : StandsOn text kind span) (h' : StandsOn text kind' span')
    (hsub : (detectorOf kind).blocked ⊆ (detectorOf kind').blocked)
    (hoverlaps : span.overlaps span' = true) :
    ∃ before x literal z after, text = before ++ ((x ++ (literal ++ z)) ++ after) ∧
      span = spanOf (before ++ x) literal ∧ span' = spanOf before (x ++ (literal ++ z)) ∧
      IsLiteral kind literal ∧ IsLiteral kind' (x ++ (literal ++ z)) ∧
      isClear (detectorOf kind).blocked (before ++ x).reverse = true ∧
      isClear (detectorOf kind).blocked (z ++ after) = true := by
  obtain ⟨before, literal, after, htext, rfl, hliteral, hbefore, hafter⟩ := h
  obtain ⟨before', literal', after', htext', rfl, hliteral', hbefore', hafter'⟩ := h'
  have hlinked : Linked (detectorOf kind').blocked literal :=
    ((detectorOf_faithful kind).linked literal (shaped_of_isLiteral hliteral)).mono hsub
  obtain ⟨x, z, rfl, rfl, rfl⟩ :=
    covers_of_linked (htext.symm.trans htext') hlinked hbefore' hafter' hoverlaps
  exact ⟨before', x, literal, z, after', htext', rfl, rfl, hliteral, hliteral', hbefore, hafter⟩

/-! ## MAC literals -/

/-- A MAC literal shares no byte with a literal of another kind. -/
theorem StandsOn.overlaps_mac {text : List Char} {kind : AddressKind} {span span' : Span}
    (h : StandsOn text kind span) (hmac : StandsOn text .mac span') (hkind : kind ≠ .mac) :
    span.overlaps span' = false := by
  apply Bool.eq_false_iff.mpr
  intro hoverlaps
  have hsub : (detectorOf kind).blocked ⊆ (detectorOf .mac).blocked := by
    cases kind <;> decide
  obtain ⟨before, x, literal, z, after, -, -, -, hliteral, hwhole, hbefore, hafter⟩ :=
    h.covers hmac hsub hoverlaps
  -- Inside of a MAC literal there is no literal with clear sides but itself.
  obtain ⟨style, hfits⟩ := exists_fits_of_macShape hwhole (.replicate 6 0)
  rw [List.reverse_append] at hbefore
  obtain ⟨-, -, hsame⟩ := inside_eq hfits hliteral (fun _ => ⟨_, hbefore⟩) (fun _ => ⟨_, hafter⟩)
  exact hkind hsame.symm

/-! ## IPv4 literals -/

/-- A literal goes on behind a place that is clear where no separator is blocked with a separator
other than a dot. -/
theorem Shaped.exists_separator_behind {kind : AddressKind} {front z beyond : List Char}
    (h : Shaped kind (front ++ z)) (hz : z ≠ []) (hclear : isClear [] (z ++ beyond) = true) :
    ∃ s rest, z = s :: rest ∧ s ≠ '.' ∧ (detectorOf kind).blocked.contains s = true := by
  obtain ⟨s, rest, rfl⟩ := List.exists_cons_of_ne_nil hz
  refine ⟨s, rest, rfl, ?_⟩
  rcases h.literalChar s (by simp) with hhex | rfl | hblocked
  · rw [not_isHexDigit_of_isClear hclear] at hhex
    contradiction
  · -- Behind a dot a digit follows.
    obtain ⟨-, d, inner, rfl, hd⟩ := h.dotsEnclosed front rest rfl
    rw [List.cons_append, List.cons_append, isClear_dot_word (isWord_of_isHexDigit hd)] at hclear
    contradiction
  · exact hblocked

/-- A literal comes up to a place that is clear where no separator is blocked with a separator other
than a dot. -/
theorem Shaped.exists_separator_before {kind : AddressKind} {x back beyond : List Char}
    (h : Shaped kind (x ++ back)) (hx : x ≠ []) (hclear : isClear [] (x.reverse ++ beyond) = true) :
    ∃ front s, x = front ++ [s] ∧ s ≠ '.' ∧ (detectorOf kind).blocked.contains s = true := by
  obtain ⟨front, s, rfl⟩ := (List.eq_nil_or_concat' x).resolve_left hx
  refine ⟨front, s, rfl, ?_⟩
  rw [List.reverse_append, List.reverse_singleton, List.singleton_append, List.cons_append] at hclear
  rcases h.literalChar s (by simp) with hhex | rfl | hblocked
  · rw [not_isHexDigit_of_isClear hclear] at hhex
    contradiction
  · -- In front of a dot a digit stands.
    obtain ⟨⟨inner, d, rfl, hd⟩, -⟩ := h.dotsEnclosed front back (by simp)
    rw [List.reverse_append, List.reverse_singleton, List.singleton_append, List.cons_append,
      isClear_dot_word (isWord_of_isHexDigit hd)] at hclear
    contradiction
  · exact hblocked

/-- The only separator that blocks IPv6 literals is the colon. -/
private theorem eq_colon_of_blocked {s : Char}
    (h : (detectorOf .ipv6).blocked.contains s = true) : s = ':' := by
  simpa [detectorOf, Detector.ipv6] using h

/-- An IPv4 literal that shares a byte with an IPv6 literal is what follows its last colon. -/
theorem StandsOn.ipv4_tail {text : List Char} {whole quad : Span} (hwhole : StandsOn text .ipv6 whole)
    (hquad : StandsOn text .ipv4 quad) (hoverlaps : whole.overlaps quad = true) :
    ∃ before front literal after, text = before ++ ((front ++ ':' :: literal) ++ after) ∧
      whole = spanOf before (front ++ ':' :: literal) ∧
      quad = spanOf (before ++ (front ++ [':'])) literal := by
  have hoverlaps' : quad.overlaps whole = true := by
    rw [Span.overlaps_iff] at hoverlaps ⊢
    exact hoverlaps.symm
  obtain ⟨before, x, literal, z, after, htext, hspan, hspan', hliteral, hliteral', hbefore, hafter⟩ :=
    hquad.covers hwhole (List.nil_subset _) hoverlaps'
  have hshaped : Shaped .ipv6 ((x ++ literal) ++ z) := by
    rw [List.append_assoc]
    exact shaped_of_isLiteral hliteral'
  have hshape := (shaped_ipv4_iff literal).mp (shaped_of_isLiteral hliteral)
  -- A colon behind the quad would stand behind a dot of the IPv6 literal.
  have hz : z = [] := by
    by_contra hz
    obtain ⟨s, rest, rfl, -, hs⟩ := hshaped.exists_separator_behind hz hafter
    obtain ⟨word, d, more, -, -, rfl⟩ := quadShape_cases hshape
    have hdotted : Ipv6Shape ((x ++ word) ++ '.' :: (d :: more ++ s :: rest)) := by
      simpa using (shaped_ipv6_iff _).mp hshaped
    apply colon_not_mem_behind_dot hdotted
    simp [eq_colon_of_blocked hs]
  subst hz
  rw [List.append_nil] at htext hspan' hshaped
  have hx : x ≠ [] := by
    rintro rfl
    have hcolon : ':' ∈ literal := colon_mem_of_shaped hshaped
    rcases quadShape_chars hshape ':' hcolon with hdigit | heq
    · exact absurd hdigit (by decide)
    · exact absurd heq (by decide)
  rw [List.reverse_append] at hbefore
  obtain ⟨front, s, rfl, -, hs⟩ := hshaped.exists_separator_before hx hbefore
  obtain rfl := eq_colon_of_blocked hs
  exact ⟨before, front, literal, after, by simpa using htext, by simpa using hspan', hspan⟩

/-! ## What the join drops -/

/-- The part of a text that a span names. -/
theorem literal_spanOf {text before literal after : List Char}
    (htext : text = before ++ (literal ++ after)) : (spanOf before literal).literal text = literal := by
  have hcut : slice? (spanOf before literal).start (spanOf before literal).stop text = some literal :=
    slice?_eq_some_iff.mpr ⟨before, after, htext, rfl, rfl⟩
  unfold Span.literal
  rw [hcut, Option.getD_some]

/-- A candidate lies strictly inside of another one and ends where that ends, and its literal is what
stands there behind a colon. -/
structure IsDottedTail (text : List Char) (whole quad : Candidate) : Prop where
  start_lt : whole.span.start < quad.span.start
  stop_eq : quad.span.stop = whole.span.stop
  literal_eq : ∃ front, whole.literal text = front ++ ':' :: quad.literal text

/-- An IPv6 and an IPv4 candidate share a byte if and only if the one is the dotted tail of the
other. -/
theorem overlaps_iff_isDottedTail {text : List Char} {whole quad : Candidate}
    (hwhole : whole ∈ Detector.ipv6.found text) (hquad : quad ∈ Detector.ipv4.found text) :
    whole.overlaps quad = true ↔ IsDottedTail text whole quad := by
  constructor
  · intro hoverlaps
    obtain ⟨before, front, literal, after, htext, hspan, hspan'⟩ :=
      StandsOn.ipv4_tail (standsOn_of_mem_found .ipv6 hwhole)
        (standsOn_of_mem_found .ipv4 hquad) hoverlaps
    refine ⟨?_, ?_, front, ?_⟩
    · rw [hspan, hspan']
      have hcolon := byteLength_pos (List.cons_ne_nil ':' [])
      simp only [spanOf, byteLength_append]
      omega
    · rw [hspan, hspan']
      simp only [spanOf, byteLength_append, byteLength_cons, byteLength_nil]
      omega
    · show whole.span.literal text = front ++ ':' :: quad.span.literal text
      have htext' : text = (before ++ (front ++ [':'])) ++ (literal ++ after) := by simp [htext]
      rw [hspan, hspan', literal_spanOf htext, literal_spanOf htext']
  · intro htail
    have hne := (Detector.found_ascending (detectorOf_faithful .ipv4) text).nonempty quad hquad
    have hstart := htail.start_lt
    have hstop := htail.stop_eq
    rw [Candidate.overlaps_iff]
    omega

/-- A MAC candidate shares no byte with an IPv6 or an IPv4 candidate. -/
theorem overlaps_mac_eq_false {text : List Char} {c m : Candidate}
    (hc : c ∈ Detector.ipv6.found text ∨ c ∈ Detector.ipv4.found text)
    (hm : m ∈ Detector.mac.found text) : c.overlaps m = false := by
  have hmac : StandsOn text .mac m.span := standsOn_of_mem_found .mac hm
  cases hc with
  | inl hipv6 =>
      exact (standsOn_of_mem_found .ipv6 hipv6).overlaps_mac hmac (by decide)
  | inr hipv4 =>
      exact (standsOn_of_mem_found .ipv4 hipv4).overlaps_mac hmac (by decide)

/-- The join keeps everything that the detectors find but the dotted tails. -/
theorem mem_candidates_iff_found (text : List Char) (c : Candidate) :
    c ∈ candidates text ↔ c ∈ Detector.ipv6.found text ∨ c ∈ Detector.mac.found text ∨
      (c ∈ Detector.ipv4.found text ∧ ∀ whole ∈ Detector.ipv6.found text,
        ¬IsDottedTail text whole c) := by
  have hhigher : ∀ k, k ∈ mergeDisjoint (Detector.ipv6.found text) (Detector.ipv4.found text) ↔
      k ∈ Detector.ipv6.found text ∨ (k ∈ Detector.ipv4.found text ∧
        ∀ whole ∈ Detector.ipv6.found text, ¬IsDottedTail text whole k) := by
    intro k
    rw [mem_mergeDisjoint_iff (ipv6_ascending text)]
    apply or_congr_right
    apply and_congr_right
    intro hk
    apply forall₂_congr
    intro whole hwhole
    rw [← overlaps_iff_isDottedTail hwhole hk, Bool.not_eq_true]
  unfold candidates
  rw [mem_mergeDisjoint_iff (higher_ascending text), hhigher]
  constructor
  · rintro ((hc | hc) | ⟨hc, -⟩)
    · exact .inl hc
    · exact .inr (.inr hc)
    · exact .inr (.inl hc)
  · rintro (hc | hc | hc)
    · exact .inl (.inl hc)
    · refine .inr ⟨hc, ?_⟩
      intro k hk
      exact overlaps_mac_eq_false (((hhigher k).mp hk).imp_right And.left) hc
    · exact .inl (.inr hc)

/-- Overlaps are resolved by containment of embedded quads and by nothing else.  Whatever the
detectors find in a text, each for itself, an IPv6 and an IPv4 candidate overlap only where the one is
the dotted tail of the other, and a MAC candidate overlaps neither.  So of all that is found the scan
reports everything but the dotted tails of IPv6 literals that it reports. -/
theorem findCandidates_drops_dotted_tails (text : List Char) :
    ∃ ipv6 ipv4 mac kept,
      Detector.ipv6.scan text .never = .ok (ipv6, .never) ∧
      Detector.ipv4.scan text .never = .ok (ipv4, .never) ∧
      Detector.mac.scan text .never = .ok (mac, .never) ∧
      findCandidates text .never = .ok (kept, .never) ∧
      (∀ whole ∈ ipv6, ∀ quad ∈ ipv4,
        whole.overlaps quad = true ↔ IsDottedTail text whole quad) ∧
      (∀ c, c ∈ ipv6 ∨ c ∈ ipv4 → ∀ m ∈ mac, c.overlaps m = false) ∧
      ∀ c, c ∈ kept ↔ c ∈ ipv6 ∨ c ∈ mac ∨
        (c ∈ ipv4 ∧ ∀ whole ∈ ipv6, ¬IsDottedTail text whole c) := by
  have hscan : ∀ d : Detector, d.scan text .never = .ok (d.found text, .never) := by
    intro d
    rw [Detector.scan_eq, Cancellation.pass_never]
    rfl
  exact ⟨_, _, _, _, hscan .ipv6, hscan .ipv4, hscan .mac, findCandidates_never text,
    fun _ hwhole _ hquad => overlaps_iff_isDottedTail hwhole hquad,
    fun _ hc _ hm => overlaps_mac_eq_false hc hm, mem_candidates_iff_found text⟩

end NetRedact.Scan
