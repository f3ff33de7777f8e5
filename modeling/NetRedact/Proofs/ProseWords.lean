import NetRedact.Proofs.EmbeddedQuads
import NetRedact.Proofs.Locality
import NetRedact.Proofs.Residue
import NetRedact.Text.Blank

/-!
# Literals in prose

In prose a literal stands between white space and a punctuation mark behind which white space follows,
or the end of the text.  Neither white space nor a mark is a word character, and a dot is harmless
where no word goes on behind it, so such a literal is reported, whatever the rest of the text is.

The colon is the exception.  It is a mark of prose, but it also joins the groups of IPv6 and MAC
literals, and their detectors block it.  Behind an IPv4 literal a colon is a mark like any other; an
IPv6 or a MAC literal with a colon behind it is never reported.
-/

namespace NetRedact.Scan

open NetRedact.Text

/-! ## White space and marks -/

/-- The code points of white space. -/
def blankCodes : List Nat :=
  [0x20, 0x09, 0x0A, 0x0B, 0x0C, 0x0D, 0x85, 0xA0, 0x1680, 0x2000, 0x2001, 0x2002, 0x2003, 0x2004,
    0x2005, 0x2006, 0x2007, 0x2008, 0x2009, 0x200A, 0x2028, 0x2029, 0x202F, 0x205F, 0x3000]

theorem toNat_mem_blankCodes {c : Char} (h : isBlank c = true) : c.toNat ∈ blankCodes := by
  have hcode := of_decide_eq_true h
  simp only [blankCodes, List.mem_cons, List.not_mem_nil, or_false]
  omega

/-- White space is neither a word character nor a separator. -/
theorem not_word_of_isBlank {c : Char} (h : isBlank c = true) :
    isWord c = false ∧ isSeparator c = false := by
  have hall : ∀ n ∈ blankCodes,
      isWord (Char.ofNat n) = false ∧ isSeparator (Char.ofNat n) = false := by decide +kernel
  have hcode := hall c.toNat (toNat_mem_blankCodes h)
  rwa [Char.ofNat_toNat] at hcode

/-- The punctuation marks that may follow a word. -/
def proseMarks : List Char := ['.', ',', ';', ':', '!', '?', ')']

/-- A mark is not a word character, and no detector blocks one other than the colon. -/
theorem not_word_of_mem_proseMarks {mark : Char} (h : mark ∈ proseMarks) :
    isWord mark = false ∧
      ∀ kind, mark ≠ ':' → (detectorOf kind).blocked.contains mark = false := by
  have hwords : (proseMarks.all fun mark => !isWord mark) = true := by decide
  have hhyphen : mark ≠ '-' := ne_of_mem_of_not_mem h (by decide)
  constructor
  · simpa using List.all_eq_true.mp hwords mark h
  · intro kind hcolon
    cases kind <;> simp [detectorOf, Detector.ipv4, Detector.ipv6, Detector.mac, hcolon, hhyphen]

/-- White space comes next on a side, or the side is empty. -/
def MeetsBlank (side : List Char) : Prop :=
  side.head?.all isBlank = true

instance (side : List Char) : Decidable (MeetsBlank side) :=
  inferInstanceAs (Decidable (_ = true))

/-- What comes first on a side that meets white space is white space. -/
theorem MeetsBlank.isBlank_head {c : Char} {rest : List Char} (h : MeetsBlank (c :: rest)) :
    isBlank c = true :=
  h

/-- A side that meets white space is clear. -/
theorem MeetsBlank.isClear {side : List Char} (h : MeetsBlank side) (kind : AddressKind) :
    isClear (detectorOf kind).blocked side = true := by
  cases side with
  | nil => rfl
  | cons c rest =>
      obtain ⟨hword, hsep⟩ := not_word_of_isBlank h.isBlank_head
      exact isClear_append_between hword hsep kind [] rest

/-- A mark with white space behind it is clear, unless it is a blocked colon. -/
theorem isClear_mark {after : List Char} {mark : Char} (hmark : mark ∈ proseMarks)
    (hafter : MeetsBlank after) {kind : AddressKind} (hkind : kind = .ipv4 ∨ mark ≠ ':') :
    isClear (detectorOf kind).blocked (mark :: after) = true := by
  obtain ⟨hword, hblocked⟩ := not_word_of_mem_proseMarks hmark
  by_cases hdot : mark = '.'
  · subst hdot
    cases after with
    | nil => rfl
    | cons c rest =>
        rw [isClear_dot_cons, (not_word_of_isBlank hafter.isBlank_head).1]
        rfl
  · have hfree : (detectorOf kind).blocked.contains mark = false := by
      rcases hkind with rfl | hcolon
      · rfl
      · exact hblocked kind hcolon
    rw [isClear_cons hdot, hword, hfree]
    rfl

/-! ## Words of prose -/

/-- A literal of a kind stands as a word of prose: white space or the beginning of the text is in front
of it, and a mark is behind it with white space or the end of the text. -/
structure IsProseWord (kind : AddressKind) (before literal : List Char) (mark : Char)
    (after : List Char) : Prop where
  isLiteral : IsLiteral kind literal
  blank_before : MeetsBlank before.reverse
  mark_mem : mark ∈ proseMarks
  blank_after : MeetsBlank after

/-- What stands on the span of a cut of the text stands there between the two sides of the cut. -/
theorem isClear_of_standsOn {kind : AddressKind} {before literal after : List Char}
    (h : StandsOn (before ++ (literal ++ after)) kind (spanOf before literal)) :
    isClear (detectorOf kind).blocked before.reverse = true ∧
      isClear (detectorOf kind).blocked after = true := by
  obtain ⟨before', literal', after', htext, hspan, -, hbefore, hafter⟩ := h
  obtain ⟨rfl, -, rfl⟩ := cut_eq_of_spanOf_eq htext hspan
  exact ⟨hbefore, hafter⟩

/-- An IPv4 literal with white space in front of it is no tail of an IPv6 literal. -/
theorem MeetsBlank.free_ipv6 {before literal after : List Char} (hbefore : MeetsBlank before.reverse)
    (hstands : StandsOn (before ++ (literal ++ after)) .ipv4 (spanOf before literal)) :
    Free (StandsOn (before ++ (literal ++ after)) .ipv6) (spanOf before literal) := by
  intro whole hwhole
  apply Bool.eq_false_iff.mpr
  intro hoverlaps
  obtain ⟨before', front, literal', after', htext, -, hspan⟩ := hwhole.ipv4_tail hstands hoverlaps
  have htext' : before ++ (literal ++ after) =
      (before' ++ (front ++ [':'])) ++ (literal' ++ after') := by simp [htext]
  obtain ⟨rfl, -, -⟩ := cut_eq_of_spanOf_eq htext' hspan
  -- A colon would be the white space in front of the literal.
  rw [← List.append_assoc, List.reverse_concat] at hbefore
  exact absurd hbefore.isBlank_head (by decide)

/-- A standing literal is reported if it is no IPv4 literal or has white space in front of it. -/
theorem MeetsBlank.reported {kind : AddressKind} {before literal after : List Char}
    (hbefore : MeetsBlank before.reverse)
    (hstands : StandsOn (before ++ (literal ++ after)) kind (spanOf before literal)) :
    Reported (before ++ (literal ++ after)) kind (spanOf before literal) := by
  cases kind with
  | ipv6 => exact hstands
  | ipv4 => exact ⟨hstands, hbefore.free_ipv6 hstands⟩
  | mac =>
      refine ⟨hstands, ?_, ?_⟩
      · intro other hother
        exact hother.overlaps_mac hstands (by decide)
      · intro other hother
        exact hother.1.overlaps_mac hstands (by decide)

/-- A word of prose is reported if and only if it is an IPv4 literal or the mark behind it is not a
colon. -/
theorem IsProseWord.reported_iff {kind : AddressKind} {before literal after : List Char} {mark : Char}
    (h : IsProseWord kind before literal mark after) :
    Reported (before ++ (literal ++ mark :: after)) kind (spanOf before literal) ↔
      kind = .ipv4 ∨ mark ≠ ':' := by
  constructor
  · intro hreported
    by_contra hcolon
    obtain ⟨hkind, hmark⟩ := not_or.mp hcolon
    obtain rfl := not_not.mp hmark
    have hclear := (isClear_of_standsOn (standsOn_of_reported hreported)).2
    have hfree := contains_eq_false_of_isClear (by decide) hclear
    have hblocked : (detectorOf kind).blocked.contains ':' = true := by
      cases kind with
      | ipv4 => exact absurd rfl hkind
      | ipv6 => rfl
      | mac => rfl
    rw [hblocked] at hfree
    contradiction
  · intro hkind
    apply h.blank_before.reported
    exact ⟨before, literal, mark :: after, rfl, rfl, h.isLiteral, h.blank_before.isClear kind,
      isClear_mark h.mark_mem h.blank_after hkind⟩

/-- Sentence punctuation hides no IPv4 literal, and no literal at all but for the colon.  Of a literal
that stands as a word of prose, with one of the marks `.,;:!?)` behind it, the scan reports the span
exactly if the literal is an IPv4 literal or the mark is not a colon. -/
theorem findCandidates_prose_word {kind : AddressKind} {before literal after : List Char}
    {mark : Char} (h : IsProseWord kind before literal mark after) :
    ∃ found, findCandidates (before ++ (literal ++ mark :: after)) .never = .ok (found, .never) ∧
      ((∃ c ∈ found, c.kind = kind ∧ c.span = spanOf before literal) ↔
        kind = .ipv4 ∨ mark ≠ ':') := by
  refine ⟨candidates _, findCandidates_never _, ?_⟩
  rw [exists_candidate_iff]
  exact h.reported_iff

/-- A colon behind an IPv4 literal, and a full stop behind an IPv6 literal that ends with two. -/
theorem findCandidates_prose_word_marks :
    (IsProseWord .ipv4 "ping ".toList "10.0.0.1".toList ':' " ok".toList ∧
      ∃ found, findCandidates "ping 10.0.0.1: ok".toList .never = .ok (found, .never) ∧
        ∃ c ∈ found, c.kind = .ipv4 ∧ c.span = ⟨5, 13⟩) ∧
      IsProseWord .ipv6 "route\n".toList "fe80::".toList '.' [] ∧
        ∃ found, findCandidates "route\nfe80::.".toList .never = .ok (found, .never) ∧
          ∃ c ∈ found, c.kind = .ipv6 ∧ c.span = ⟨6, 12⟩ := by
  have hquad : IsProseWord .ipv4 "ping ".toList "10.0.0.1".toList ':' " ok".toList :=
    ⟨⟨#v[10, 0, 0, 1], by decide⟩, by decide, by decide, by decide⟩
  have hgroups : IsProseWord .ipv6 "route\n".toList "fe80::".toList '.' [] :=
    ⟨⟨#v[254, 128, 0, 0, 0, 0, 0, 0, 0, 0, 0, 0, 0, 0, 0, 0], by decide⟩, by decide, by decide,
      by decide⟩
  obtain ⟨found, hscan, hreported⟩ := findCandidates_prose_word hquad
  obtain ⟨found', hscan', hreported'⟩ := findCandidates_prose_word hgroups
  exact ⟨⟨hquad, found, hscan, hreported.mpr (.inl rfl)⟩,
    hgroups, found', hscan', hreported'.mpr (.inr (by decide))⟩

/-- A colon behind an IPv6 literal that does not itself end with two: nothing is reported. -/
theorem colon_hides_ipv6_literal :
    IsProseWord .ipv6 [] "2001:db8::1".toList ':' " up".toList ∧
      ¬ [':', ':'] <:+ "2001:db8::1".toList ∧
      findCandidates "2001:db8::1: up".toList .never = .ok ([], .never) := by
  have hword : IsProseWord .ipv6 [] "2001:db8::1".toList ':' " up".toList :=
    ⟨⟨#v[32, 1, 13, 184, 0, 0, 0, 0, 0, 0, 0, 0, 0, 0, 0, 1], by decide⟩, by decide, by decide,
      by decide⟩
  have hscan : findCandidates "2001:db8::1: up".toList .never = .ok ([], .never) :=
    findCandidates_of_found [] [] [] (by decide +kernel) (by decide +kernel) (by decide +kernel)
      ⟨List.Pairwise.nil, by simp⟩
  exact ⟨hword, by decide, hscan⟩

end NetRedact.Scan
