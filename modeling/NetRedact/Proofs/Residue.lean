import NetRedact.Proofs.Overhang
import NetRedact.Proofs.Weaving

/-!
# Nothing is left to find

Every literal that a scan finds in the result of a pass is one of the surrogates that the pass put
there.  A literal in a gap would stand in the original text as well, since surrogates and literals
shield the gap between them alike; and a literal that shares a character with a surrogate is that
surrogate.
-/

namespace NetRedact

open NetRedact.Text NetRedact.Scan

/-! ## Gaps -/

/-- The first gap in front of pieces and their tail. -/
def firstGap (tail : List Char) : List Piece → List Char
  | [] => tail
  | p :: _ => p.gap

/-- The text behind the first gap. -/
def behindGap (part : Piece → List Char) (tail : List Char) : List Piece → List Char
  | [] => []
  | p :: later => part p ++ (weave part later ++ tail)

theorem weave_tail_eq (part : Piece → List Char) (tail : List Char) (pieces : List Piece) :
    weave part pieces ++ tail = firstGap tail pieces ++ behindGap part tail pieces := by
  cases pieces with
  | nil => simp [weave, firstGap, behindGap]
  | cons p later => simp [weave_cons, firstGap, behindGap]

/-- Places in front of a gap end before it, and the others begin behind it. -/
theorem placed_beside_gap {part : Piece → List Char} (tail : List Char) {front back : List Piece}
    {c : Candidate} (h : c ∈ placed part 0 (front ++ back)) :
    c.span.stop ≤ byteLength (weave part front) ∨
      byteLength (weave part front) + byteLength (firstGap tail back) ≤ c.span.start := by
  rw [placed_append, List.mem_append] at h
  rcases h with h | h
  · have := (placed_bounds h).2
    omega
  · right
    cases back with
    | nil => simp [placed] at h
    | cons p back =>
        rw [firstGap]
        rcases List.mem_cons.mp h with rfl | h
        · simp only [Nat.zero_add]
          omega
        · have := (placed_bounds h).1
          omega

/-- Where a literal begins among pieces and their tail, `passed` being the text in front of it. -/
inductive Begins (part : Piece → List Char) (tail passed u after : List Char) : List Piece → Prop
  /-- It lies in the first gap. -/
  | gap {pieces : List Piece} {rest : List Char} : firstGap tail pieces = passed ++ (u ++ rest) →
      after = rest ++ behindGap part tail pieces → Begins part tail passed u after pieces
  /-- It begins in the first gap and goes on behind it. -/
  | crossing {p : Piece} {later : List Piece} {front back : List Char} : p.gap = passed ++ front →
      front ≠ [] → back ≠ [] → u = front ++ back →
      part p ++ (weave part later ++ tail) = back ++ after →
      Begins part tail passed u after (p :: later)
  /-- It begins behind the first gap, before the second one. -/
  | inside {p : Piece} {later : List Piece} {front back : List Char} : part p = front ++ back →
      back ≠ [] → passed = p.gap ++ front → back ++ (weave part later ++ tail) = u ++ after →
      Begins part tail passed u after (p :: later)

/-- A literal begins somewhere among the pieces, or in the tail.  The induction is on the pieces: it
begins in the first of them, or among the later ones and the tail. -/
theorem exists_begins {part : Piece → List Char} {tail : List Char} {pieces : List Piece}
    {before u after : List Char} (h : weave part pieces ++ tail = before ++ (u ++ after)) :
    ∃ front back passed, pieces = front ++ back ∧ before = weave part front ++ passed ∧
      Begins part tail passed u after back := by
  induction pieces generalizing before with
  | nil => exact ⟨[], [], before, rfl, rfl, Begins.gap h (by simp [behindGap])⟩
  | cons p pieces ih =>
      have hhere : Begins part tail before u after (p :: pieces) → ∃ front back passed,
          p :: pieces = front ++ back ∧ before = weave part front ++ passed ∧
            Begins part tail passed u after back := fun hbegins =>
        ⟨[], p :: pieces, before, rfl, rfl, hbegins⟩
      have hlater : ∀ rest, weave part pieces ++ tail = rest ++ (u ++ after) →
          before = p.gap ++ (part p ++ rest) → ∃ front back passed, p :: pieces = front ++ back ∧
            before = weave part front ++ passed ∧ Begins part tail passed u after back := by
        intro rest hrest hbefore
        obtain ⟨front, back, passed, rfl, rfl, hbegins⟩ := ih hrest
        exact ⟨p :: front, back, passed, rfl, by simp [hbefore, weave_cons], hbegins⟩
      have hpart : ∀ middle, before = p.gap ++ middle →
          part p ++ (weave part pieces ++ tail) = middle ++ (u ++ after) →
            ∃ front back passed, p :: pieces = front ++ back ∧
              before = weave part front ++ passed ∧ Begins part tail passed u after back := by
        intro middle hbefore hmiddle
        rcases List.append_eq_append_iff.mp hmiddle with ⟨rest, rfl, hrest⟩ | ⟨back, hback, hrest⟩
        · exact hlater rest hrest hbefore
        · by_cases hempty : back = []
          · subst hempty
            exact hlater [] hrest.symm (by rw [hback, hbefore]; simp)
          · exact hhere (Begins.inside hback hempty hbefore hrest.symm)
      rw [weave_cons, List.append_assoc, List.append_assoc] at h
      rcases List.append_eq_append_iff.mp h with ⟨middle, hbefore, hmiddle⟩ | ⟨front, hgap, hfront⟩
      · exact hpart middle hbefore hmiddle
      · by_cases hempty : front = []
        · subst hempty
          exact hpart [] (by simpa using hgap.symm) (by simpa using hfront.symm)
        · rcases List.append_eq_append_iff.mp hfront with ⟨rest, hrest, hafter⟩ | ⟨back, hback, hafter⟩
          · exact hhere (Begins.gap (by simp [firstGap, hgap, hrest]) hafter)
          · by_cases hend : back = []
            · subst hend
              have hwhole : firstGap tail (p :: pieces) = before ++ (u ++ []) := by
                simpa [firstGap, hback] using hgap
              exact hhere (Begins.gap hwhole (by simpa [behindGap] using hafter.symm))
            · exact hhere (Begins.crossing hgap hempty hend hback hafter)

/-! ## Shields -/

/-- Both sides end there, or the first one goes on with a word character. -/
def Shielded (side side' : List Char) : Prop :=
  (side = [] ∧ side' = []) ∨ ∃ c rest, side = c :: rest ∧ isWord c = true

/-- A verdict over a gap is the same for either text behind it. -/
theorem isClear_of_shielded {blocked gap side side' : List Char} (h : Shielded side side')
    (hclear : isClear blocked (gap ++ side) = true) : isClear blocked (gap ++ side') = true := by
  rcases h with ⟨rfl, rfl⟩ | ⟨c, rest, rfl, hc⟩
  · exact hclear
  · have hdecided : Decided gap := by
      match gap with
      | [] =>
          rw [List.nil_append, isClear_word hc] at hclear
          contradiction
      | d :: d' :: gap => exact ⟨d, d' :: gap, rfl, by simp⟩
      | [d] =>
          refine ⟨d, [], rfl, ?_⟩
          rintro rfl
          rw [List.singleton_append, isClear_dot_word hc] at hclear
          contradiction
    rw [← hclear]
    exact isClear_append_eq hdecided blocked side' (c :: rest)

theorem cut_eq_of_spanOf_eq {before literal after before' literal' after' : List Char}
    (h : before ++ (literal ++ after) = before' ++ (literal' ++ after'))
    (hspan : spanOf before literal = spanOf before' literal') :
    before = before' ∧ literal = literal' ∧ after = after' := by
  obtain ⟨hstart, hstop⟩ := Span.mk.inj hspan
  obtain ⟨rfl, hrest⟩ := append_inj_of_byteLength_eq h hstart
  obtain ⟨rfl, rfl⟩ := append_inj_of_byteLength_eq hrest (by omega)
  exact ⟨rfl, rfl, rfl⟩

namespace Woven

variable {source : Source} {text tail : List Char} {r : Redaction} {pieces front later back : List Piece}
  {p : Piece}

/-- Each literal stands at its place in the original text. -/
theorem stands (hw : Woven source text r (front ++ p :: later) tail) :
    Stands (detectorOf p.address.kind) (weave Piece.literal front ++ p.gap) p.literal
      (weave Piece.literal later ++ tail) p.address := by
  have hmem : (⟨spanOf (weave Piece.literal front ++ p.gap) p.literal, p.address⟩ : Candidate) ∈
      candidates text := by
    rw [← hw.placed_eq]
    exact mem_placed_iff.mpr ⟨front, p, later, rfl, by simp [spanOf], rfl, rfl⟩
  obtain ⟨before, literal, after, htext, hspan, hstands⟩ := stands_of_mem_candidates hmem
  have hcut : (weave Piece.literal front ++ p.gap) ++
      (p.literal ++ (weave Piece.literal later ++ tail)) = before ++ (literal ++ after) := by
    rw [← htext, hw.text_eq, weave_append, weave_cons]
    simp
  obtain ⟨rfl, rfl, rfl⟩ := cut_eq_of_spanOf_eq hcut hspan
  exact hstands

/-- Each surrogate has the layout of the address that it stands for. -/
theorem fits (hw : Woven source text r pieces tail) (hp : p ∈ pieces) :
    p.address.layout.Fits p.surrogate := by
  obtain ⟨i, hi, rfl⟩ := List.getElem_of_mem hp
  rw [hw.surrogate_eq i hi]
  exact fits_surrogate source i _

/-- In front of a gap both texts begin, or the result has the last digit of a surrogate. -/
theorem shielded_before (hw : Woven source text r (front ++ back) tail) :
    Shielded (weave Piece.surrogate front).reverse (weave Piece.literal front).reverse := by
  rcases List.eq_nil_or_concat' front with rfl | ⟨init, p, rfl⟩
  · exact Or.inl ⟨rfl, rfl⟩
  · obtain ⟨inner, c, hlast, hc⟩ := (hw.fits (p := p) (by simp)).exists_last
    refine Or.inr ⟨c, ?_⟩
    rw [weave_append, weave_cons, hlast]
    simp [weave, isWord_of_isHexDigit hc]

/-- Behind a gap both texts end, or the result has the first digit of a surrogate. -/
theorem shielded_behind (hw : Woven source text r (front ++ back) tail) :
    Shielded (behindGap Piece.surrogate tail back) (behindGap Piece.literal tail back) := by
  cases back with
  | nil => exact Or.inl ⟨rfl, rfl⟩
  | cons p later =>
      obtain ⟨c, inner, hhead, hc⟩ := (hw.fits (p := p) (by simp)).exists_head
      refine Or.inr ⟨c, ?_⟩
      simp [behindGap, hhead, isWord_of_isHexDigit hc]

/-- What is clear in front of a place in a gap of the result is clear there in the original text. -/
theorem isClear_before (hw : Woven source text r (front ++ back) tail) {blocked gap : List Char}
    (h : isClear blocked (weave Piece.surrogate front ++ gap).reverse = true) :
    isClear blocked (weave Piece.literal front ++ gap).reverse = true := by
  rw [List.reverse_append] at h ⊢
  exact isClear_of_shielded hw.shielded_before h

theorem isClear_behind (hw : Woven source text r (front ++ back) tail) {blocked gap : List Char}
    (h : isClear blocked (gap ++ behindGap Piece.surrogate tail back) = true) :
    isClear blocked (gap ++ behindGap Piece.literal tail back) = true :=
  isClear_of_shielded hw.shielded_behind h

/-! ## Seams -/

/-- Two literals never touch: each side would have to admit what the other one blocks.  The two
characters at the seam are `e` and `f`; neither is a digit or a dot, so both are blocked somewhere. -/
theorem gap_ne_nil {p' : Piece} (hw : Woven source text r (front ++ p :: p' :: later) tail) :
    p'.gap ≠ [] := by
  intro hgap
  have hleft := hw.stands
  have hw' : Woven source text r ((front ++ [p]) ++ p' :: later) tail := by simpa using hw
  have hright := hw'.stands
  have hafter := hleft.clear_after
  have hbefore := hright.clear_before
  rw [weave_cons, hgap] at hafter
  rw [hgap, weave_append, weave_cons] at hbefore
  rcases List.eq_nil_or_concat' p.literal with hempty | ⟨inner, e, hlast⟩
  · exact Shaped.ne_nil hleft.shape hempty
  cases hhead : p'.literal with
  | nil => exact Shaped.ne_nil hright.shape hhead
  | cons f rest =>
      rw [hhead] at hafter
      simp only [hlast, weave, List.flatMap_nil, List.append_nil, List.nil_append, List.cons_append,
        List.append_assoc, List.reverse_append, List.reverse_cons, List.reverse_nil] at hafter hbefore
      have hshape : Shaped p.address.kind (inner ++ [e]) := by
        rw [← hlast]
        exact hleft.shape
      have hshape' : Shaped p'.address.kind (f :: rest) := by
        rw [← hhead]
        exact hright.shape
      rcases hshape'.literalChar f (by simp) with hhex | rfl | ⟨hdot, hblocked⟩
      · rw [not_isHexDigit_of_isClear hafter] at hhex
        contradiction
      · exact hshape'.head_ne_dot
      · rcases hshape.literalChar e (by simp) with hhex | rfl | ⟨hdot', hblocked'⟩
        · rw [not_isHexDigit_of_isClear hbefore] at hhex
          contradiction
        · exact hshape.last_ne_dot
        · have hfree := contains_eq_false_of_isClear hdot hafter
          rw [blocked_of_blocked hblocked' (contains_eq_false_of_isClear hdot' hbefore) hblocked] at hfree
          contradiction

private theorem decided_of_ne {gap : List Char} (hne : gap ≠ []) (hdot : gap ≠ ['.']) :
    Decided gap := by
  match gap, hne with
  | [c], _ => exact ⟨c, [], rfl, fun hc => absurd (by rw [hc]) hdot⟩
  | c :: d :: gap, _ => exact ⟨c, d :: gap, rfl, by simp⟩

/-- A dot alone between two literals has IPv6 literals on both sides. -/
private theorem kind_of_dot {p' : Piece} (hw : Woven source text r (front ++ p :: p' :: later) tail)
    (hdot : p'.gap = ['.']) : p'.address.kind = .ipv6 := by
  have hw' : Woven source text r ((front ++ [p]) ++ p' :: later) tail := by simpa using hw
  have hafter := hw.stands.clear_after
  have hshape : Shaped p'.address.kind p'.literal := hw'.stands.shape
  rw [weave_cons, hdot] at hafter
  cases hhead : p'.literal with
  | nil => exact absurd hhead hshape.ne_nil
  | cons f rest =>
      rw [hhead] at hafter hshape
      simp only [List.cons_append, List.nil_append, isClear_dot_cons, Bool.not_eq_true'] at hafter
      have hhex : isHexDigit f ≠ true := by
        intro hhex
        rw [isWord_of_isHexDigit hhex] at hafter
        contradiction
      cases hkind : p'.address.kind with
      | ipv6 => rfl
      | mac =>
          rw [hkind] at hshape
          exact absurd (isHexDigit_of_shaped_mac hshape) hhex
      | ipv4 =>
          rw [hkind] at hshape
          rcases hshape.literalChar f (by simp) with hhex' | rfl | ⟨-, hblocked⟩
          · exact absurd hhex' hhex
          · exact (hshape.head_ne_dot).elim
          · exact absurd hblocked (by simp [detectorOf, Detector.ipv4])

/-- Behind a surrogate the result is as clear as the original text was behind the literal. -/
theorem seamAfter (hw : Woven source text r (front ++ p :: later) tail) :
    SeamAfter p.address.kind (weave Piece.surrogate later ++ tail) := by
  have hafter := hw.stands.clear_after
  cases later with
  | nil => exact Or.inl hafter
  | cons p' later =>
      by_cases hdot : p'.gap = ['.']
      · have hkind := hw.kind_of_dot hdot
        have hfits := hw.fits (p := p') (by simp)
        cases haddress : p'.address with
        | ipv4 octets => simp [haddress, Address.kind] at hkind
        | mac octets style => simp [haddress, Address.kind] at hkind
        | ipv6 octets =>
            rw [haddress] at hfits
            obtain ⟨word, rest, hword, hsurrogate⟩ := joined_cases (two_le_layout_count _) hfits
            refine Or.inr ⟨word, rest ++ (weave Piece.surrogate later ++ tail), ?_, hword⟩
            rw [weave_cons, hdot, hsurrogate]
            simp [Address.layout]
      · refine Or.inl ?_
        rw [weave_cons, List.append_assoc] at hafter ⊢
        rw [← hafter]
        exact isClear_append_eq (decided_of_ne hw.gap_ne_nil hdot) _ _ _

theorem seamBefore (hw : Woven source text r (front ++ p :: later) tail) :
    isClear (detectorOf p.address.kind).blocked (weave Piece.surrogate front ++ p.gap).reverse = true ∨
      p.gap = ['.'] := by
  have hbefore := hw.stands.clear_before
  rcases List.eq_nil_or_concat' front with rfl | ⟨init, p', rfl⟩
  · exact Or.inl hbefore
  · by_cases hdot : p.gap = ['.']
    · exact Or.inr hdot
    · left
      have hw' : Woven source text r (init ++ p' :: p :: later) tail := by simpa using hw
      have hdecided : Decided p.gap.reverse := by
        refine decided_of_ne (by simpa using hw'.gap_ne_nil) ?_
        intro hreverse
        exact hdot (by simpa using congrArg List.reverse hreverse)
      rw [List.reverse_append] at hbefore ⊢
      rw [← hbefore]
      exact isClear_append_eq hdecided _ _ _

/-! ## Gaps have no literals -/

/-- What stands in a gap of the original text would overlap a candidate. -/
theorem not_standsOn_gap (hw : Woven source text r (front ++ back) tail) {kind : AddressKind}
    {gap u rest : List Char} (hgap : firstGap tail back = gap ++ (u ++ rest)) :
    ¬ StandsOn text kind (spanOf (weave Piece.literal front ++ gap) u) := by
  intro hstands
  obtain ⟨c, hc, hoverlaps⟩ := exists_candidate_overlapping hstands
  rw [← hw.placed_eq] at hc
  have hoverlaps := (Span.overlaps_iff _ _).mp hoverlaps
  have hbeside := placed_beside_gap tail hc
  rw [hgap] at hbeside
  simp only [spanOf, byteLength_append] at hoverlaps hbeside
  omega

/-- No IPv6 literal of the original text begins in a gap in front of a literal that it covers. -/
theorem not_ipv6_over_gap (hw : Woven source text r (front ++ p :: later) tail)
    {gap front' : List Char} (hgap : p.gap = gap ++ front') (hne : front' ≠ []) :
    ¬ StandsOn text .ipv6 (spanOf (weave Piece.literal front ++ gap) (front' ++ p.literal)) := by
  intro hstands
  obtain ⟨c, hc, -, hspan⟩ := (exists_candidate_iff text .ipv6 _).mpr hstands
  rw [← hw.placed_eq] at hc
  have hbeside := placed_beside_gap tail hc
  have := byteLength_pos hne
  rw [firstGap, hgap, hspan] at hbeside
  simp only [spanOf, byteLength_append] at hbeside
  omega

/-- Where an IPv6 literal ends in a surrogate, one would have ended in the replaced literal. -/
theorem standsOn_ipv6 (hw : Woven source text r (front ++ p :: later) tail)
    {gap front' : List Char} (hgap : p.gap = gap ++ (front' ++ [':']))
    (hkind : p.address.kind = .ipv4) (hliteral : IsLiteral .ipv6 ((front' ++ [':']) ++ p.surrogate))
    (hbefore : isClear (detectorOf .ipv6).blocked (weave Piece.surrogate front ++ gap).reverse = true)
    (hafter : isClear (detectorOf .ipv6).blocked (weave Piece.surrogate later ++ tail) = true) :
    StandsOn text .ipv6 (spanOf (weave Piece.literal front ++ gap) ((front' ++ [':']) ++ p.literal)) := by
  have hw' : Woven source text r ((front ++ [p]) ++ later) tail := by simpa using hw
  have hfits := hw.fits (p := p) (by simp)
  have hread := hw.stands.read
  obtain ⟨octets, haddress⟩ : ∃ octets, p.address = .ipv4 octets := by
    cases haddress : p.address with
    | ipv4 octets => exact ⟨octets, rfl⟩
    | ipv6 octets => simp [haddress, Address.kind] at hkind
    | mac octets style => simp [haddress, Address.kind] at hkind
  rw [hkind] at hread
  obtain ⟨quad, hquad, -⟩ := Option.map_eq_some_iff.mp hread
  rw [haddress] at hfits
  have hcolon : ':' ∉ p.surrogate := by
    intro hmem
    rcases hfits.chars ':' hmem with hhex | heq
    · exact absurd hhex (by decide)
    · simp [Address.layout] at heq
  obtain ⟨found, hfound⟩ := hliteral
  rw [List.append_assoc, List.singleton_append] at hfound
  obtain ⟨octets', hread'⟩ := Ipv6.read?_replace_quad hfound hcolon hfits.separator_mem hquad
  refine ⟨_, _, weave Piece.literal later ++ tail, ?_, rfl, ⟨octets', by simpa using hread'⟩,
    hw.isClear_before hbefore, ?_⟩
  · rw [hw.text_eq, weave_append, weave_cons, hgap]
    simp
  · rw [weave_tail_eq] at hafter ⊢
    exact hw'.isClear_behind hafter

/-! ## The result -/

/-- A literal of the result that shares the text from some place of a surrogate on ends inside of
that surrogate.  Here `y` is what the surrogate has from that place on, and `q` and `v` are the
literal before and behind it. -/
theorem ends_in_surrogate (hw : Woven source text r (front ++ p :: later) tail)
    {kind : AddressKind} {x y q v after : List Char} (hsurrogate : p.surrogate = x ++ y)
    (hrest : y ++ (weave Piece.surrogate later ++ tail) = v ++ after)
    (hshaped : Shaped kind (q ++ v)) (hafter : isClear (detectorOf kind).blocked after = true)
    (hbefore : x ≠ [] →
      ∃ beyond, isClear (detectorOf kind).blocked (x.reverse ++ beyond) = true) :
    ∃ z, y = v ++ z ∧ after = z ++ (weave Piece.surrogate later ++ tail) := by
  have hfits := hw.fits (p := p) (by simp)
  rw [hsurrogate] at hfits
  rcases List.append_eq_append_iff.mp hrest with ⟨extra, hextra, hbehind⟩ | ⟨z, hz, hz'⟩
  · have hseam := hw.seamAfter
    rw [hbehind] at hseam
    rw [hextra] at hshaped
    have hempty : extra = [] := overhang_after_nil hfits hseam hshaped hafter hbefore
    subst hempty
    exact ⟨[], by simpa using hextra.symm, by simpa using hbehind.symm⟩
  · exact ⟨z, hz, hz'⟩

/-- No literal of the result begins in a gap and goes on behind it. -/
theorem not_crossing (hw : Woven source text r (front ++ p :: later) tail) {kind : AddressKind}
    {passed front' back' after : List Char} (hgap : p.gap = passed ++ front') (hne : front' ≠ [])
    (hrest : p.surrogate ++ (weave Piece.surrogate later ++ tail) = back' ++ after)
    (hliteral : IsLiteral kind (front' ++ back'))
    (hbefore : isClear (detectorOf kind).blocked
      (weave Piece.surrogate front ++ passed).reverse = true)
    (hafter : isClear (detectorOf kind).blocked after = true) : False := by
  have hshaped := shaped_of_isLiteral hliteral
  obtain ⟨z, hz, hafter'⟩ := hw.ends_in_surrogate (x := []) rfl hrest hshaped hafter (by simp)
  have hfits : p.address.layout.Fits (back' ++ z) := hz ▸ hw.fits (by simp)
  have hseam : isClear (detectorOf p.address.kind).blocked
      (front'.reverse ++ (weave Piece.surrogate front ++ passed).reverse) = true ∨
        front' = ['.'] := by
    rcases hw.seamBefore with hclear | hdot
    · left
      rw [hgap, ← List.append_assoc, List.reverse_append] at hclear
      exact hclear
    · right
      rw [hgap] at hdot
      cases passed with
      | nil => exact hdot
      | cons c passed => simp_all
  -- Only an IPv6 literal can begin earlier, and then it has the surrogate for its dotted quad.  With
  -- the replaced literal in the place of the surrogate it would be a literal of the original text.
  obtain ⟨rfl, hkind, rfl, front'', rfl⟩ := overhang_before hfits hne hseam hshaped
    fun _ => ⟨_, hafter' ▸ hafter⟩
  obtain rfl : p.surrogate = back' := by simpa using hz
  rw [hafter'] at hafter
  exact hw.not_ipv6_over_gap hgap hne (hw.standsOn_ipv6 hgap hkind hliteral hbefore hafter)

/-- A literal of the result that begins inside of a surrogate is the surrogate as a whole. -/
theorem eq_surrogate_of_inside (hw : Woven source text r (front ++ p :: later) tail)
    {kind : AddressKind} {x y u after : List Char} (hsurrogate : p.surrogate = x ++ y)
    (hrest : y ++ (weave Piece.surrogate later ++ tail) = u ++ after)
    (hliteral : IsLiteral kind u)
    (hbefore : isClear (detectorOf kind).blocked
      (weave Piece.surrogate front ++ (p.gap ++ x)).reverse = true)
    (hafter : isClear (detectorOf kind).blocked after = true) :
    x = [] ∧ u = p.surrogate ∧ p.address.kind = kind := by
  have hclear : x ≠ [] →
      ∃ beyond, isClear (detectorOf kind).blocked (x.reverse ++ beyond) = true := by
    intro _
    refine ⟨(weave Piece.surrogate front ++ p.gap).reverse, ?_⟩
    rw [← List.append_assoc, List.reverse_append] at hbefore
    exact hbefore
  obtain ⟨z, rfl, hafter'⟩ :=
    hw.ends_in_surrogate (q := []) hsurrogate hrest (shaped_of_isLiteral hliteral) hafter hclear
  have hfits : p.address.layout.Fits (x ++ (u ++ z)) := hsurrogate ▸ hw.fits (by simp)
  obtain ⟨rfl, rfl, hkind⟩ := inside_eq hfits hliteral hclear fun _ => ⟨_, hafter' ▸ hafter⟩
  exact ⟨rfl, by simpa using hsurrogate.symm, hkind⟩

/-- A literal that stands in the result is a surrogate, of the kind that the surrogate has. -/
theorem eq_surrogate_of_stands (hw : Woven source text r pieces tail) {kind : AddressKind}
    {before u after : List Char} (hresult : r.text = before ++ (u ++ after))
    (hliteral : IsLiteral kind u) (hbefore : isClear (detectorOf kind).blocked before.reverse = true)
    (hafter : isClear (detectorOf kind).blocked after = true) :
    ∃ front p later, pieces = front ++ p :: later ∧ before = weave Piece.surrogate front ++ p.gap ∧
      u = p.surrogate ∧ p.address.kind = kind := by
  rw [hw.result_eq] at hresult
  obtain ⟨front, back, passed, rfl, rfl, hbegins⟩ := exists_begins hresult
  cases hbegins with
  | @gap _ rest hgap hrest =>
      -- The literal would stand in the same gap of the original text, with as clear sides.
      have hbehind : isClear (detectorOf kind).blocked
          (rest ++ behindGap Piece.literal tail back) = true :=
        hw.isClear_behind (hrest ▸ hafter)
      have htext : text = (weave Piece.literal front ++ passed) ++
          (u ++ (rest ++ behindGap Piece.literal tail back)) := by
        rw [hw.text_eq, weave_append, List.append_assoc, weave_tail_eq _ tail back, hgap]
        simp
      exact absurd ⟨_, u, _, htext, rfl, hliteral, hw.isClear_before hbefore, hbehind⟩
        (hw.not_standsOn_gap hgap)
  | @crossing p later front' back' hgap hne _ hu hrest =>
      subst hu
      exact (hw.not_crossing hgap hne hrest hliteral hbefore hafter).elim
  | @inside p later x y hsurrogate _ hpassed hrest =>
      subst hpassed
      obtain ⟨rfl, hu, hkind⟩ :=
        hw.eq_surrogate_of_inside hsurrogate hrest hliteral hbefore hafter
      exact ⟨front, p, later, rfl, by simp, hu, hkind⟩

/-- A candidate of the result lies exactly on a surrogate of its kind. -/
theorem exists_placed (hw : Woven source text r pieces tail) {c : Candidate}
    (hc : c ∈ candidates r.text) :
    ∃ s ∈ placed Piece.surrogate 0 pieces, s.span = c.span ∧ s.kind = c.kind := by
  obtain ⟨before, u, after, htext, hspan, hstands⟩ := stands_of_mem_candidates hc
  obtain ⟨front, p, later, rfl, rfl, rfl, hkind⟩ := hw.eq_surrogate_of_stands htext
    ((isLiteral_iff _ _).mpr ⟨_, hstands.shape, hstands.read⟩) hstands.clear_before
    hstands.clear_after
  refine ⟨⟨c.span, p.address⟩, mem_placed_iff.mpr ⟨front, p, later, rfl, ?_, ?_, rfl⟩, rfl, hkind⟩
  · simp [hspan, spanOf]
  · simp [hspan, spanOf]

end Woven

/-- No identifier survives.  Whatever the text and wherever surrogates come from, the pass comes to
its end, and each candidate that a scan finds in its result has exactly the span of a surrogate, and
its kind; so it shares no byte with what was copied from the text. -/
theorem run_leaves_surrogates_only (source : Source) (text : List Char) :
    ∃ r pieces tail again, Redaction.run source text = .ok r ∧ Woven source text r pieces tail ∧
      findCandidates r.text .never = .ok (again, .never) ∧
      ∀ c ∈ again, (∃ s ∈ placed Piece.surrogate 0 pieces, s.span = c.span ∧ s.kind = c.kind) ∧
        ∀ gap ∈ gapSpans Piece.surrogate tail 0 pieces, gap.overlaps c.span = false := by
  obtain ⟨r, pieces, tail, hrun, hw⟩ := exists_woven source text
  refine ⟨r, pieces, tail, candidates r.text, hrun, hw, findCandidates_never r.text, ?_⟩
  intro c hc
  obtain ⟨s, hs, hspan, hkind⟩ := hw.exists_placed hc
  refine ⟨⟨s, hs, hspan, hkind⟩, ?_⟩
  intro gap hgap
  rw [← hspan]
  exact gapSpans_free hgap hs

end NetRedact
