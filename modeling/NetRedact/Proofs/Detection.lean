import NetRedact.Proofs.Checks
import NetRedact.Proofs.Hits
import NetRedact.Proofs.Ipv6Literals
import NetRedact.Proofs.MacSpelling
import NetRedact.Proofs.Merge

/-!
# Sound and complete detection

A literal stands in a text where neither of its sides is touched.  Each detector finds exactly the
literals of its kind that stand, whatever hits are dropped in between; and of literals that overlap
the join keeps those of the higher kind: IPv6 before IPv4 before MAC.
-/

namespace NetRedact.Scan

open NetRedact.Text Pattern

/-! ## One detector -/

/-- What makes a detector find all of its literals: none is empty, none has a clear side at an inner
place, and where the text behind one is clear the pattern takes it as a whole. -/
structure Detector.Faithful (d : Detector) : Prop where
  nonempty : ¬ d.pattern.Matches []
  linked : ∀ cs, d.pattern.Matches cs → Linked d.blocked cs
  prefers : ∀ cs back, d.pattern.Matches cs → isClear d.blocked back = true →
    Prefers d.pattern cs back

/-- A literal with clear sides that is read as an address. -/
structure Stands (d : Detector) (before literal after : List Char) (address : Address) : Prop where
  shape : d.pattern.Matches literal
  clear_before : isClear d.blocked before.reverse = true
  clear_after : isClear d.blocked after = true
  read : d.read literal = some address

/-- The bytes of a literal behind the text in front of it. -/
def spanOf (before literal : List Char) : Span :=
  ⟨byteLength before, byteLength before + byteLength literal⟩

namespace Detector

/-- The candidates among the hits. -/
def found (d : Detector) (text : List Char) : List Candidate :=
  (hits d.pattern text).filterMap d.confirm?

/-- A detector is given up at one of its hits, or finds the same as ever. -/
theorem scan_eq (d : Detector) (text : List Char) (cancel : Cancellation) :
    d.scan text cancel =
      (cancel.pass (hits d.pattern text).length).map fun left => (d.found text, left) := by
  simp [scan, confirmAll_eq, found]

end Detector

theorem matches_of_prefers {p : Pattern} {front back : List Char} (h : Prefers p front back) :
    p.Matches front := by
  obtain ⟨front', back', heq, hlength, hmatches⟩ := matches_of_matchLength? h
  rw [(List.append_inj heq hlength).1]
  exact hmatches

private theorem confirm?_eq_some_iff {d : Detector} {h : Hit} {c : Candidate} :
    d.confirm? h = some c ↔
      isClear d.blocked h.before = true ∧ isClear d.blocked h.after = true ∧ c.span = h.span ∧
        d.read h.literal = some c.address := by
  obtain ⟨span, address⟩ := c
  simp only [Detector.confirm?, Bool.and_eq_true, Option.ite_none_right_eq_some, Option.map_eq_some_iff,
    Candidate.mk.injEq]
  constructor
  · rintro ⟨⟨hbefore, hafter⟩, _, hread, rfl, rfl⟩
    exact ⟨hbefore, hafter, rfl, hread⟩
  · rintro ⟨hbefore, hafter, rfl, hread⟩
    exact ⟨⟨hbefore, hafter⟩, _, hread, rfl, rfl⟩

/-- A faithful detector finds exactly the literals that stand. -/
theorem Detector.mem_found_iff {d : Detector} (hd : d.Faithful) (text : List Char) (c : Candidate) :
    c ∈ d.found text ↔
      ∃ before literal after, text = before ++ (literal ++ after) ∧ c.span = spanOf before literal ∧
        Stands d before literal after c.address := by
  rw [found, List.mem_filterMap]
  constructor
  · rintro ⟨h, hmem, hconfirm⟩
    obtain ⟨htext, hstart, hprefers⟩ := hit_of_mem hmem
    obtain ⟨hbefore, hafter, hspan, hread⟩ := confirm?_eq_some_iff.mp hconfirm
    refine ⟨h.before.reverse, h.literal, h.after, htext, ?_,
      matches_of_prefers hprefers, by simpa using hbefore, hafter, hread⟩
    rw [hspan, Hit.span, hstart, spanOf, byteLength_reverse]
  · rintro ⟨before, literal, after, rfl, hspan, hstands⟩
    -- The pattern prefers the literal at its place, so a hit begins there or is not over there.
    have hprefers := hd.prefers literal after hstands.shape hstands.clear_after
    obtain ⟨h, hmem, outer, inner, rfl, houter, hcut, hlength⟩ :=
      exists_hit hd.nonempty before hprefers
    obtain ⟨-, hstart, hprefers'⟩ := hit_of_mem hmem
    have hinner : inner = [] := by
      by_contra hne
      -- The hit would reach over the place in front of the literal, where the side is clear.
      obtain ⟨rest, hrest, -⟩ | ⟨rest, hrest, -⟩ := List.append_eq_append_iff.mp hcut
      · rw [hrest, List.length_append] at hlength
        omega
      · have hfalse := (hd.linked _ (matches_of_prefers hprefers')).before inner rest
          outer.reverse hrest hne
        rw [← List.reverse_append, hstands.clear_before] at hfalse
        contradiction
    subst hinner
    rw [List.nil_append] at hcut
    rw [Prefers, hcut, hprefers, Option.some.injEq] at hprefers'
    obtain ⟨hliteral, hafter⟩ := List.append_inj hcut hprefers'.symm
    refine ⟨h, hmem, confirm?_eq_some_iff.mpr ⟨?_, ?_, ?_, ?_⟩⟩
    · simpa [houter] using hstands.clear_before
    · rw [hafter]
      exact hstands.clear_after
    · rw [hspan, Hit.span, hstart, hliteral, houter]
      simp [spanOf]
    · rw [hliteral]
      exact hstands.read

/-- What a detector finds lies in the text. -/
theorem Detector.stop_le {d : Detector} (hd : d.Faithful) {text : List Char} {c : Candidate}
    (h : c ∈ d.found text) : c.span.stop ≤ byteLength text := by
  obtain ⟨before, literal, after, rfl, hspan, -⟩ := (mem_found_iff hd text c).mp h
  rw [hspan]
  simp only [spanOf, byteLength_append]
  omega

/-- What a detector finds is in order and apart. -/
theorem Detector.found_ascending {d : Detector} (hd : d.Faithful) (text : List Char) :
    Ascending (d.found text) := by
  constructor
  · refine (List.pairwise_filterMap).mpr ((hits_pairwise d.pattern text).imp ?_)
    intro earlier later hle c hc c' hc'
    rw [(confirm?_eq_some_iff.mp hc).2.2.1, (confirm?_eq_some_iff.mp hc').2.2.1]
    exact hle
  · intro c hc
    obtain ⟨before, literal, after, -, hspan, hstands⟩ := (mem_found_iff hd text c).mp hc
    have hne : literal ≠ [] := by
      rintro rfl
      exact hd.nonempty hstands.shape
    have := byteLength_pos hne
    rw [hspan]
    simp only [spanOf]
    omega

/-! ## The three detectors -/

/-- The detector of a kind. -/
def detectorOf : AddressKind → Detector
  | .ipv4 => .ipv4
  | .ipv6 => .ipv6
  | .mac => .mac

/-- The texts that count as literals of a kind: those that the readers of IP addresses accept, and
those that have one of the layouts of a MAC address. -/
def IsLiteral : AddressKind → List Char → Prop
  | .ipv4, cs => ∃ octets, Ipv4.read? cs = some octets
  | .ipv6, cs => ∃ octets, Ipv6.read? cs = some octets
  | .mac, cs => MacShape cs

private theorem exists_cons_of_joined {s : Char} {count least most : Nat} {test : Char → Bool}
    {cs : List Char} (hcount : 2 ≤ count) (h : Joined s count test least most cs) : cs ≠ [] := by
  obtain ⟨word, rest, -, rfl⟩ := joined_cases hcount h
  simp

/-- Each detector is faithful to its pattern. -/
theorem detectorOf_faithful (kind : AddressKind) : (detectorOf kind).Faithful := by
  cases kind with
  | ipv4 =>
      refine ⟨?_, ?_, ?_⟩
      · intro h
        exact exists_cons_of_joined (by decide) ((quadPattern_matches_iff _).mp h) rfl
      · exact fun cs h => quadShape_linked ((quadPattern_matches_iff cs).mp h)
      · exact fun cs back h hback => prefers_quad ((quadPattern_matches_iff cs).mp h)
          (stopsAt_isDigit (stopsAt_of_isClear hback))
  | ipv6 =>
      refine ⟨?_, ?_, ?_⟩
      · intro h
        obtain ⟨groups, last, hleast, -, -, -, heq⟩ := (ipv6Pattern_matches_iff _).mp h
        match groups, hleast with
        | first :: second :: groups, _ => simp [joinWith_cons_cons] at heq
      · exact fun cs h => ipv6Shape_linked ((ipv6Pattern_matches_iff cs).mp h)
      · exact fun cs back h hback => prefers_ipv6 ((ipv6Pattern_matches_iff cs).mp h) hback
  | mac =>
      refine ⟨?_, ?_, ?_⟩
      · intro h
        rcases (macPattern_matches_iff _).mp h with h | h | h
        · exact exists_cons_of_joined (by decide) h rfl
        · exact exists_cons_of_joined (by decide) h rfl
        · exact exists_cons_of_joined (by decide) h rfl
      · exact fun cs h => macShape_linked ((macPattern_matches_iff cs).mp h)
      · exact fun cs back h _ => prefers_mac ((macPattern_matches_iff cs).mp h) back

/-- A detector reads addresses of its own kind. -/
theorem kind_of_read {kind : AddressKind} {cs : List Char} {address : Address}
    (h : (detectorOf kind).read cs = some address) : address.kind = kind := by
  cases kind <;>
    obtain ⟨value, -, rfl⟩ := Option.map_eq_some_iff.mp h <;>
    rfl

/-- The literals of a kind are what its pattern describes and its reader accepts. -/
theorem isLiteral_iff (kind : AddressKind) (cs : List Char) :
    IsLiteral kind cs ↔
      ∃ address, (detectorOf kind).pattern.Matches cs ∧ (detectorOf kind).read cs = some address := by
  cases kind with
  | ipv4 =>
      constructor
      · rintro ⟨octets, hread⟩
        exact ⟨.ipv4 octets, (quadPattern_matches_iff cs).mpr (Ipv4.quadShape_of_read? hread),
          Option.map_eq_some_iff.mpr ⟨octets, hread, rfl⟩⟩
      · rintro ⟨address, -, hread⟩
        obtain ⟨octets, hoctets, -⟩ := Option.map_eq_some_iff.mp hread
        exact ⟨octets, hoctets⟩
  | ipv6 =>
      constructor
      · rintro ⟨octets, hread⟩
        exact ⟨.ipv6 octets, (ipv6Pattern_matches_iff cs).mpr (Ipv6.ipv6Shape_of_read? hread),
          Option.map_eq_some_iff.mpr ⟨octets, hread, rfl⟩⟩
      · rintro ⟨address, -, hread⟩
        obtain ⟨octets, hoctets, -⟩ := Option.map_eq_some_iff.mp hread
        exact ⟨octets, hoctets⟩
  | mac =>
      constructor
      · intro h
        obtain ⟨octets, hread⟩ := Mac.read?_of_macShape h
        exact ⟨.mac octets (Mac.styleOf cs), (macPattern_matches_iff cs).mpr h,
          Option.map_eq_some_iff.mpr ⟨_, hread, rfl⟩⟩
      · rintro ⟨address, hmatches, -⟩
        exact (macPattern_matches_iff cs).mp hmatches

/-- On the bytes of the span stands a literal of the kind, and neither side of it is touched. -/
def StandsOn (text : List Char) (kind : AddressKind) (span : Span) : Prop :=
  ∃ before literal after, text = before ++ (literal ++ after) ∧ span = spanOf before literal ∧
    IsLiteral kind literal ∧ isClear (detectorOf kind).blocked before.reverse = true ∧
    isClear (detectorOf kind).blocked after = true

theorem standsOn_iff (text : List Char) (kind : AddressKind) (span : Span) :
    StandsOn text kind span ↔ ∃ c ∈ (detectorOf kind).found text, c.kind = kind ∧ c.span = span := by
  constructor
  · rintro ⟨before, literal, after, htext, rfl, hliteral, hbefore, hafter⟩
    obtain ⟨address, hmatches, hread⟩ := (isLiteral_iff kind literal).mp hliteral
    exact ⟨⟨spanOf before literal, address⟩,
      (Detector.mem_found_iff (detectorOf_faithful kind) text _).mpr
        ⟨before, literal, after, htext, rfl, hmatches, hbefore, hafter, hread⟩,
      kind_of_read hread, rfl⟩
  · rintro ⟨c, hc, -, rfl⟩
    obtain ⟨before, literal, after, htext, hspan, hstands⟩ :=
      (Detector.mem_found_iff (detectorOf_faithful kind) text c).mp hc
    exact ⟨before, literal, after, htext, hspan,
      (isLiteral_iff kind literal).mpr ⟨_, hstands.shape, hstands.read⟩, hstands.clear_before,
      hstands.clear_after⟩

/-! ## The join of the three -/

/-- The candidates of all kinds. -/
def candidates (text : List Char) : List Candidate :=
  mergeDisjoint (mergeDisjoint (Detector.ipv6.found text) (Detector.ipv4.found text))
    (Detector.mac.found text)

/-- The number of hits of all detectors together. -/
def hitCount (text : List Char) : Nat :=
  (hits Detector.ipv6.pattern text).length + (hits Detector.ipv4.pattern text).length +
    (hits Detector.mac.pattern text).length

/-- The detectors run one behind the other, so their checks add up. -/
theorem findCandidates_eq (text : List Char) (cancel : Cancellation) :
    findCandidates text cancel =
      (cancel.pass (hitCount text)).map fun left => (candidates text, left) := by
  rw [hitCount, Cancellation.pass_add, Cancellation.pass_add]
  simp only [findCandidates, Detector.scan_eq, bind, Except.bind, pure, Except.pure, Except.map]
  cases cancel.pass (hits Detector.ipv6.pattern text).length with
  | error e => rfl
  | ok left =>
      simp only
      cases left.pass (hits Detector.ipv4.pattern text).length with
      | error e => rfl
      | ok left =>
          simp only
          cases left.pass (hits Detector.mac.pattern text).length with
          | error e => rfl
          | ok left => rfl

/-- A scan that is not given up comes to its end. -/
theorem findCandidates_never (text : List Char) :
    findCandidates text .never = .ok (candidates text, .never) := by
  rw [findCandidates_eq, Cancellation.pass_never]
  rfl

/-- The candidates of the first detector come in order. -/
theorem ipv6_ascending (text : List Char) : Ascending (Detector.ipv6.found text) :=
  Detector.found_ascending (detectorOf_faithful .ipv6) text

/-- The joined candidates of the first two detectors come in order. -/
theorem higher_ascending (text : List Char) :
    Ascending (mergeDisjoint (Detector.ipv6.found text) (Detector.ipv4.found text)) :=
  mergeDisjoint_ascending (ipv6_ascending text)
    (Detector.found_ascending (detectorOf_faithful .ipv4) text)

theorem candidates_ascending (text : List Char) : Ascending (candidates text) :=
  mergeDisjoint_ascending (higher_ascending text)
    (Detector.found_ascending (detectorOf_faithful .mac) text)

/-- The span shares no byte with any of the spans that are taken. -/
def Free (taken : Span → Prop) (span : Span) : Prop :=
  ∀ other, taken other → other.overlaps span = false

/-- What is reported of the standing literals: IPv6 literals always, IPv4 literals that overlap none
of those, and MAC literals that overlap nothing reported of the two. -/
def Reported (text : List Char) : AddressKind → Span → Prop
  | .ipv6, span => StandsOn text .ipv6 span
  | .ipv4, span => StandsOn text .ipv4 span ∧ Free (StandsOn text .ipv6) span
  | .mac, span => StandsOn text .mac span ∧ Free (StandsOn text .ipv6) span ∧
      Free (fun other => StandsOn text .ipv4 other ∧ Free (StandsOn text .ipv6) other) span

private theorem kind_of_mem_found {text : List Char} (kind : AddressKind) {c : Candidate}
    (h : c ∈ (detectorOf kind).found text) : c.kind = kind := by
  obtain ⟨_, _, _, _, _, hstands⟩ := (Detector.mem_found_iff (detectorOf_faithful kind) text c).mp h
  exact kind_of_read hstands.read

/-- What a detector finds stands in the text. -/
theorem standsOn_of_mem_found {text : List Char} (kind : AddressKind) {c : Candidate}
    (h : c ∈ (detectorOf kind).found text) : StandsOn text kind c.span :=
  (standsOn_iff text kind c.span).mpr ⟨c, h, kind_of_mem_found kind h, rfl⟩

private theorem free_standsOn_iff (text : List Char) (kind : AddressKind) (c : Candidate) :
    Free (StandsOn text kind) c.span ↔ ∀ k ∈ (detectorOf kind).found text, k.overlaps c = false := by
  constructor
  · intro h k hk
    exact h k.span (standsOn_of_mem_found kind hk)
  · intro h other hother
    obtain ⟨k, hk, -, rfl⟩ := (standsOn_iff text kind other).mp hother
    exact h k hk

private theorem mem_higher_iff (text : List Char) (c : Candidate) :
    c ∈ mergeDisjoint (Detector.ipv6.found text) (Detector.ipv4.found text) ↔
      c ∈ Detector.ipv6.found text ∨
        c ∈ Detector.ipv4.found text ∧ Free (StandsOn text .ipv6) c.span := by
  rw [mem_mergeDisjoint_iff (ipv6_ascending text), free_standsOn_iff]
  rfl

private theorem free_higher_iff (text : List Char) (c : Candidate) :
    (∀ k ∈ mergeDisjoint (Detector.ipv6.found text) (Detector.ipv4.found text),
        k.overlaps c = false) ↔
      Free (StandsOn text .ipv6) c.span ∧
        Free (fun other => StandsOn text .ipv4 other ∧ Free (StandsOn text .ipv6) other) c.span := by
  constructor
  · intro h
    constructor
    · exact (free_standsOn_iff text .ipv6 c).mpr fun k hk =>
        h k ((mem_higher_iff text k).mpr (Or.inl hk))
    · rintro other ⟨hother, hfree⟩
      obtain ⟨k, hk, -, rfl⟩ := (standsOn_iff text .ipv4 other).mp hother
      exact h k ((mem_higher_iff text k).mpr (Or.inr ⟨hk, hfree⟩))
  · rintro ⟨hipv6, hipv4⟩ k hk
    rcases (mem_higher_iff text k).mp hk with hk | ⟨hk, hfree⟩
    · exact (free_standsOn_iff text .ipv6 c).mp hipv6 k hk
    · exact hipv4 k.span ⟨standsOn_of_mem_found .ipv4 hk, hfree⟩

/-- A candidate is found by the detector of its kind, on a span that is reported. -/
theorem mem_candidates_iff (text : List Char) (c : Candidate) :
    c ∈ candidates text ↔ c ∈ (detectorOf c.kind).found text ∧ Reported text c.kind c.span := by
  rw [candidates, mem_mergeDisjoint_iff (higher_ascending text), mem_higher_iff, free_higher_iff]
  constructor
  · rintro ((hipv6 | ⟨hipv4, hfree⟩) | ⟨hmac, hfree⟩)
    · rw [kind_of_mem_found .ipv6 hipv6]
      exact ⟨hipv6, standsOn_of_mem_found .ipv6 hipv6⟩
    · rw [kind_of_mem_found .ipv4 hipv4]
      exact ⟨hipv4, standsOn_of_mem_found .ipv4 hipv4, hfree⟩
    · rw [kind_of_mem_found .mac hmac]
      exact ⟨hmac, standsOn_of_mem_found .mac hmac, hfree⟩
  · rintro ⟨hfound, hreported⟩
    cases hkind : c.kind with
    | ipv6 =>
        rw [hkind] at hfound
        exact Or.inl (Or.inl hfound)
    | ipv4 =>
        rw [hkind] at hfound hreported
        exact Or.inl (Or.inr ⟨hfound, hreported.2⟩)
    | mac =>
        rw [hkind] at hfound hreported
        exact Or.inr ⟨hfound, hreported.2⟩

/-- A candidate is a literal that stands in the text. -/
theorem stands_of_mem_candidates {text : List Char} {c : Candidate} (h : c ∈ candidates text) :
    ∃ before literal after, text = before ++ (literal ++ after) ∧ c.span = spanOf before literal ∧
      Stands (detectorOf c.kind) before literal after c.address :=
  (Detector.mem_found_iff (detectorOf_faithful c.kind) text c).mp ((mem_candidates_iff text c).mp h).1

theorem standsOn_of_reported {text : List Char} {kind : AddressKind} {span : Span}
    (h : Reported text kind span) : StandsOn text kind span := by
  cases kind with
  | ipv4 => exact h.1
  | ipv6 => exact h
  | mac => exact h.1

/-- Every reported span carries a candidate of its kind. -/
theorem exists_candidate_iff (text : List Char) (kind : AddressKind) (span : Span) :
    (∃ c ∈ candidates text, c.kind = kind ∧ c.span = span) ↔ Reported text kind span := by
  constructor
  · rintro ⟨c, hc, rfl, rfl⟩
    exact ((mem_candidates_iff text c).mp hc).2
  · intro h
    obtain ⟨c, hc, rfl, rfl⟩ := (standsOn_iff text kind span).mp (standsOn_of_reported h)
    exact ⟨c, (mem_candidates_iff text c).mpr ⟨hc, h⟩, rfl, rfl⟩

/-- No standing literal is passed over: a candidate lies on it or overlaps it. -/
theorem exists_candidate_overlapping {text : List Char} {kind : AddressKind} {span : Span}
    (h : StandsOn text kind span) : ∃ c ∈ candidates text, c.span.overlaps span = true := by
  have hself : ∀ kind' {span' : Span}, Reported text kind' span' →
      span'.overlaps span = true → ∃ c ∈ candidates text, c.span.overlaps span = true := by
    intro kind' span' hreported hoverlaps
    obtain ⟨c, hc, -, rfl⟩ := (exists_candidate_iff text kind' span').mpr hreported
    exact ⟨c, hc, hoverlaps⟩
  have hown : span.overlaps span = true := by
    obtain ⟨c, hc, -, rfl⟩ := (standsOn_iff text kind span).mp h
    have := (Detector.found_ascending (detectorOf_faithful kind) text).nonempty c hc
    exact (Span.overlaps_iff _ _).mpr ⟨this, this⟩
  by_contra hnone
  have hfree : Free (StandsOn text .ipv6) span := by
    intro other hother
    by_contra hoverlaps
    exact hnone (hself .ipv6 hother (by simpa using hoverlaps))
  have hfree' : Free (fun other => StandsOn text .ipv4 other ∧ Free (StandsOn text .ipv6) other)
      span := by
    intro other hother
    by_contra hoverlaps
    exact hnone (hself .ipv4 hother (by simpa using hoverlaps))
  cases kind with
  | ipv4 => exact hnone (hself .ipv4 ⟨h, hfree⟩ hown)
  | ipv6 => exact hnone (hself .ipv6 h hown)
  | mac => exact hnone (hself .mac ⟨h, hfree, hfree'⟩ hown)

/-- Detection is sound and complete.  A scan that is not given up returns candidates in ascending
order, none twice and none overlapping, whose spans are exactly the reported ones; and each has the
address that its literal spells. -/
theorem findCandidates_exact (text : List Char) :
    ∃ found, findCandidates text .never = .ok (found, .never) ∧ Ascending found ∧
      (∀ kind span, (∃ c ∈ found, c.kind = kind ∧ c.span = span) ↔ Reported text kind span) ∧
      ∀ c ∈ found, ∃ before literal after, text = before ++ (literal ++ after) ∧
        c.span = spanOf before literal ∧ (detectorOf c.kind).read literal = some c.address := by
  refine ⟨candidates text, findCandidates_never text, candidates_ascending text,
    exists_candidate_iff text, ?_⟩
  intro c hc
  obtain ⟨before, literal, after, htext, hspan, hstands⟩ := stands_of_mem_candidates hc
  exact ⟨before, literal, after, htext, hspan, hstands.read⟩

end NetRedact.Scan
