import NetRedact.Proofs.LiteralText
import NetRedact.Proofs.Weaving

/-!
# Texts side by side

Two texts are joined by a character that is no word character and none of the separators.  No literal
contains it, and to a literal on either side it is what the end of the text is: nothing.  So the scan
finds in the whole what it finds in the parts, only moved in the second one; and a pass whose surrogates
do not depend on the occurrence makes of the whole what it makes of the parts.  With random draws the
second part would begin with draws that the first one has not used.
-/

namespace NetRedact

open NetRedact.Text

namespace Scan

/-! ## Moved candidates -/

/-- The span in a text with that many bytes more in front. -/
def Span.shift (bytes : Nat) (span : Span) : Span :=
  ⟨bytes + span.start, bytes + span.stop⟩

/-- The candidate in a text with that many bytes more in front. -/
def Candidate.shift (bytes : Nat) (c : Candidate) : Candidate :=
  ⟨c.span.shift bytes, c.address⟩

theorem spanOf_append (lead before literal : List Char) :
    spanOf (lead ++ before) literal = (spanOf before literal).shift (byteLength lead) := by
  simp [spanOf, Span.shift, Nat.add_assoc]

theorem Candidate.overlaps_shift (bytes : Nat) (k c : Candidate) :
    (k.shift bytes).overlaps (c.shift bytes) = k.overlaps c := by
  rw [Bool.eq_iff_iff, Candidate.overlaps_iff, Candidate.overlaps_iff]
  simp only [Candidate.shift, Span.shift]
  omega

/-- Candidates of the first `bytes` bytes of a text. -/
structure Within (bytes : Nat) (candidates : List Candidate) : Prop where
  ascending : Ascending candidates
  stop_le : ∀ c ∈ candidates, c.span.stop ≤ bytes

/-- Candidates of the first bytes of a text and, behind these bytes, other ones. -/
theorem Within.append_shift {bytes : Nat} {front back : List Candidate} (h : Within bytes front)
    (h' : Ascending back) : Ascending (front ++ back.map (Candidate.shift bytes)) := by
  constructor
  · rw [List.pairwise_append, List.pairwise_map]
    refine ⟨h.ascending.pairwise, h'.pairwise.imp (Nat.add_le_add_left · bytes), ?_⟩
    intro c hc c' hc'
    obtain ⟨k, -, rfl⟩ := List.mem_map.mp hc'
    exact Nat.le_trans (h.stop_le c hc) (Nat.le_add_right bytes _)
  · intro c hc
    rcases List.mem_append.mp hc with hc | hc
    · exact h.ascending.nonempty c hc
    · obtain ⟨k, hk, rfl⟩ := List.mem_map.mp hc
      exact Nat.add_lt_add_left (h'.nonempty k hk) bytes

theorem Within.mergeDisjoint {bytes : Nat} {held incoming : List Candidate} (h : Within bytes held)
    (h' : Within bytes incoming) : Within bytes (mergeDisjoint held incoming) := by
  refine ⟨mergeDisjoint_ascending h.ascending h'.ascending, ?_⟩
  intro c hc
  rcases (mem_mergeDisjoint_iff h.ascending incoming c).mp hc with hc | ⟨hc, -⟩
  · exact h.stop_le c hc
  · exact h'.stop_le c hc

/-- What ends within the first bytes is met by nothing behind them. -/
theorem free_append_front {bytes : Nat} {c : Candidate} (hc : c.span.stop ≤ bytes)
    (held held' : List Candidate) :
    (∀ k ∈ held ++ held'.map (Candidate.shift bytes), k.overlaps c = false) ↔
      ∀ k ∈ held, k.overlaps c = false := by
  have hbehind : ∀ k ∈ held'.map (Candidate.shift bytes), k.overlaps c = false := by
    intro k hk
    obtain ⟨k, -, rfl⟩ := List.mem_map.mp hk
    rw [← Bool.not_eq_true, Candidate.overlaps_iff]
    simp only [Candidate.shift, Span.shift]
    omega
  rw [List.forall_mem_append]
  exact and_iff_left hbehind

/-- What stands behind the first bytes is met by nothing within them. -/
theorem free_append_back {bytes : Nat} {held : List Candidate} (h : Within bytes held)
    (held' : List Candidate) (c : Candidate) :
    (∀ k ∈ held ++ held'.map (Candidate.shift bytes), k.overlaps (c.shift bytes) = false) ↔
      ∀ k ∈ held', k.overlaps c = false := by
  have hfront : ∀ k ∈ held, k.overlaps (c.shift bytes) = false := by
    intro k hk
    have := h.stop_le k hk
    rw [← Bool.not_eq_true, Candidate.overlaps_iff]
    simp only [Candidate.shift, Span.shift]
    omega
  rw [List.forall_mem_append, and_iff_right hfront, List.forall_mem_map]
  simp only [Candidate.overlaps_shift]

/-- Candidates that lie side by side are joined side by side. -/
theorem mergeDisjoint_append_shift {bytes : Nat} {held incoming held' incoming' : List Candidate}
    (h : Within bytes held) (hin : Within bytes incoming) (h' : Ascending held')
    (hin' : Ascending incoming') :
    mergeDisjoint (held ++ held'.map (Candidate.shift bytes))
        (incoming ++ incoming'.map (Candidate.shift bytes)) =
      mergeDisjoint held incoming ++
        (mergeDisjoint held' incoming').map (Candidate.shift bytes) := by
  have hheld := h.append_shift h'
  refine Ascending.eq_of_mem_iff (mergeDisjoint_ascending hheld (hin.append_shift hin'))
    ((h.mergeDisjoint hin).append_shift (mergeDisjoint_ascending h' hin')) ?_
  intro c
  rw [mem_mergeDisjoint_iff hheld, List.mem_append, List.mem_append, List.mem_append,
    mem_mergeDisjoint_iff h.ascending, List.mem_map, List.mem_map, List.mem_map]
  constructor
  · rintro ((hc | ⟨k, hk, rfl⟩) | ⟨hc | ⟨k, hk, rfl⟩, hfree⟩)
    · exact .inl (.inl hc)
    · exact .inr ⟨k, (mem_mergeDisjoint_iff h' _ _).mpr (.inl hk), rfl⟩
    · exact .inl (.inr ⟨hc, (free_append_front (hin.stop_le c hc) held held').mp hfree⟩)
    · exact .inr ⟨k, (mem_mergeDisjoint_iff h' _ _).mpr
        (.inr ⟨hk, (free_append_back h held' k).mp hfree⟩), rfl⟩
  · rintro ((hc | ⟨hc, hfree⟩) | ⟨k, hk, rfl⟩)
    · exact .inl (.inl hc)
    · exact .inr ⟨.inl hc, (free_append_front (hin.stop_le c hc) held held').mpr hfree⟩
    · rcases (mem_mergeDisjoint_iff h' _ _).mp hk with hk | ⟨hk, hfree⟩
      · exact .inl (.inr ⟨k, hk, rfl⟩)
      · exact .inr ⟨.inr ⟨k, hk, rfl⟩, (free_append_back h held' k).mpr hfree⟩

/-! ## The character between two texts -/

theorem isSeparator_of_mem_blocked {kind : AddressKind} {s : Char}
    (h : s ∈ (detectorOf kind).blocked) : isSeparator s = true := by
  cases kind with
  | ipv4 => cases h
  | ipv6 =>
      obtain rfl := List.mem_singleton.mp h
      rfl
  | mac =>
      obtain rfl | h := List.mem_cons.mp h
      · rfl
      · obtain rfl := List.mem_singleton.mp h
        rfl

section Between

variable {c : Char} (hword : isWord c = false) (hsep : isSeparator c = false)
include hword hsep

/-- No literal contains the character. -/
theorem Shaped.between_not_mem {kind : AddressKind} {literal : List Char}
    (h : Shaped kind literal) : c ∉ literal := by
  intro hmem
  rcases h.char_cases c hmem with hhex | hsep'
  · rw [isWord_of_isHexDigit hhex] at hword
    contradiction
  · rw [hsep'] at hsep
    contradiction

/-- A side that shows the character is as clear as one that ends in front of it. -/
theorem isClear_append_between (kind : AddressKind) (side beyond : List Char) :
    isClear (detectorOf kind).blocked (side ++ c :: beyond) =
      isClear (detectorOf kind).blocked side := by
  have hblocked : (detectorOf kind).blocked.contains c = false := by
    rw [List.contains_eq_mem, decide_eq_false_iff_not]
    intro hmem
    rw [isSeparator_of_mem_blocked hmem] at hsep
    contradiction
  cases side with
  | nil =>
      have hdot : c ≠ '.' := by
        rintro rfl
        cases hsep
      rw [List.nil_append, isClear_cons hdot, hword, hblocked]
      rfl
  | cons d side =>
      by_cases hlone : d = '.' ∧ side = []
      · obtain ⟨rfl, rfl⟩ := hlone
        rw [List.cons_append, List.nil_append, isClear_dot_cons, hword]
        rfl
      · have hdecided : Decided (d :: side) := ⟨d, side, rfl, fun hd hside => hlone ⟨hd, hside⟩⟩
        simpa using isClear_append_eq hdecided _ (c :: beyond) []

/-- What stands in the first text stands in the whole. -/
theorem stands_append_after_iff (kind : AddressKind) (before literal after beyond : List Char)
    (address : Address) :
    Stands (detectorOf kind) before literal (after ++ c :: beyond) address ↔
      Stands (detectorOf kind) before literal after address := by
  have hafter := isClear_append_between hword hsep kind after beyond
  constructor
  · rintro ⟨hshape, hbefore, hclear, hread⟩
    exact ⟨hshape, hbefore, hafter ▸ hclear, hread⟩
  · rintro ⟨hshape, hbefore, hclear, hread⟩
    exact ⟨hshape, hbefore, hafter ▸ hclear, hread⟩

/-- What stands in the second text stands in the whole. -/
theorem stands_append_before_iff (kind : AddressKind) (beyond before literal after : List Char)
    (address : Address) :
    Stands (detectorOf kind) (beyond ++ c :: before) literal after address ↔
      Stands (detectorOf kind) before literal after address := by
  have hbefore : isClear (detectorOf kind).blocked (beyond ++ c :: before).reverse =
      isClear (detectorOf kind).blocked before.reverse := by
    rw [List.reverse_append, List.reverse_cons, List.append_assoc]
    exact isClear_append_between hword hsep kind before.reverse beyond.reverse
  constructor
  · rintro ⟨hshape, hclear, hafter, hread⟩
    exact ⟨hshape, hbefore ▸ hclear, hafter, hread⟩
  · rintro ⟨hshape, hclear, hafter, hread⟩
    exact ⟨hshape, hbefore ▸ hclear, hafter, hread⟩

end Between

/-- A part of two joined texts without the character between them is a part of one of the two. -/
theorem cut_beside {c : Char} {front back before middle after : List Char} (hfree : c ∉ middle)
    (h : front ++ c :: back = before ++ (middle ++ after)) :
    (∃ rest, front = before ++ (middle ++ rest) ∧ after = rest ++ c :: back) ∨
      ∃ rest, before = front ++ c :: rest ∧ back = rest ++ (middle ++ after) := by
  rw [← List.append_assoc] at h
  rcases List.append_eq_append_iff.mp h with ⟨rest, hfront, hafter⟩ | ⟨rest, hfront, hafter⟩
  · cases rest with
    | nil =>
        refine .inl ⟨[], ?_, by simpa using hafter.symm⟩
        simpa using hfront.symm
    | cons d rest =>
        obtain ⟨rfl, hback⟩ := List.cons.inj hafter
        rcases List.append_eq_append_iff.mp hfront with ⟨start, -, hmiddle⟩ | ⟨start, hbefore, hrest⟩
        · exact absurd (by simp [hmiddle]) hfree
        · cases start with
          | nil =>
              rw [List.nil_append] at hrest
              exact absurd (by simp [← hrest]) hfree
          | cons e start =>
              obtain ⟨rfl, rfl⟩ := List.cons.inj hrest
              exact .inr ⟨start, hbefore, by simp [hback]⟩
  · exact .inl ⟨rest, by rw [hfront, List.append_assoc], hafter⟩

/-! ## The scan -/

/-- What a detector finds in a text lies in front of what is behind it. -/
theorem within_found (kind : AddressKind) (front : List Char) (c : Char) :
    Within (byteLength (front ++ [c])) ((detectorOf kind).found front) := by
  refine ⟨Detector.found_ascending (detectorOf_faithful kind) front, ?_⟩
  intro k hk
  exact Nat.le_trans (Detector.stop_le (detectorOf_faithful kind) hk) (by simp)

section Scan

variable {c : Char} (hword : isWord c = false) (hsep : isSeparator c = false)
include hword hsep

/-- A detector finds in the joined text what it finds in the two. -/
theorem Detector.found_append (kind : AddressKind) (front back : List Char) :
    (detectorOf kind).found (front ++ c :: back) =
      (detectorOf kind).found front ++
        ((detectorOf kind).found back).map (Candidate.shift (byteLength (front ++ [c]))) := by
  have hd := detectorOf_faithful kind
  -- The span of a literal of the second text, seen from the first one.
  have hspan : ∀ before literal, spanOf (front ++ c :: before) literal =
      (spanOf before literal).shift (byteLength (front ++ [c])) := by
    intro before literal
    rw [← spanOf_append, List.append_assoc]
    rfl
  refine Ascending.eq_of_mem_iff (found_ascending hd _)
    ((within_found kind front c).append_shift (found_ascending hd back)) ?_
  rintro ⟨span, address⟩
  rw [List.mem_append, List.mem_map, mem_found_iff hd, mem_found_iff hd]
  constructor
  · rintro ⟨before, literal, after, htext, rfl, hstands⟩
    have hfree : c ∉ literal := Shaped.between_not_mem hword hsep hstands.shape
    rcases cut_beside hfree htext with ⟨rest, rfl, rfl⟩ | ⟨rest, rfl, rfl⟩
    · exact .inl ⟨before, literal, rest, rfl, rfl,
        (stands_append_after_iff hword hsep kind ..).mp hstands⟩
    · refine .inr ⟨⟨spanOf rest literal, address⟩, (mem_found_iff hd _ _).mpr
        ⟨rest, literal, after, rfl, rfl, (stands_append_before_iff hword hsep kind ..).mp hstands⟩, ?_⟩
      rw [Candidate.shift, ← hspan]
  · rintro (⟨before, literal, after, rfl, rfl, hstands⟩ | ⟨k, hk, hshift⟩)
    · exact ⟨before, literal, after ++ c :: back, by simp, rfl,
        (stands_append_after_iff hword hsep kind ..).mpr hstands⟩
    · obtain ⟨before, literal, after, rfl, hplace, hstands⟩ := (mem_found_iff hd _ _).mp hk
      obtain ⟨rfl, rfl⟩ := Candidate.mk.inj hshift
      refine ⟨front ++ c :: before, literal, after, by simp, ?_,
        (stands_append_before_iff hword hsep kind ..).mpr hstands⟩
      rw [hspan, hplace]

/-- The scan finds in the joined text what it finds in the two. -/
theorem candidates_append (front back : List Char) :
    candidates (front ++ c :: back) =
      candidates front ++
        (candidates back).map (Candidate.shift (byteLength (front ++ [c]))) := by
  have hwithin (kind : AddressKind) := within_found kind front c
  have hascending (kind : AddressKind) : Ascending ((detectorOf kind).found back) :=
    Detector.found_ascending (detectorOf_faithful kind) back
  have hipv6 := Detector.found_append hword hsep .ipv6 front back
  have hipv4 := Detector.found_append hword hsep .ipv4 front back
  have hmac := Detector.found_append hword hsep .mac front back
  simp only [detectorOf] at hwithin hascending hipv6 hipv4 hmac
  rw [candidates, hipv6, hipv4, hmac,
    mergeDisjoint_append_shift (hwithin .ipv6) (hwithin .ipv4) (hascending .ipv6) (hascending .ipv4),
    mergeDisjoint_append_shift ((hwithin .ipv6).mergeDisjoint (hwithin .ipv4)) (hwithin .mac)
      (mergeDisjoint_ascending (hascending .ipv6) (hascending .ipv4)) (hascending .mac)]
  rfl

end Scan

end Scan

open NetRedact.Scan

/-! ## The pass -/

theorem placed_shift (part : Piece → List Char) (bytes offset : Nat) (pieces : List Piece) :
    placed part (bytes + offset) pieces =
      (placed part offset pieces).map (Candidate.shift bytes) := by
  induction pieces generalizing offset with
  | nil => rfl
  | cons p pieces ih =>
      simp only [placed, List.map_cons, Nat.add_assoc, ih]
      rfl

/-- Text in front of the first gap is copied with it. -/
theorem Redaction.splice_lead (source : Source) (output : List Char) (entries : List MappingEntry)
    (occurrence cursor : Nat) (lead tail : List Char) (pieces : List Piece) :
    splice source output entries occurrence cursor (lead ++ (weave Piece.literal pieces ++ tail))
        (placed Piece.literal (cursor + byteLength lead) pieces) .never =
      splice source (lead.reverse ++ output) entries occurrence (cursor + byteLength lead)
        (weave Piece.literal pieces ++ tail)
        (placed Piece.literal (cursor + byteLength lead) pieces) .never := by
  cases pieces with
  | nil => simp [placed, weave, splice]
  | cons p pieces =>
      -- The first cut is made behind the lead and the gap, or behind the gap alone.
      have hfirst : cursor + byteLength lead + byteLength p.gap - cursor =
          byteLength (lead ++ p.gap) := by
        rw [byteLength_append]
        omega
      have hsecond : cursor + byteLength lead + byteLength p.gap - (cursor + byteLength lead) =
          byteLength p.gap := by omega
      have hcut := splitBytes_append (lead ++ p.gap)
        (p.literal ++ (weave Piece.literal pieces ++ tail))
      rw [placed, splice, splice, weave_cons]
      simp only [Cancellation.check, hfirst, hsecond, List.append_assoc, splitBytes_append] at hcut ⊢
      rw [hcut]
      simp only [List.reverse_append, List.append_assoc]

/-- The source behind that many occurrences. -/
def Source.later (count : Nat) : Source → Source
  | .random draws => .random fun occurrence => draws (count + occurrence)
  | .keyed key salt => .keyed key salt

theorem Source.surrogate_later (source : Source) (count occurrence : Nat) (address : Address) :
    (source.later count).surrogate occurrence address =
      source.surrogate (count + occurrence) address := by
  cases source <;> rfl

/-- A pass over the joined text is a pass over the first one, a copy of the character, and a pass over
the second one with what is then left of the source. -/
theorem run_joined_later (source : Source) {c : Char} (hword : isWord c = false)
    (hsep : isSeparator c = false) (front back : List Char) :
    ∃ r r', Redaction.run source front = .ok r ∧
      Redaction.run (source.later r.entries.length) back = .ok r' ∧
      Redaction.run source (front ++ c :: back) =
        .ok ⟨r.text ++ c :: r'.text, r.entries ++ r'.entries⟩ := by
  obtain ⟨r, pieces, tail, hrun, hw⟩ := exists_woven source front
  obtain ⟨r', pieces', tail', hrun', hw'⟩ := exists_woven (source.later r.entries.length) back
  refine ⟨r, r', hrun, hrun', ?_⟩
  have hlength : r.entries.length = pieces.length := by rw [hw.entries_eq, List.length_map]
  have hfirst : ∀ i (hi : i < pieces.length),
      pieces[i].surrogate = source.surrogate (0 + i) pieces[i].address := by
    intro i hi
    rw [Nat.zero_add]
    exact hw.surrogate_eq i hi
  have hsecond : ∀ i (hi : i < pieces'.length),
      pieces'[i].surrogate = source.surrogate (0 + pieces.length + i) pieces'[i].address := by
    intro i hi
    rw [hw'.surrogate_eq i hi, Source.surrogate_later, hlength, Nat.zero_add]
  have htext : front ++ c :: back = weave Piece.literal pieces ++
      ((tail ++ [c]) ++ (weave Piece.literal pieces' ++ tail')) := by
    rw [hw.text_eq, hw'.text_eq]
    simp
  have hplaces : candidates (front ++ c :: back) = placed Piece.literal 0 pieces ++
      placed Piece.literal (0 + byteLength (weave Piece.literal pieces) + byteLength (tail ++ [c]))
        pieces' := by
    have hbytes : 0 + byteLength (weave Piece.literal pieces) + byteLength (tail ++ [c]) =
        byteLength (front ++ [c]) + 0 := by
      rw [hw.text_eq]
      simp only [byteLength_append]
      omega
    rw [candidates_append hword hsep, hbytes, placed_shift, hw.placed_eq, hw'.placed_eq]
  rw [Redaction.run_eq, hplaces, htext, Redaction.splice_weave source [] [] 0 0 _ _ hfirst,
    Redaction.splice_lead, ← List.append_nil (placed _ _ pieces'),
    Redaction.splice_weave source _ _ _ _ tail' [] hsecond, Redaction.splice, hw.result_eq,
    hw'.result_eq, hw.entries_eq, hw'.entries_eq]
  simp

/-- Redaction is local.  Let two texts be joined by a character that is no word character and none of
the separators.  Then a pass with keyed surrogates makes of the joined text what it makes of the two,
with the same character between them, and its entries are those of the first text and then those of the
second one.  What the scan finds is what it finds in the two, in the second one moved behind the first
one and the character. -/
theorem run_joined (key : Key) (salt : Salt) (front back : List Char) {c : Char}
    (hword : isWord c = false) (hsep : isSeparator c = false) :
    ∃ r r' found found', Redaction.run (.keyed key salt) front = .ok r ∧
      Redaction.run (.keyed key salt) back = .ok r' ∧
      Redaction.run (.keyed key salt) (front ++ c :: back) =
        .ok ⟨r.text ++ c :: r'.text, r.entries ++ r'.entries⟩ ∧
      findCandidates front .never = .ok (found, .never) ∧
      findCandidates back .never = .ok (found', .never) ∧
      findCandidates (front ++ c :: back) .never =
        .ok (found ++ found'.map (Candidate.shift (byteLength (front ++ [c]))), .never) := by
  obtain ⟨r, r', hrun, hrun', hjoined⟩ := run_joined_later (.keyed key salt) hword hsep front back
  refine ⟨r, r', candidates front, candidates back, hrun, hrun', hjoined, findCandidates_never front,
    findCandidates_never back, ?_⟩
  rw [findCandidates_never, candidates_append hword hsep]

/-- Dots and addresses on both sides of a dash that takes three bytes. -/
theorem run_joined_dash :
    ∃ r r' found found', Redaction.run (.keyed ⟨[7], by decide⟩ .stable) "at 10.0.0.1.".toList = .ok r ∧
      Redaction.run (.keyed ⟨[7], by decide⟩ .stable) ".::1 or 10.0.0.1".toList = .ok r' ∧
      Redaction.run (.keyed ⟨[7], by decide⟩ .stable)
          ("at 10.0.0.1.".toList ++ '—' :: ".::1 or 10.0.0.1".toList) =
        .ok ⟨r.text ++ '—' :: r'.text, r.entries ++ r'.entries⟩ ∧
      findCandidates "at 10.0.0.1.".toList .never = .ok (found, .never) ∧
      findCandidates ".::1 or 10.0.0.1".toList .never = .ok (found', .never) ∧
      findCandidates ("at 10.0.0.1.".toList ++ '—' :: ".::1 or 10.0.0.1".toList) .never =
        .ok (found ++ found'.map (Candidate.shift (byteLength ("at 10.0.0.1.".toList ++ ['—']))),
          .never) :=
  run_joined ⟨[7], by decide⟩ .stable "at 10.0.0.1.".toList ".::1 or 10.0.0.1".toList
    (by decide) (by decide)

end NetRedact
