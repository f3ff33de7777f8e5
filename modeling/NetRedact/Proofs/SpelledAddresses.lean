import NetRedact.Proofs.Frames
import NetRedact.Proofs.LoneLiterals

/-!
# The spellings of an IPv6 address

An address is written in eight groups, and each of them in up to four digits of either case with or
without zeros in front.  One `::` may take the place of zero groups, of a single one as well as of all
eight, and the last two groups may be a dotted quad.  `Ipv6.Spelling` says so from the writer's side,
without any of the readers.  The main statement is that the scan of a spelling finds the address and
nothing else; so under one key and one salt all spellings of an address have one surrogate, and
spellings of different addresses are digested from different bytes.
-/

namespace NetRedact

open NetRedact.Text NetRedact.Scan

namespace Ipv6

/-! ## What is written -/

/-- A word that writes a group: its digits in lower or upper case, with zeros in front, at most four in
all. -/
structure Writes (word : List Char) (group : UInt16) : Prop where
  digits_eq : ∃ zeros, word.map Char.toLower =
    List.replicate zeros '0' ++ Nat.toDigits 16 group.toNat
  length_le : word.length ≤ 4

/-- Words that write groups, where the last two may be written as a dotted quad. -/
inductive Row : List (List Char) → List UInt16 → Prop where
  | nil : Row [] []
  | group {word : List Char} {group : UInt16} {words : List (List Char)} {groups : List UInt16} :
      Writes word group → Row words groups → Row (word :: words) (group :: groups)
  | quad (octets : Octets 4) : Row [Ipv4.render octets] (groupsOfQuad octets)

/-- The spellings of an address: all groups, or the groups in front of and behind a run of zero groups
with `::` between them. -/
inductive Spelling (octets : Octets 16) : List Char → Prop where
  | full {words : List (List Char)} : Row words (groups octets) →
      Spelling octets (joinWith [':'] words)
  | compressed {front back : List (List Char)} {before after : List UInt16} (zeros : Nat) :
      0 < zeros → groups octets = before ++ (List.replicate zeros 0 ++ after) →
      List.Forall₂ Writes front before → Row back after →
      Spelling octets (joinWith [':'] front ++ [':', ':'] ++ joinWith [':'] back)

/-! ## What is read -/

/-- What writes a group is a word for it. -/
theorem Writes.groupWord {word : List Char} {group : UInt16} (h : Writes word group) :
    GroupWord word group := by
  obtain ⟨zeros, hdigits⟩ := h.digits_eq
  have hvalue : hexNumber? word = some group.toNat := by
    rw [← hexNumber?_toLower, hdigits, hexNumber?_zeros, hexNumber?_toDigits]
  have hlength : 1 ≤ word.length := by
    have hpos : 0 < (Nat.toDigits 16 group.toNat).length := Nat.length_toDigits_pos
    have hsame := congrArg List.length hdigits
    rw [List.length_map, List.length_append] at hsame
    omega
  refine ⟨⟨isHexDigit_of_hexNumber? hvalue, hlength, h.length_le⟩, ?_⟩
  rw [hvalue, Option.map_some, UInt16.ofNat_toNat]

theorem groupWords_of_forall₂ {words : List (List Char)} {groups : List UInt16}
    (h : List.Forall₂ Writes words groups) : GroupWords false words groups := by
  induction h with
  | nil => exact GroupWords.nil
  | cons hword _ ih => exact GroupWords.group hword.groupWord ih

theorem Row.groupWords {words : List (List Char)} {groups : List UInt16} (h : Row words groups) :
    ∃ quad, GroupWords quad words groups := by
  induction h with
  | nil => exact ⟨false, GroupWords.nil⟩
  | group hword _ ih =>
      obtain ⟨quad, hwords⟩ := ih
      exact ⟨quad, GroupWords.group hword.groupWord hwords⟩
  | quad octets => exact ⟨true, GroupWords.quad (Ipv4.read?_render octets)⟩

/-- A spelling is read as the address. -/
theorem Spelling.read? {octets : Octets 16} {cs : List Char} (h : Spelling octets cs) :
    Ipv6.read? cs = some octets := by
  have hlength : (groups octets).length = 8 := by simp [groups]
  apply read?_of_spells
  cases h with
  | full hwords =>
      obtain ⟨quad, hwords⟩ := hwords.groupWords
      exact Spells.full hwords hlength (ofGroups?_groups octets)
  | @compressed front back before after zeros hpos hgroups hfront hback =>
      obtain ⟨quad, hback⟩ := hback.groupWords
      have hcount : before.length + (zeros + after.length) = 8 := by
        rw [← hlength, hgroups]
        simp
      have hzeros : 8 - before.length - after.length = zeros := by omega
      refine Spells.compressed (groupWords_of_forall₂ hfront) hback (by omega) ?_
      rw [hzeros, List.append_assoc, ← hgroups]
      exact ofGroups?_groups octets

end Ipv6

/-! ## The scan of a spelling -/

/-- A text that is read as an IPv6 address is the only candidate of itself. -/
theorem candidates_of_ipv6_read? {octets : Octets 16} {cs : List Char}
    (h : Ipv6.read? cs = some octets) :
    candidates cs = [⟨⟨0, byteLength cs⟩, .ipv6 octets⟩] := by
  have hliteral : IsLiteral .ipv6 cs := ⟨octets, h⟩
  have hread : Detector.ipv6.read cs = some (.ipv6 octets) := Option.map_eq_some_iff.mpr ⟨octets, h, rfl⟩
  have hspan : (⟨0, byteLength cs⟩ : Span) = spanOf [] cs := by simp [spanOf]
  refine candidates_eq_singleton ((mem_candidates_iff cs _).mpr ⟨?_, ?_⟩) rfl
  · refine (Detector.mem_found_iff (detectorOf_faithful .ipv6) cs _).mpr
      ⟨[], cs, [], by simp, hspan, shaped_of_isLiteral hliteral, rfl, rfl, hread⟩
  · exact ⟨[], cs, [], by simp, hspan, hliteral, rfl, rfl⟩

/-- A text that is a single candidate is replaced as a whole. -/
theorem run_of_candidates_eq_singleton (source : Source) {cs : List Char} {address : Address}
    (h : candidates cs = [⟨⟨0, byteLength cs⟩, address⟩]) :
    Redaction.run source cs = .ok ⟨source.surrogate 0 address,
      [⟨cs, source.surrogate 0 address, address.kind⟩]⟩ := by
  have htext : cs = weave Piece.literal [⟨[], cs, address, source.surrogate 0 address⟩] ++ [] := by
    simp [weave]
  have hplaced : placed Piece.literal 0 [⟨[], cs, address, source.surrogate 0 address⟩] =
      candidates cs := by
    rw [h]
    simp [placed]
  have hrun := run_of_placed source htext hplaced (by simp)
  simpa [weave, Piece.entry] using hrun

/-- The scan finds in a spelling of an IPv6 address one candidate, which is the address and takes up
the whole text.  So a pass replaces all of it, by a surrogate that depends on the address alone: two
spellings of one address get the same one, and for two addresses different bytes are digested. -/
theorem spellings_agree (key : Key) (salt : Salt) {octets octets' : Octets 16} {cs cs' : List Char}
    (h : Ipv6.Spelling octets cs) (h' : Ipv6.Spelling octets' cs') :
    findCandidates cs .never = .ok ([⟨⟨0, byteLength cs⟩, .ipv6 octets⟩], .never) ∧
      ∃ surrogate surrogate',
        Redaction.run (.keyed key salt) cs = .ok ⟨surrogate, [⟨cs, surrogate, .ipv6⟩]⟩ ∧
        Redaction.run (.keyed key salt) cs' = .ok ⟨surrogate', [⟨cs', surrogate', .ipv6⟩]⟩ ∧
        surrogate = Ipv6.renderFull (leading 16 (key.digest salt (.ipv6 octets))) ∧
        surrogate' = Ipv6.renderFull (leading 16 (key.digest salt (.ipv6 octets'))) ∧
        (octets = octets' → surrogate = surrogate') ∧
        (octets ≠ octets' → digestInput salt (.ipv6 octets) ≠ digestInput salt (.ipv6 octets')) := by
  have hcandidates := candidates_of_ipv6_read? h.read?
  have hcandidates' := candidates_of_ipv6_read? h'.read?
  refine ⟨by rw [findCandidates_never, hcandidates], _, _,
    run_of_candidates_eq_singleton _ hcandidates, run_of_candidates_eq_singleton _ hcandidates',
    rfl, rfl, ?_, ?_⟩
  · rintro rfl
    rfl
  · intro hne hsame
    have hbytes : octets.toList = octets'.toList :=
      ((digestInput_eq_iff_of_salt salt _ _).mp hsame).2
    exact hne (Vector.toList_inj.mp hbytes)

/-- The address `::ffff:192.0.2.1` in its short form, and in full with groups of both cases and with a
zero in front. -/
theorem spellings_agree_mapped :
    let key : Key := ⟨[7], by decide⟩
    let octets : Octets 16 := #v[0, 0, 0, 0, 0, 0, 0, 0, 0, 0, 255, 255, 192, 0, 2, 1]
    let cs := "::ffff:192.0.2.1".toList
    let cs' := "0:0:0:0:0:FFff:c000:0201".toList
    findCandidates cs .never = .ok ([⟨⟨0, byteLength cs⟩, .ipv6 octets⟩], .never) ∧
      ∃ surrogate surrogate',
        Redaction.run (.keyed key .stable) cs = .ok ⟨surrogate, [⟨cs, surrogate, .ipv6⟩]⟩ ∧
        Redaction.run (.keyed key .stable) cs' = .ok ⟨surrogate', [⟨cs', surrogate', .ipv6⟩]⟩ ∧
        surrogate = Ipv6.renderFull (leading 16 (key.digest .stable (.ipv6 octets))) ∧
        surrogate' = Ipv6.renderFull (leading 16 (key.digest .stable (.ipv6 octets))) ∧
        (octets = octets → surrogate = surrogate') ∧
        (octets ≠ octets →
          digestInput .stable (.ipv6 octets) ≠ digestInput .stable (.ipv6 octets)) := by
  intro key octets cs cs'
  have hgroups : Ipv6.groups octets = [0, 0, 0, 0, 0, 0xFFFF, 0xC000, 0x0201] := by decide
  have hzero : Ipv6.Writes ['0'] 0 := ⟨⟨0, by decide⟩, by decide⟩
  have hrow : Ipv6.Row [['f', 'f', 'f', 'f'], "192.0.2.1".toList] [0xFFFF, 0xC000, 0x0201] :=
    .group ⟨⟨0, by decide⟩, by decide⟩ (.quad #v[192, 0, 2, 1])
  have hrow' : Ipv6.Row [['0'], ['0'], ['0'], ['0'], ['0'], ['F', 'F', 'f', 'f'],
      ['c', '0', '0', '0'], ['0', '2', '0', '1']] [0, 0, 0, 0, 0, 0xFFFF, 0xC000, 0x0201] :=
    .group hzero <| .group hzero <| .group hzero <| .group hzero <| .group hzero <|
      .group ⟨⟨0, by decide⟩, by decide⟩ <| .group ⟨⟨0, by decide⟩, by decide⟩ <|
        .group ⟨⟨1, by decide⟩, by decide⟩ .nil
  rw [← hgroups] at hrow'
  exact spellings_agree key .stable (.compressed 5 (by decide) hgroups .nil hrow) (.full hrow')

end NetRedact
