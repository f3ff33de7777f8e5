import NetRedact.Proofs.WrittenLiterals

/-!
# The layouts of a MAC address

A MAC literal is written by joining pairs or quadruples of digits.  It is not read that way: the reader
takes the digits wherever they stand, and the layout from the separator that it comes upon.  On the
texts that the scan looks for the two fit.  The main statement is that reading and writing are inverse
up to case; hence the octets of a literal are its digits, whatever its layout is.

The argument is that a row of words of known length is known once its digits are.  A literal in lower
case and what is written for it are rows of the same layout, and both have the digits that were read.
-/

namespace NetRedact

open NetRedact.Text NetRedact.Scan

/-! ## Case -/

theorem toLower_eq_separator_iff {c s : Char} (hs : isSeparator s = true) :
    c.toLower = s ↔ c = s := by
  have hcode : s.toNat < 65 := by
    rcases (isSeparator_iff s).mp hs with rfl | rfl | rfl <;> decide
  rw [← Char.toNat_inj, ← Char.toNat_inj, toNat_toLower]
  split <;> omega

/-- A layout does not depend on case. -/
theorem Layout.Fits.toLower_iff {address : Address} {cs : List Char} :
    address.layout.Fits (cs.map Char.toLower) ↔ address.layout.Fits cs :=
  joined_map_iff (fun _ => toLower_eq_separator_iff (isSeparator_layout address)) isHexDigit_toLower

namespace Mac

/-! ## Digits -/

/-- The digits of a literal in lower case, without its separators. -/
def digits (literal : List Char) : List Char :=
  (literal.filter isHexDigit).map Char.toLower

theorem filter_toLower (literal : List Char) :
    (literal.map Char.toLower).filter isHexDigit = digits literal := by
  rw [digits, List.filter_map]
  exact congrArg _ (List.filter_congr fun c _ => isHexDigit_toLower c)

/-- Rows of words of one length that are joined by one separator are equal if their digits are. -/
theorem eq_of_filter_eq {s : Char} {count width : Nat} {cs cs' : List Char}
    (hs : isSeparator s = true) (h : Joined s count isHexDigit width width cs)
    (h' : Joined s count isHexDigit width width cs')
    (hdigits : cs.filter isHexDigit = cs'.filter isHexDigit) : cs = cs' := by
  obtain ⟨words, hcount, hwords, rfl⟩ := h
  obtain ⟨words', hcount', hwords', rfl⟩ := h'
  rw [filter_joinWith hs fun word hword => (hwords word hword).1,
    filter_joinWith hs fun word hword => (hwords' word hword).1] at hdigits
  have hlengths : words.map List.length = words'.map List.length := by
    rw [map_length_of_run hwords, map_length_of_run hwords', hcount, hcount']
  rw [List.eq_iff_flatten_eq.mpr ⟨hdigits, hlengths⟩]

theorem eq_of_fits {octets : Octets 6} {style : MacStyle} {cs cs' : List Char}
    (h : (Address.mac octets style).layout.Fits cs) (h' : (Address.mac octets style).layout.Fits cs')
    (hdigits : cs.filter isHexDigit = cs'.filter isHexDigit) : cs = cs' := by
  have hs := isSeparator_layout (Address.mac octets style)
  cases style <;> exact eq_of_filter_eq hs h h' hdigits

/-! ## What is read -/

theorem read?_eq_some_iff {literal : List Char} {octets : Octets 6} {style : MacStyle} :
    read? literal = some (octets, style) ↔
      bytesOfHex? (literal.filter isHexDigit) = some octets.toList ∧ styleOf literal = style := by
  simp [read?, Option.bind_eq_some_iff, Octets.ofList?_eq_some_iff]

theorem digits_of_read? {literal : List Char} {octets : Octets 6} {style : MacStyle}
    (h : read? literal = some (octets, style)) : digits literal = hexBytes octets.toList :=
  (hexBytes_of_bytesOfHex? (read?_eq_some_iff.mp h).1).symm

/-- What is read from a literal is written as the literal in lower case. -/
theorem render_of_read? {literal : List Char} {octets : Octets 6} {style : MacStyle}
    (hshape : MacShape literal) (h : read? literal = some (octets, style)) :
    render style octets = literal.map Char.toLower := by
  obtain ⟨shown, hfits⟩ := exists_fits_of_macShape hshape octets
  have hshown : shown = style :=
    (styleOf_of_fits hfits).symm.trans (read?_eq_some_iff.mp h).2
  subst hshown
  refine eq_of_fits (fits_renderMac octets octets shown) (Layout.Fits.toLower_iff.mpr hfits) ?_
  rw [filter_render, filter_toLower, digits_of_read? h]

/-- A text that is a written literal in lower case is a literal. -/
theorem macShape_of_render_eq {literal : List Char} {octets : Octets 6} {style : MacStyle}
    (h : render style octets = literal.map Char.toLower) : MacShape literal := by
  have hfits := fits_renderMac octets octets style
  rw [h] at hfits
  exact (Layout.Fits.toLower_iff.mp hfits).macShape

theorem detector_read_eq_some_iff {literal : List Char} {octets : Octets 6} {style : MacStyle} :
    Detector.mac.read literal = some (.mac octets style) ↔ read? literal = some (octets, style) := by
  simp [Detector.mac]

/-- Reading and writing MAC literals are inverse up to case.  A text has the scanned shape if and only if
it is read as octets in a layout whose written literal is the text in lower case; any six octets in any
layout are read from their literal.  So two literals, in whatever layouts, are read as the same bytes if
and only if they have the same digits up to case. -/
theorem read_inverse_render :
    (∀ literal, macPattern.Matches literal ↔ ∃ octets style,
      Detector.mac.read literal = some (.mac octets style) ∧
        render style octets = literal.map Char.toLower) ∧
    (∀ octets style, Detector.mac.read (render style octets) = some (.mac octets style)) ∧
    ∀ literal literal', macPattern.Matches literal → macPattern.Matches literal' →
      ∃ address address', Detector.mac.read literal = some address ∧
        Detector.mac.read literal' = some address' ∧
        (address.bytes = address'.bytes ↔ digits literal = digits literal') := by
  refine ⟨fun literal => ⟨?_, ?_⟩, ?_, ?_⟩
  · intro h
    have hshape := (macPattern_matches_iff literal).mp h
    obtain ⟨octets, hread⟩ := read?_of_macShape hshape
    exact ⟨octets, _, detector_read_eq_some_iff.mpr hread, render_of_read? hshape hread⟩
  · rintro ⟨octets, style, -, hrender⟩
    exact (macPattern_matches_iff literal).mpr (macShape_of_render_eq hrender)
  · intro octets style
    exact detector_read_eq_some_iff.mpr (read?_render style octets)
  · intro literal literal' h h'
    obtain ⟨octets, hread⟩ := read?_of_macShape ((macPattern_matches_iff literal).mp h)
    obtain ⟨octets', hread'⟩ := read?_of_macShape ((macPattern_matches_iff literal').mp h')
    refine ⟨_, _, detector_read_eq_some_iff.mpr hread, detector_read_eq_some_iff.mpr hread', ?_⟩
    rw [digits_of_read? hread, digits_of_read? hread', hexBytes_inj]
    rfl

/-- One address with digits of both cases, in pairs and in quadruples. -/
theorem read_inverse_render_two_layouts :
    let literal := "00:1A:2b:3C:4d:5E".toList
    let literal' := "001a.2B3c.4D5e".toList
    macPattern.Matches literal ∧ macPattern.Matches literal' ∧
      ∃ address address', Detector.mac.read literal = some address ∧
        Detector.mac.read literal' = some address' ∧ address.bytes = address'.bytes := by
  intro literal literal'
  have h : macPattern.Matches literal := (read_inverse_render.1 literal).mpr
    ⟨#v[0x00, 0x1A, 0x2B, 0x3C, 0x4D, 0x5E], .colon, by decide, by decide⟩
  have h' : macPattern.Matches literal' := (read_inverse_render.1 literal').mpr
    ⟨#v[0x00, 0x1A, 0x2B, 0x3C, 0x4D, 0x5E], .dotted, by decide, by decide⟩
  obtain ⟨address, address', hread, hread', hbytes⟩ := read_inverse_render.2.2 literal literal' h h'
  exact ⟨h, h', address, address', hread, hread', hbytes.mpr (by decide)⟩

end Mac

end NetRedact
