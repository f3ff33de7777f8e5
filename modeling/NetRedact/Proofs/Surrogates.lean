import NetRedact.Proofs.Digits
import NetRedact.Proofs.Preference
import NetRedact.Surrogate
import Mathlib.Data.List.Basic

/-!
# The shapes of surrogates

A surrogate is a row of words of digits, joined by the separator that the kind of the address, and
for a MAC address its layout, asks for.  No surrogate is compressed and none has a second separator.
-/

namespace NetRedact

open NetRedact.Text NetRedact.Scan

/-- How the words of a surrogate are joined, how many there are, and how long they are. -/
structure Layout where
  separator : Char
  count : Nat
  least : Nat
  most : Nat

/-- The layout of surrogates for an address. -/
def Address.layout : Address → Layout
  | .ipv4 _ => ⟨'.', 4, 1, 3⟩
  | .ipv6 _ => ⟨':', 8, 4, 4⟩
  | .mac _ .colon => ⟨':', 6, 2, 2⟩
  | .mac _ .hyphen => ⟨'-', 6, 2, 2⟩
  | .mac _ .dotted => ⟨'.', 3, 4, 4⟩

/-- The text has a layout: words of hexadecimal digits in the right number and length. -/
def Layout.Fits (layout : Layout) (cs : List Char) : Prop :=
  Joined layout.separator layout.count isHexDigit layout.least layout.most cs

theorem isSeparator_layout (address : Address) : isSeparator address.layout.separator = true := by
  match address with
  | .ipv4 _ | .ipv6 _ | .mac _ .colon | .mac _ .hyphen | .mac _ .dotted => rfl

theorem two_le_layout_count (address : Address) : 2 ≤ address.layout.count := by
  match address with
  | .ipv4 _ | .ipv6 _ | .mac _ .colon | .mac _ .hyphen | .mac _ .dotted => simp [Address.layout]

theorem layout_least_pos (address : Address) : 0 < address.layout.least := by
  match address with
  | .ipv4 _ | .ipv6 _ | .mac _ .colon | .mac _ .hyphen | .mac _ .dotted => simp [Address.layout]

/-- A MAC literal has the layout of the MAC addresses of some style. -/
theorem Scan.exists_fits_of_macShape {cs : List Char} (h : MacShape cs) (octets : Octets 6) :
    ∃ style, (Address.mac octets style).layout.Fits cs := by
  rcases h with h | h | h
  · exact ⟨.colon, h⟩
  · exact ⟨.hyphen, h⟩
  · exact ⟨.dotted, h⟩

theorem Layout.Fits.macShape {octets : Octets 6} {style : MacStyle} {cs : List Char}
    (h : (Address.mac octets style).layout.Fits cs) : MacShape cs := by
  cases style with
  | colon => exact Or.inl h
  | hyphen => exact Or.inr (Or.inl h)
  | dotted => exact Or.inr (Or.inr h)

/-! ## Written words -/

theorem isHexDigit_digitChar {n : Nat} (h : n < 16) : isHexDigit (Nat.digitChar n) = true := by
  have hall : ∀ n : Fin 16, isHexDigit (Nat.digitChar n.val) = true := by decide
  exact hall ⟨n, h⟩

theorem run_hexByte (b : UInt8) : Run isHexDigit 2 2 (hexByte b) := by
  have hlt := b.toNat_lt
  refine ⟨?_, Nat.le_refl _, Nat.le_refl _⟩
  intro c hc
  simp only [hexByte, List.mem_cons, List.not_mem_nil, or_false] at hc
  rcases hc with rfl | rfl
  · exact isHexDigit_digitChar (by omega)
  · exact isHexDigit_digitChar (by omega)

theorem run_hexBytes {bytes : List UInt8} {n : Nat} (h : bytes.length = n) :
    Run isHexDigit (2 * n) (2 * n) (hexBytes bytes) := by
  subst h
  have hlength := length_hexBytes bytes
  refine ⟨?_, Nat.le_of_eq hlength.symm, Nat.le_of_eq hlength⟩
  intro c hc
  obtain ⟨b, -, hc⟩ := List.mem_flatMap.mp hc
  exact (run_hexByte b).1 c hc

/-- An octet in decimal has one to three digits. -/
theorem run_decimal (b : UInt8) : Run Char.isDigit 1 3 (decimal b.toNat) := by
  have hlt := b.toNat_lt
  refine ⟨fun c hc => Nat.isDigit_of_mem_toDigits (by decide) (by decide) hc,
    Nat.length_toDigits_pos, (Nat.length_toDigits_le_iff (by decide) (by decide)).mpr ?_⟩
  exact Nat.lt_trans hlt (by decide)

/-! ## Written literals -/

theorem quadShape_render (octets : Octets 4) : QuadShape (Ipv4.render octets) := by
  refine ⟨_, by simp, ?_, rfl⟩
  intro word hword
  obtain ⟨b, -, rfl⟩ := List.mem_map.mp hword
  exact run_decimal b

theorem joined_renderFull (octets : Octets 16) :
    Joined ':' 8 isHexDigit 4 4 (Ipv6.renderFull octets) := by
  refine ⟨_, by simp [Ipv6.groups], ?_, rfl⟩
  intro word hword
  obtain ⟨group, -, rfl⟩ := List.mem_map.mp hword
  exact run_hexBytes (n := 2) rfl

theorem fits_renderMac (original octets : Octets 6) (style : MacStyle) :
    (Address.mac original style).layout.Fits (Mac.render style octets) := by
  have hpairs : ∀ s, Joined s 6 isHexDigit 2 2 (joinWith [s] (octets.toList.map hexByte)) := by
    intro s
    refine ⟨_, by simp, ?_, rfl⟩
    intro word hword
    obtain ⟨b, -, rfl⟩ := List.mem_map.mp hword
    exact run_hexByte b
  cases style with
  | colon => exact hpairs ':'
  | hyphen => exact hpairs '-'
  | dotted =>
      have hlength : octets.toList.length = 6 := by simp
      change Joined '.' 3 isHexDigit 4 4 (joinWith ['.'] ((Mac.pairs octets.toList).map hexBytes))
      match octets.toList, hlength with
      | [a, b, c, d, e, f], _ =>
          refine ⟨_, rfl, ?_, rfl⟩
          intro word hword
          obtain ⟨pair, hpair, rfl⟩ := List.mem_map.mp hword
          refine run_hexBytes (n := 2) ?_
          simp only [Mac.pairs, List.mem_cons, List.not_mem_nil, or_false] at hpair
          rcases hpair with rfl | rfl | rfl <;> rfl

theorem quadShape_fits {cs : List Char} (octets : Octets 4) (h : QuadShape cs) :
    (Address.ipv4 octets).layout.Fits cs := by
  obtain ⟨words, hlength, hwords, rfl⟩ := h
  exact ⟨words, hlength, fun word hword =>
    run_mono (hwords word hword) (fun _ => isHexDigit_of_isDigit) (Nat.le_refl _) (Nat.le_refl _), rfl⟩

/-- Whatever its bytes, a surrogate has the layout of the address it stands for. -/
theorem fits_renderLike (address : Address) (bytes : List UInt8) :
    address.layout.Fits (renderLike address bytes) := by
  cases address with
  | ipv4 octets => exact quadShape_fits octets (quadShape_render _)
  | ipv6 octets => exact joined_renderFull _
  | mac octets style => exact fits_renderMac octets _ style

theorem fits_surrogate (source : Source) (occurrence : Nat) (address : Address) :
    address.layout.Fits (source.surrogate occurrence address) := by
  cases source with
  | random draws => exact fits_renderLike address _
  | keyed key salt => exact fits_renderLike address _

/-! ## What a layout implies -/

namespace Layout.Fits

variable {address : Address} {cs : List Char}

/-- A surrogate consists of digits and one separator. -/
theorem chars (h : address.layout.Fits cs) :
    ∀ c ∈ cs, isHexDigit c = true ∨ c = address.layout.separator :=
  joined_chars h

theorem separator_mem (h : address.layout.Fits cs) : address.layout.separator ∈ cs := by
  obtain ⟨word, rest, -, rfl⟩ := joined_cases (two_le_layout_count address) h
  simp

/-- A surrogate begins with a digit. -/
theorem exists_head (h : address.layout.Fits cs) :
    ∃ c rest, cs = c :: rest ∧ isHexDigit c = true := by
  obtain ⟨word, rest, hword, rfl⟩ := joined_cases (two_le_layout_count address) h
  obtain ⟨c, inner, rfl, hc⟩ := exists_cons_of_run hword (layout_least_pos address)
  exact ⟨c, _, rfl, hc⟩

/-- A surrogate ends with a digit. -/
theorem exists_last (h : address.layout.Fits cs) :
    ∃ front c, cs = front ++ [c] ∧ isHexDigit c = true := by
  obtain ⟨words, hcount, hwords, rfl⟩ := h
  have hne : words ≠ [] := by
    rintro rfl
    have := two_le_layout_count address
    simp only [List.length_nil] at hcount
    omega
  obtain ⟨front, last, hlast, hjoin⟩ := joinWith_getLast address.layout.separator hne
  have hrun := hwords last hlast
  rcases List.eq_nil_or_concat' last with rfl | ⟨inner, c, rfl⟩
  · have := layout_least_pos address
    have := hrun.2.1
    simp only [List.length_nil] at this
    omega
  · exact ⟨front ++ inner, c, by rw [hjoin, List.append_assoc], hrun.1 c (by simp)⟩

/-- At no inner place of a surrogate is a side clear, if its separator is a dot or blocked. -/
theorem linked (h : address.layout.Fits cs) {blocked : List Char}
    (hblocked : address.layout.separator = '.' ∨ blocked.contains address.layout.separator = true) :
    Linked blocked cs := by
  by_cases hdot : address.layout.separator = '.'
  · refine linked_of_literalChar ?_ ?_
    · intro c hc
      rcases h.chars c hc with hhex | rfl
      · exact Or.inl hhex
      · exact Or.inr (Or.inl hdot)
    · have hjoined : Joined address.layout.separator _ _ _ _ cs := h
      rw [hdot] at hjoined
      exact dotsEnclosed_of_joined (fun _ => id) (layout_least_pos address) hjoined
  · refine linked_of_literalChar ?_ (dotsEnclosed_of_not_mem ?_)
    · intro c hc
      rcases h.chars c hc with hhex | rfl
      · exact Or.inl hhex
      · exact Or.inr (Or.inr ⟨hdot, hblocked.resolve_left hdot⟩)
    · intro hmem
      rcases h.chars '.' hmem with hhex | heq
      · exact absurd hhex (by decide)
      · exact hdot heq.symm

end Layout.Fits

end NetRedact
