import NetRedact.Proofs.LiteralText
import NetRedact.Proofs.Surrogates

/-!
# Literals that overlap a surrogate

A surrogate stands in place of a literal with clear sides.  A literal that shares a character with it
and has clear sides itself cannot go on behind it, and cannot begin in front of it, with one
exception that the replaced literal would have allowed as well; and inside of it, it can only be the
surrogate as a whole.
-/

namespace NetRedact

open NetRedact.Text NetRedact.Scan

/-- The text behind a surrogate: clear for its kind, or a dot and eight groups of four digits, which
come behind the dot where two IPv6 literals with colons at their ends stood around it. -/
def SeamAfter (kind : AddressKind) (after : List Char) : Prop :=
  isClear (detectorOf kind).blocked after = true ∨
    ∃ word more, after = '.' :: (word ++ ':' :: more) ∧ Run isHexDigit 4 4 word

/-- The separator of a surrogate is a dot, or its detector blocks it. -/
theorem separator_blocked (address : Address) :
    address.layout.separator = '.' ∨
      (detectorOf address.kind).blocked.contains address.layout.separator = true := by
  match address with
  | .ipv4 _ | .mac _ .dotted => exact Or.inl rfl
  | .ipv6 _ | .mac _ .colon | .mac _ .hyphen => exact Or.inr rfl

/-- A detector that blocks what another one does not block blocks all that the other one does. -/
theorem blocked_of_blocked {kind kind' : AddressKind} {c s : Char}
    (hc : (detectorOf kind).blocked.contains c = true)
    (hc' : (detectorOf kind').blocked.contains c = false)
    (hs : (detectorOf kind').blocked.contains s = true) :
    (detectorOf kind).blocked.contains s = true := by
  cases kind <;> cases kind' <;>
    simp_all [detectorOf, Detector.ipv4, Detector.ipv6, Detector.mac]

private theorem fits_linked {address : Address} {cs : List Char} (hs : address.layout.Fits cs)
    {kind : AddressKind} {c : Char} (hc : (detectorOf kind).blocked.contains c = true)
    (hc' : (detectorOf address.kind).blocked.contains c = false) :
    Linked (detectorOf kind).blocked cs :=
  hs.linked ((separator_blocked address).imp_right (blocked_of_blocked hc hc'))

/-- What is clear does not begin with a blocked separator. -/
theorem contains_eq_false_of_isClear {blocked rest : List Char} {c : Char} (hdot : c ≠ '.')
    (h : isClear blocked (c :: rest) = true) : blocked.contains c = false := by
  cases hc : blocked.contains c with
  | false => rfl
  | true =>
      rw [isClear_blocked hdot hc] at h
      contradiction

/-- What is clear does not begin with a digit. -/
theorem not_isHexDigit_of_isClear {blocked rest : List Char} {c : Char}
    (h : isClear blocked (c :: rest) = true) : isHexDigit c = false := by
  cases hc : isHexDigit c with
  | false => rfl
  | true =>
      rw [isClear_word (isWord_of_isHexDigit hc)] at h
      contradiction

/-! ## Behind a surrogate -/

/-- A literal that shares its last word with a surrogate, and a dot and the first group of the next
one, would have to end inside of that group. -/
private theorem not_shaped_over_dot {kind : AddressKind} {front back after word more : List Char}
    (hu : Shaped kind (front ++ '.' :: back))
    (hafter : isClear (detectorOf kind).blocked after = true)
    (heq : back ++ after = word ++ ':' :: more) (hword : Run isHexDigit 4 4 word) : False := by
  have hcolon : ':' ∉ back := by
    intro hmem
    rcases hu.separator_order rfl hmem rfl with h | ⟨-, h, -⟩
    · exact absurd h (by decide)
    · exact absurd h (by decide)
  have hend : back = word → ':' :: more = after → False := by
    rintro rfl rfl
    have hfree := contains_eq_false_of_isClear (by decide) hafter
    cases kind with
    | ipv6 => exact absurd hfree (by decide)
    | mac => exact absurd hfree (by decide)
    | ipv4 =>
        have := length_le_of_quadShape ((shaped_ipv4_iff _).mp hu)
          (not_mem_of_run hword (by decide))
        have := hword.2.1
        omega
  -- The literal ends inside of the group, at its end, or behind the colon that follows.
  rcases List.append_eq_append_iff.mp heq with ⟨rest, hrest, hmore⟩ | ⟨rest, hrest, hmore⟩
  · cases rest with
    | nil => exact hend (by simpa using hrest.symm) hmore.symm
    | cons c rest =>
        rw [hmore, List.cons_append] at hafter
        have := hword.1 c (by rw [hrest]; simp)
        rw [not_isHexDigit_of_isClear hafter] at this
        contradiction
  · cases rest with
    | nil => exact hend (by simpa using hrest) hmore
    | cons c rest =>
        obtain ⟨rfl, -⟩ : ':' = c ∧ more = rest ++ after := by simpa using hmore
        exact hcolon (by rw [hrest]; simp)

/-- A literal with clear sides that shares the end of a surrogate ends with it. -/
theorem overhang_after_nil {address : Address} {x y p q after : List Char}
    (hs : address.layout.Fits (x ++ y)) (hseam : SeamAfter address.kind (q ++ after))
    {kind : AddressKind} (hu : Shaped kind (p ++ (y ++ q)))
    (hafter : isClear (detectorOf kind).blocked after = true)
    (hbefore : x ≠ [] → ∃ beyond, isClear (detectorOf kind).blocked (x.reverse ++ beyond) = true) :
    q = [] := by
  rcases q with _ | ⟨c, q⟩
  · rfl
  exfalso
  -- The literal goes on with `c` behind the surrogate.  A digit is excluded by the clear side of the
  -- surrogate, and so is a dot, since a digit follows it; what is left is a blocked separator.
  rcases hseam with hclear | ⟨word, more, heq, hword⟩
  · rw [List.cons_append] at hclear
    rcases hu.literalChar c (by simp) with hhex | rfl | ⟨hdot, hblocked⟩
    · rw [not_isHexDigit_of_isClear hclear] at hhex
      contradiction
    · obtain ⟨-, d, inner, rfl, hd⟩ := hu.dotsEnclosed (p ++ y) q (by simp)
      rw [List.cons_append, isClear_dot_word (isWord_of_isHexDigit hd)] at hclear
      contradiction
    · have hfree := contains_eq_false_of_isClear hdot hclear
      by_cases hx : x = []
      · -- The literal has the separator of the surrogate in front of one that is blocked for it.
        subst hx
        obtain ⟨α, β, rfl⟩ := List.append_of_mem hs.separator_mem
        have hc : isSeparator c = true := by
          refine (hu.char_cases c (by simp)).resolve_left ?_
          rw [not_isHexDigit_of_isClear hclear]
          exact Bool.false_ne_true
        rcases (show Shaped kind ((p ++ α) ++ address.layout.separator :: (β ++ c :: q)) by
          simpa using hu).separator_order (isSeparator_layout address) (by simp) hc with
          rfl | ⟨-, -, rfl⟩
        · rcases separator_blocked address with hsep | hsep
          · exact hdot hsep
          · rw [hsep] at hfree
            contradiction
        · exact hdot rfl
      · obtain ⟨beyond, hbeyond⟩ := hbefore hx
        rw [(fits_linked hs hblocked hfree).before x y beyond rfl hx] at hbeyond
        contradiction
  · obtain ⟨rfl, hrest⟩ : c = '.' ∧ q ++ after = word ++ ':' :: more := by simpa using heq
    have hu' : Shaped kind ((p ++ y) ++ '.' :: q) := by simpa using hu
    exact not_shaped_over_dot hu' hafter hrest hword

/-! ## In front of a surrogate -/

/-- A literal with clear sides that shares the front of a surrogate and begins earlier is an IPv6
literal with a dotted quad at its end, and the surrogate is that quad. -/
theorem overhang_before {address : Address} {y z p beyond : List Char}
    (hs : address.layout.Fits (y ++ z)) (hp : p ≠ [])
    (hseam : isClear (detectorOf address.kind).blocked (p.reverse ++ beyond) = true ∨ p = ['.'])
    {kind : AddressKind} (hu : Shaped kind (p ++ y))
    (hafter : z ≠ [] → ∃ beyond, isClear (detectorOf kind).blocked (z ++ beyond) = true) :
    z = [] ∧ address.kind = .ipv4 ∧ kind = .ipv6 ∧ ∃ front, p = front ++ [':'] := by
  rcases List.eq_nil_or_concat' p with rfl | ⟨front, c, rfl⟩
  · exact absurd rfl hp
  rcases hseam with hclear | hdot
  · rw [List.reverse_append, List.reverse_singleton, List.singleton_append, List.cons_append] at hclear
    -- The last character before the surrogate is again no digit and no dot.
    rcases hu.literalChar c (by simp) with hhex | rfl | ⟨hdot, hblocked⟩
    · rw [not_isHexDigit_of_isClear hclear] at hhex
      contradiction
    · obtain ⟨⟨inner, d, rfl, hd⟩, -⟩ := hu.dotsEnclosed front y (by simp)
      rw [List.reverse_append, List.reverse_singleton, List.singleton_append, List.cons_append,
        isClear_dot_word (isWord_of_isHexDigit hd)] at hclear
      contradiction
    · have hfree := contains_eq_false_of_isClear hdot hclear
      have hz : z = [] := by
        by_contra hz
        obtain ⟨beyond, hbeyond⟩ := hafter hz
        rw [(fits_linked hs hblocked hfree).after y z beyond rfl hz] at hbeyond
        contradiction
      subst hz
      rw [List.append_nil] at hs
      have hc : isSeparator c = true := by
        refine (hu.char_cases c (by simp)).resolve_left ?_
        rw [not_isHexDigit_of_isClear hclear]
        exact Bool.false_ne_true
      rw [List.append_assoc, List.singleton_append] at hu
      -- Its separator and that of the surrogate follow each other in one literal.
      rcases hu.separator_order hc hs.separator_mem (isSeparator_layout address) with
        heq | ⟨rfl, rfl, hsep⟩
      · rcases separator_blocked address with hsep | hsep
        · exact absurd (heq.symm.trans hsep) hdot
        · rw [heq, hfree] at hsep
          contradiction
      · refine ⟨rfl, ?_, rfl, front, rfl⟩
        cases address with
        | ipv4 octets => rfl
        | ipv6 octets => simp [Address.layout] at hsep
        | mac octets style => simp [Address.kind, detectorOf, Detector.mac] at hfree
  · obtain ⟨rfl, rfl⟩ : front = [] ∧ c = '.' := by
      cases front with
      | nil => simpa using hdot
      | cons d front => simp at hdot
    exact absurd hu (fun h => h.head_ne_dot)

/-! ## Inside of a surrogate -/

/-- A literal that has the layout of an address is of the kind of the address. -/
theorem kind_eq_of_fits {address : Address} {cs : List Char} (hs : address.layout.Fits cs)
    {kind : AddressKind} (hu : IsLiteral kind cs) : address.kind = kind := by
  have hshaped := shaped_of_isLiteral hu
  have hunique : ∀ {s : Char} {count least most : Nat}, isSeparator s = true → 2 ≤ count →
      Joined s count isHexDigit least most cs →
        address.layout.separator = s ∧ address.layout.count = count := fun hsep hcount h =>
    joined_unique (isSeparator_layout address) hsep (two_le_layout_count address) hcount hs h
  cases kind with
  | ipv4 =>
      obtain ⟨words, hlength, hwords, rfl⟩ := (shaped_ipv4_iff cs).mp hshaped
      have hrun : ∀ w ∈ words, Run isHexDigit 1 3 w := fun w hw =>
        run_mono (hwords w hw) (fun _ => isHexDigit_of_isDigit) (Nat.le_refl _) (Nat.le_refl _)
      have hlayout := hunique rfl (by decide) ⟨words, hlength, hrun, rfl⟩
      cases address with
      | ipv4 octets => rfl
      | ipv6 octets => simp [Address.layout] at hlayout
      | mac octets style => cases style <;> simp [Address.layout] at hlayout
  | mac =>
      -- No other address has six words, or three.
      have hcount : address.layout.count = 6 ∨ address.layout.count = 3 := by
        rcases (shaped_mac_iff cs).mp hshaped with h | h | h
        · exact .inl (hunique rfl (by decide) h).2
        · exact .inl (hunique rfl (by decide) h).2
        · exact .inr (hunique rfl (by decide) h).2
      cases address with
      | mac octets style => rfl
      | ipv4 octets => simp [Address.layout] at hcount
      | ipv6 octets => simp [Address.layout] at hcount
  | ipv6 =>
      -- An IPv6 literal has a colon, and six pairs joined by colons are read as no address.
      have hsep : ':' = address.layout.separator := by
        refine (hs.chars ':' (colon_mem_of_shaped hshaped)).resolve_left ?_
        decide
      cases address with
      | ipv6 octets => rfl
      | ipv4 octets => simp [Address.layout] at hsep
      | mac octets style =>
          cases style with
          | colon =>
              obtain ⟨octets, hread⟩ := hu
              rw [Ipv6.read?_eq_none_of_pairs hs] at hread
              contradiction
          | hyphen => simp [Address.layout] at hsep
          | dotted => simp [Address.layout] at hsep

/-- A literal with clear sides inside of a surrogate is the surrogate as a whole. -/
theorem inside_eq {address : Address} {x u z : List Char}
    (hs : address.layout.Fits (x ++ (u ++ z))) {kind : AddressKind} (hu : IsLiteral kind u)
    (hbefore : x ≠ [] → ∃ beyond, isClear (detectorOf kind).blocked (x.reverse ++ beyond) = true)
    (hafter : z ≠ [] → ∃ beyond, isClear (detectorOf kind).blocked (z ++ beyond) = true) :
    x = [] ∧ z = [] ∧ address.kind = kind := by
  have hshaped := shaped_of_isLiteral hu
  obtain ⟨s, hmem, hsep⟩ := hshaped.exists_separator
  have hlinked : Linked (detectorOf kind).blocked (x ++ (u ++ z)) := by
    refine hs.linked ?_
    obtain rfl : s = address.layout.separator := by
      refine (hs.chars s (by simp [hmem])).resolve_left ?_
      rw [isHexDigit_eq_false_of_isSeparator hsep]
      exact Bool.false_ne_true
    rcases hshaped.literalChar _ hmem with hhex | hdot | ⟨-, hblocked⟩
    · rw [isHexDigit_eq_false_of_isSeparator hsep] at hhex
      contradiction
    · exact Or.inl hdot
    · exact Or.inr hblocked
  have hx : x = [] := by
    by_contra hx
    obtain ⟨beyond, hbeyond⟩ := hbefore hx
    rw [hlinked.before x (u ++ z) beyond rfl hx] at hbeyond
    contradiction
  have hz : z = [] := by
    by_contra hz
    obtain ⟨beyond, hbeyond⟩ := hafter hz
    rw [hlinked.after (x ++ u) z beyond (by simp) hz] at hbeyond
    contradiction
  subst hx hz
  rw [List.nil_append, List.append_nil] at hs
  exact ⟨rfl, rfl, kind_eq_of_fits hs hu⟩

end NetRedact
