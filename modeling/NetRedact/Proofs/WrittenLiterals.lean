import NetRedact.Proofs.Ipv6Spelling
import NetRedact.Proofs.MacSpelling
import NetRedact.Proofs.Surrogates

/-!
# Written literals are read

Each reader gives back the octets from which a literal was written: decimal octets have no leading
zero, four hexadecimal digits hold the two octets of a group, and a MAC literal shows its layout by
the separator and its octets by the digits.
-/

namespace NetRedact

open NetRedact.Text NetRedact.Scan

/-! ## IPv4 -/

/-- An octet in decimal is a word for the octet. -/
theorem Ipv4.octetWord_decimal (octet : UInt8) :
    Ipv4.OctetWord (decimal octet.toNat) octet := by
  have hlt := octet.toNat_lt
  refine ⟨run_decimal octet, ?_, ?_, ?_⟩
  · intro d rest h
    rcases Nat.eq_zero_or_pos octet.toNat with hzero | hpos
    · rw [hzero] at h
      simp [decimal] at h
    · exact decimal_ne_zero_cons hpos _ h
  · rw [decimalNumber_decimal]
    omega
  · rw [decimalNumber_decimal, UInt8.ofNat_toNat]

theorem Ipv4.read?_render (octets : Octets 4) : Ipv4.read? (Ipv4.render octets) = some octets := by
  rw [Ipv4.read?_eq_some_iff]
  refine ⟨octets.toList.map fun b => decimal b.toNat, ?_, rfl⟩
  rw [Ipv4.Spells, List.forall₂_map_left_iff, List.forall₂_same]
  intro octet _
  exact Ipv4.octetWord_decimal octet

/-! ## IPv6 -/

/-- The octets of a group make up the group. -/
theorem Ipv6.octetsOf_groupOf (high low : UInt8) :
    Ipv6.octetsOf (Ipv6.groupOf high low) = [high, low] := by
  have hhigh := high.toNat_lt
  have hlow := low.toNat_lt
  have hgroup : (Ipv6.groupOf high low).toNat = 256 * high.toNat + low.toNat := by
    simp only [Ipv6.groupOf, UInt16.toNat_add, UInt16.toNat_mul, UInt8.toNat_toUInt16,
      UInt16.reduceToNat]
    omega
  simp only [Ipv6.octetsOf, List.cons.injEq, and_true]
  constructor
  · apply UInt8.toNat_inj.mp
    rw [UInt16.toNat_toUInt8, UInt16.toNat_div, hgroup]
    simp only [UInt16.reduceToNat]
    omega
  · apply UInt8.toNat_inj.mp
    rw [UInt16.toNat_toUInt8, UInt16.toNat_mod, hgroup]
    simp only [UInt16.reduceToNat]
    omega

/-- Four digits are a word for the group whose octets they write. -/
theorem Ipv6.groupWord_hexBytes (group : UInt16) :
    Ipv6.GroupWord (hexBytes (Ipv6.octetsOf group)) group := by
  refine ⟨run_mono (run_hexBytes (n := 2) rfl) (fun _ => id) (by decide) (Nat.le_refl _), ?_⟩
  have hgroup := group.toNat_lt
  have hdigit : ∀ (byte : UInt8), byte.toNat / 16 < 16 ∧ byte.toNat % 16 < 16 := by
    intro byte
    have hbyte := byte.toNat_lt
    omega
  simp only [Ipv6.octetsOf, hexBytes, List.flatMap_cons, List.flatMap_nil, hexByte,
    List.cons_append, List.nil_append, hexNumber?, List.foldlM_cons, List.foldlM_nil,
    hexValue?_digitChar (hdigit _).1, hexValue?_digitChar (hdigit _).2, Option.map_some,
    Option.bind_eq_bind, Option.bind_some, Option.pure_def, Option.some.injEq]
  apply UInt16.toNat_inj.mp
  simp only [UInt16.toNat_toUInt8, UInt16.toNat_div, UInt16.toNat_mod, UInt16.toNat_ofNat',
    UInt16.reduceToNat]
  omega

theorem Ipv6.groupWords_hexBytes (groups : List UInt16) :
    Ipv6.GroupWords false (groups.map fun g => hexBytes (Ipv6.octetsOf g)) groups := by
  induction groups with
  | nil => exact Ipv6.GroupWords.nil
  | cons group groups ih => exact Ipv6.GroupWords.group (Ipv6.groupWord_hexBytes group) ih

theorem Ipv6.ofGroups?_groups (octets : Octets 16) :
    Ipv6.ofGroups? (Ipv6.groups octets) = some octets := by
  rw [Ipv6.ofGroups?, Octets.ofList?_eq_some_iff, Ipv6.groups, List.flatMap_map]
  simp only [Ipv6.octetsOf_groupOf]
  -- Spelled out byte by byte, both sides are the same sixteen octets.
  have hlist : octets.toList = List.ofFn fun i : Fin 16 => octets[i.val] := by
    apply List.ext_getElem
    · simp
    · intro i hi hi'
      rw [List.getElem_ofFn, Vector.getElem_toList]
  rw [hlist]
  rfl

theorem Ipv6.read?_renderFull (octets : Octets 16) :
    Ipv6.read? (Ipv6.renderFull octets) = some octets := by
  apply Ipv6.read?_of_spells
  exact Ipv6.Spells.full (Ipv6.groupWords_hexBytes _) (by simp [Ipv6.groups])
    (Ipv6.ofGroups?_groups octets)

/-! ## MAC -/

/-- The separator of a MAC literal shows its layout. -/
theorem Mac.styleOf_of_fits {octets : Octets 6} {style : MacStyle} {cs : List Char}
    (h : (Address.mac octets style).layout.Fits cs) : Mac.styleOf cs = style := by
  have hmem := h.separator_mem
  have habsent : ∀ c, isHexDigit c = false → c ≠ (Address.mac octets style).layout.separator →
      cs.contains c = false := by
    intro c hhex hne
    rw [List.contains_eq_mem, decide_eq_false_iff_not]
    intro hc
    rcases h.chars c hc with hc | hc
    · rw [hhex] at hc
      contradiction
    · exact hne hc
  unfold Mac.styleOf
  cases style with
  | colon =>
      have hcolon : cs.contains ':' = true := List.contains_iff_mem.mpr hmem
      rw [if_pos hcolon]
  | hyphen =>
      have hhyphen : cs.contains '-' = true := List.contains_iff_mem.mpr hmem
      rw [habsent ':' (by decide) (by simp [Address.layout]), hhyphen]
      rfl
  | dotted =>
      rw [habsent ':' (by decide) (by simp [Address.layout]),
        habsent '-' (by decide) (by simp [Address.layout])]
      rfl

/-- The digits of a MAC literal are those of its octets. -/
theorem Mac.filter_render (style : MacStyle) (octets : Octets 6) :
    (Mac.render style octets).filter isHexDigit = hexBytes octets.toList := by
  have hpairs : ∀ s, isSeparator s = true →
      (joinWith [s] (octets.toList.map hexByte)).filter isHexDigit = hexBytes octets.toList := by
    intro s hs
    rw [Mac.filter_joinWith hs]
    · rfl
    · intro word hword
      obtain ⟨b, -, rfl⟩ := List.mem_map.mp hword
      exact (run_hexByte b).1
  cases style with
  | colon => exact hpairs ':' rfl
  | hyphen => exact hpairs '-' rfl
  | dotted =>
      show (joinWith ['.'] ((Mac.pairs octets.toList).map hexBytes)).filter isHexDigit = _
      rw [Mac.filter_joinWith rfl]
      · have hlength : octets.toList.length = 6 := by simp
        match octets.toList, hlength with
        | [_, _, _, _, _, _], _ => rfl
      · intro word hword
        obtain ⟨bytes, -, rfl⟩ := List.mem_map.mp hword
        exact (run_hexBytes rfl).1

theorem Mac.read?_render (style : MacStyle) (octets : Octets 6) :
    Mac.read? (Mac.render style octets) = some (octets, style) := by
  have hoctets : Octets.ofList? 6 octets.toList = some octets :=
    Octets.ofList?_eq_some_iff.mpr rfl
  rw [Mac.read?, Mac.filter_render, bytesOfHex?_hexBytes,
    Mac.styleOf_of_fits (fits_renderMac octets octets style)]
  simp [hoctets]

end NetRedact
