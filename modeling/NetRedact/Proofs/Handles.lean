import NetRedact.Mapping.Handle
import NetRedact.Proofs.Ipv4Spelling
import NetRedact.Proofs.Surrogates

/-!
# Written handles

A handle is read back from its text, so no two handles have one text.  The text always has the same
length and consists of digits and hyphens, so neither the form without hyphens nor a wrapping can be
taken for it.
-/

namespace NetRedact.Handle

open NetRedact.Text

/-- The number of characters of groups of the given sizes in bytes, hyphens included. -/
def textSize : List Nat → Nat
  | [] => 0
  | [size] => 2 * size
  | size :: sizes => 2 * size + 1 + textSize sizes

theorem length_hyphenated (sizes : List Nat) (bytes : List UInt8) (h : bytes.length = sizes.sum) :
    (hyphenated sizes bytes).length = textSize sizes := by
  induction sizes, bytes using hyphenated.induct with
  | case1 bytes => rfl
  | case2 size bytes =>
      simp only [List.sum_cons, List.sum_nil, Nat.add_zero] at h
      simp [hyphenated, textSize, length_hexBytes, h]
  | case3 size sizes bytes hne ih =>
      simp only [List.sum_cons] at h
      have hback := ih (by rw [List.length_drop]; omega)
      rw [hyphenated, textSize, List.length_append, List.length_cons, length_hexBytes,
        List.length_take, hback]
      · omega
      all_goals exact hne

theorem readHyphenated_hyphenated (sizes : List Nat) (bytes : List UInt8)
    (h : bytes.length = sizes.sum) :
    readHyphenated sizes (hyphenated sizes bytes) = some bytes := by
  induction sizes, bytes using hyphenated.induct with
  | case1 bytes =>
      have hnil : bytes = [] := List.eq_nil_of_length_eq_zero h
      rw [hnil]
      rfl
  | case2 size bytes =>
      simp only [List.sum_cons, List.sum_nil, Nat.add_zero] at h
      have htake : bytes.take size = bytes := List.take_of_length_le (Nat.le_of_eq h)
      rw [hyphenated, readHyphenated, htake, if_pos (by rw [length_hexBytes, h]),
        bytesOfHex?_hexBytes]
  | case3 size sizes bytes hne ih =>
      simp only [List.sum_cons] at h
      have hback := ih (by rw [List.length_drop]; omega)
      have hfront : (hexBytes (bytes.take size)).length = 2 * size := by
        rw [length_hexBytes, List.length_take]
        omega
      rw [hyphenated, readHyphenated, List.drop_left' hfront, List.take_left' hfront]
      · simp [hback, bytesOfHex?_hexBytes]
      all_goals exact hne

/-- The groups hold the sixteen octets. -/
theorem length_octets (h : Handle) : h.octets.toList.length = groupSizes.sum := by
  simp [groupSizes]

theorem length_render (h : Handle) : h.render.length = 36 :=
  length_hyphenated groupSizes h.octets.toList h.length_octets

/-- Not even in capitals does a digit begin a name space. -/
theorem toLower_ne_of_isHexDigit {c : Char} (hc : isHexDigit c = true) : c.toLower ≠ 'u' := by
  have hall : ∀ n : Fin 128, isHexDigit (Char.ofNat n.val) = true →
      (Char.ofNat n.val).toLower ≠ 'u' := by decide
  have hascii : c.toNat < 128 := by
    rw [isHexDigit_iff] at hc
    simp only [Char.le_def, UInt32.le_iff_toNat_le] at hc
    change (48 ≤ c.toNat ∧ c.toNat ≤ 57) ∨ (97 ≤ c.toNat ∧ c.toNat ≤ 102) ∨
      (65 ≤ c.toNat ∧ c.toNat ≤ 70) at hc
    omega
  have hchar := hall ⟨c.toNat, hascii⟩
  rw [Char.ofNat_toNat] at hchar
  exact hchar hc

/-- Nothing is taken off a text that begins with a digit. -/
theorem unwrap_of_isHexDigit {c : Char} (hc : isHexDigit c = true) (rest : List Char) :
    unwrap (c :: rest) = c :: rest := by
  have hbrace : c ≠ '\x7b' := by
    rintro rfl
    exact absurd hc (by decide)
  have hspace : ((c :: rest).take "urn:uuid:".toList.length).map Char.toLower ≠
      "urn:uuid:".toList := by
    intro heq
    exact toLower_ne_of_isHexDigit hc (List.head_eq_of_cons_eq heq)
  rw [unwrap, if_neg hspace]
  simpa using hbrace

theorem unwrap_render (h : Handle) : unwrap h.render = h.render := by
  match hoctets : h.octets.toList with
  | [] =>
      have := h.length_octets
      simp [hoctets, groupSizes] at this
  | b :: bytes =>
      have hlt := b.toNat_lt
      rw [render, hoctets]
      exact unwrap_of_isHexDigit (isHexDigit_digitChar (n := b.toNat / 16) (by omega)) _

/-- The reader gives back the handle that was written. -/
theorem read?_render (h : Handle) : read? h.render = some h := by
  have hsize : ¬ h.render.length = 32 := by
    rw [length_render]
    decide
  have hread : readHyphenated groupSizes h.render = some h.octets.toList :=
    readHyphenated_hyphenated groupSizes h.octets.toList h.length_octets
  have hoctets : Octets.ofList? 16 h.octets.toList = some h.octets :=
    Octets.ofList?_eq_some_iff.mpr rfl
  rw [read?, if_neg hsize, unwrap_render, hread]
  simp [hoctets]

theorem render_injective : Function.Injective render := by
  intro h h' heq
  have := congrArg read? heq
  rw [read?_render, read?_render] at this
  exact Option.some.inj this

end NetRedact.Handle
