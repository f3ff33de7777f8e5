import NetRedact.Text.Decimal
import NetRedact.Text.Hex
import Mathlib.Algebra.GroupWithZero.Nat
import Mathlib.Data.List.Basic

/-!
# Written digits are read back

Numbers in decimal, with or without zeros in front, and bytes in hexadecimal are read as what was
written.  How many digits there are is known as well: a number that fits its places takes exactly
these, and a byte always takes two.  Bytes are read from digits of either case and written in lower
case, so writing them again changes nothing but the case.
-/

namespace NetRedact.Text

/-! ## Decimal digits -/

theorem decimalNumber_decimal (n : Nat) : decimalNumber (decimal n) = n :=
  Nat.ofDigitChars_toDigits (by decide) (by decide)

/-- The first digit of a positive number is no zero.  The induction is on the number: its first digit
is that of its tenth part, unless it has one digit only. -/
theorem decimal_ne_zero_cons {n : Nat} (hpos : 0 < n) (rest : List Char) :
    decimal n ≠ '0' :: rest := by
  induction n using Nat.strongRecOn generalizing rest with
  | ind n ih =>
      intro h
      rw [decimal, Nat.toDigits_eq_if (by decide)] at h
      split at h
      · rename_i hlt
        have hall : ∀ n : Fin 10, 0 < n.val → Nat.digitChar n.val ≠ '0' := by decide
        exact hall ⟨n, hlt⟩ hpos (List.cons.inj h).1
      · have htenth : decimal (n / 10) ≠ [] := List.ne_nil_of_length_pos Nat.length_toDigits_pos
        obtain ⟨c, digits, hdigits⟩ := List.exists_cons_of_ne_nil htenth
        have hcons : Nat.toDigits 10 (n / 10) = c :: digits := hdigits
        rw [hcons, List.cons_append] at h
        obtain ⟨rfl, -⟩ := List.cons.inj h
        exact ih (n / 10) (by omega) (by omega) digits hdigits

/-- Zeros in front do not count. -/
theorem decimalNumber_padded (width n : Nat) : decimalNumber (padded width n) = n := by
  have hzeros (k : Nat) : (List.replicate k '0').foldl (fun n c => 10 * n + decimalValue c) 0 = 0 :=
    Nat.ofDigitChars_replicate_zero
  unfold padded decimalNumber
  rw [List.foldl_append, hzeros]
  exact decimalNumber_decimal n

theorem length_padded (width n : Nat) :
    (padded width n).length = max width (decimal n).length := by
  simp only [padded, List.length_append, List.length_replicate]
  omega

theorem isDigit_of_mem_padded {width n : Nat} {c : Char} (hc : c ∈ padded width n) :
    c.isDigit = true := by
  simp only [padded, List.mem_append] at hc
  rcases hc with hc | hc
  · rw [List.eq_of_mem_replicate hc]
    decide
  · exact Nat.isDigit_of_mem_toDigits (by decide) (by decide) hc

/-- There is a digit, even if no places are asked for. -/
theorem padded_eq_cons (width n : Nat) :
    ∃ c rest, padded width n = c :: rest ∧ c.isDigit = true := by
  have hpos : 0 < (decimal n).length := Nat.length_toDigits_pos
  match hdigits : padded width n with
  | [] =>
      have hlength := length_padded width n
      rw [hdigits, List.length_nil] at hlength
      omega
  | c :: rest =>
      have hmem : c ∈ padded width n := by simp [hdigits]
      exact ⟨c, rest, rfl, isDigit_of_mem_padded hmem⟩

/-- A number that fits its places takes exactly these. -/
theorem length_padded_of_lt {width n : Nat} (hwidth : 0 < width) (h : n < 10 ^ width) :
    (padded width n).length = width := by
  have hlength : (decimal n).length ≤ width :=
    (Nat.length_toDigits_le_iff (by decide) hwidth).mpr h
  rw [length_padded]
  omega

/-! ## Hexadecimal digits -/

theorem hexValue?_digitChar {n : Nat} (h : n < 16) : hexValue? (Nat.digitChar n) = some n := by
  have hall : ∀ n : Fin 16, hexValue? (Nat.digitChar n.val) = some n.val := by decide
  exact hall ⟨n, h⟩

/-- A number is read digit by digit, so another digit at its end counts as one. -/
theorem hexNumber?_concat (digits : List Char) (c : Char) :
    hexNumber? (digits ++ [c]) =
      (hexNumber? digits).bind fun n => (hexValue? c).map (16 * n + ·) := by
  simp [hexNumber?, List.foldlM_append]

/-- Zeros in front do not count. -/
theorem hexNumber?_zeros (zeros : Nat) (digits : List Char) :
    hexNumber? (List.replicate zeros '0' ++ digits) = hexNumber? digits := by
  induction zeros with
  | zero => rfl
  | succ zeros ih => exact ih

/-- The digits of a number are read as the number.  The induction is on the number: behind the digits of
its sixteenth part stands its last digit. -/
theorem hexNumber?_toDigits (n : Nat) : hexNumber? (Nat.toDigits 16 n) = some n := by
  induction n using Nat.strongRecOn with
  | ind n ih =>
      rw [Nat.toDigits_eq_if (by decide)]
      split
      · rename_i hlt
        simp [hexNumber?, hexValue?_digitChar hlt]
      · rw [hexNumber?_concat, ih (n / 16) (by omega), Option.bind_some,
          hexValue?_digitChar (Nat.mod_lt n (by decide)), Option.map_some, Nat.div_add_mod]

/-- A digit by its code. -/
theorem hexValue?_eq_toNat (c : Char) : hexValue? c =
    if 48 ≤ c.toNat ∧ c.toNat ≤ 57 then some (c.toNat - 48)
    else if 97 ≤ c.toNat ∧ c.toNat ≤ 102 then some (c.toNat - 97 + 10)
    else if 65 ≤ c.toNat ∧ c.toNat ≤ 70 then some (c.toNat - 65 + 10)
    else none := by
  unfold hexValue?
  simp only [Char.le_def, UInt32.le_iff_toNat_le]
  rfl

theorem toNat_toLower (c : Char) :
    c.toLower.toNat = if 65 ≤ c.toNat ∧ c.toNat ≤ 90 then c.toNat + 32 else c.toNat := by
  unfold Char.toLower
  simp only [ge_iff_le, UInt32.le_iff_toNat_le]
  change (dite (65 ≤ c.toNat ∧ c.toNat ≤ 90) _ _ : Char).toNat = _
  split
  · rename_i hupper
    show (c.val + 32).toNat = c.toNat + 32
    rw [UInt32.toNat_add]
    show (c.toNat + 32) % 2 ^ 32 = _
    omega
  · rfl

/-- The case of a digit does not count. -/
theorem hexValue?_toLower (c : Char) : hexValue? c.toLower = hexValue? c := by
  rw [hexValue?_eq_toNat, hexValue?_eq_toNat, toNat_toLower]
  by_cases hupper : 65 ≤ c.toNat ∧ c.toNat ≤ 90
  · rw [if_pos hupper, if_neg (by omega), if_neg (show ¬ (48 ≤ c.toNat ∧ c.toNat ≤ 57) by omega),
      if_neg (show ¬ (97 ≤ c.toNat ∧ c.toNat ≤ 102) by omega)]
    by_cases hle : c.toNat ≤ 70
    · rw [if_pos (by omega), if_pos ⟨hupper.1, hle⟩]
      exact congrArg some (by omega)
    · rw [if_neg (by omega), if_neg (by omega), if_neg (by omega)]
  · rw [if_neg hupper]

theorem isHexDigit_toLower (c : Char) : isHexDigit c.toLower = isHexDigit c := by
  rw [isHexDigit, hexValue?_toLower, isHexDigit]

/-- A digit is the written digit of its value, up to case. -/
theorem digitChar_of_hexValue? {c : Char} {n : Nat} (h : hexValue? c = some n) :
    n < 16 ∧ Nat.digitChar n = c.toLower := by
  have hall : ∀ code : Fin 103, ∀ n ∈ hexValue? (Char.ofNat code.val),
      n < 16 ∧ Nat.digitChar n = (Char.ofNat code.val).toLower := by decide
  have hcode : c.toNat < 103 := by
    rw [hexValue?_eq_toNat] at h
    by_contra hlarge
    rw [if_neg (by omega), if_neg (by omega), if_neg (by omega)] at h
    contradiction
  have hdigit := hall ⟨c.toNat, hcode⟩ n
  rw [Char.ofNat_toNat] at hdigit
  exact hdigit h

theorem hexNumber?_toLower (digits : List Char) :
    hexNumber? (digits.map Char.toLower) = hexNumber? digits := by
  simp [hexNumber?, List.foldlM_map, hexValue?_toLower]

/-- Only digits are read as a number. -/
theorem isHexDigit_of_hexNumber? {digits : List Char} {n : Nat} (h : hexNumber? digits = some n) :
    ∀ c ∈ digits, isHexDigit c = true := by
  have hfrom : ∀ (digits : List Char) {first n : Nat},
      digits.foldlM (fun n c => (hexValue? c).map (16 * n + ·)) first = some n →
        ∀ c ∈ digits, isHexDigit c = true := by
    intro digits
    induction digits with
    | nil => simp
    | cons d digits ih =>
        intro first n hread
        rw [List.foldlM_cons, Option.bind_eq_bind, Option.bind_eq_some_iff] at hread
        obtain ⟨next, hnext, hread⟩ := hread
        obtain ⟨value, hvalue, -⟩ := Option.map_eq_some_iff.mp hnext
        have hdigit : isHexDigit d = true := by
          rw [isHexDigit, hvalue]
          rfl
        exact List.forall_mem_cons.mpr ⟨hdigit, ih hread⟩
  exact hfrom digits h

theorem bytesOfHex?_hexBytes (bytes : List UInt8) : bytesOfHex? (hexBytes bytes) = some bytes := by
  induction bytes with
  | nil => rfl
  | cons b bytes ih =>
      have hlt := b.toNat_lt
      have hbyte : 16 * (b.toNat / 16) + b.toNat % 16 = b.toNat := Nat.div_add_mod _ _
      change bytesOfHex? (Nat.digitChar (b.toNat / 16) :: Nat.digitChar (b.toNat % 16) ::
        hexBytes bytes) = _
      rw [bytesOfHex?, hexValue?_digitChar (by omega), hexValue?_digitChar (by omega), ih]
      simp only [hbyte, UInt8.ofNat_toNat]

theorem hexBytes_inj {bytes bytes' : List UInt8} :
    hexBytes bytes = hexBytes bytes' ↔ bytes = bytes' := by
  constructor
  · intro h
    have hread := congrArg bytesOfHex? h
    rw [bytesOfHex?_hexBytes, bytesOfHex?_hexBytes] at hread
    exact Option.some.inj hread
  · rintro rfl
    rfl

/-- Bytes that are read from digits are written as these digits in lower case. -/
theorem hexBytes_of_bytesOfHex? {digits : List Char} {bytes : List UInt8}
    (h : bytesOfHex? digits = some bytes) : hexBytes bytes = digits.map Char.toLower := by
  fun_induction bytesOfHex? digits generalizing bytes with
  | case1 =>
      obtain rfl : [] = bytes := Option.some.inj h
      rfl
  | case2 => contradiction
  | case3 high low rest m n others hrest hhigh hlow ih =>
      obtain rfl : UInt8.ofNat (16 * m + n) :: others = bytes := Option.some.inj h
      obtain ⟨hm, hhigh⟩ := digitChar_of_hexValue? hhigh
      obtain ⟨hn, hlow⟩ := digitChar_of_hexValue? hlow
      have hbyte : (UInt8.ofNat (16 * m + n)).toNat = 16 * m + n :=
        UInt8.toNat_ofNat_of_lt' (by rw [UInt8.size]; omega)
      have hfirst : (16 * m + n) / 16 = m := by omega
      have hsecond : (16 * m + n) % 16 = n := by omega
      have hpair : hexByte (UInt8.ofNat (16 * m + n)) = [high.toLower, low.toLower] := by
        rw [hexByte, hbyte, hfirst, hsecond, hhigh, hlow]
      show hexByte (UInt8.ofNat (16 * m + n)) ++ hexBytes others = _
      rw [hpair, ih hrest]
      rfl
  | case4 => contradiction

theorem length_hexBytes (bytes : List UInt8) : (hexBytes bytes).length = 2 * bytes.length := by
  have htwo : bytes.map (fun b => (hexByte b).length) = bytes.map fun _ => 2 := rfl
  rw [hexBytes, List.length_flatMap, htwo]
  simp [Nat.mul_comm]

end NetRedact.Text
