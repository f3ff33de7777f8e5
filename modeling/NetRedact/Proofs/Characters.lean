import NetRedact.Scan.Boundary
import NetRedact.Text.Hex

/-!
# Digits, separators and word characters

The scan tells three classes of characters apart: hexadecimal digits, which make up the words of a
literal; the separators `.`, `:` and `-`, which join them; and word characters, against which no
literal may begin or end.  Every digit is a word character and no separator is one.
-/

namespace NetRedact.Text

/-- A hexadecimal digit lies in one of three ranges. -/
theorem isHexDigit_iff (c : Char) :
    isHexDigit c = true ↔
      ('0' ≤ c ∧ c ≤ '9') ∨ ('a' ≤ c ∧ c ≤ 'f') ∨ ('A' ≤ c ∧ c ≤ 'F') := by
  unfold isHexDigit hexValue?
  split
  · simp [*]
  · split
    · simp [*]
    · split <;> simp [*]

theorem isHexDigit_of_isDigit {c : Char} (h : c.isDigit = true) : isHexDigit c = true := by
  rw [isHexDigit_iff]
  refine Or.inl ?_
  simpa [Char.isDigit, Char.le_def] using h

/-- Hexadecimal digits are ASCII, so no table is needed to see that they are word characters. -/
theorem isWord_of_isHexDigit {c : Char} (h : isHexDigit c = true) : isWord c = true := by
  rw [isHexDigit_iff] at h
  simp only [Char.le_def, UInt32.le_iff_toNat_le] at h
  change (48 ≤ c.toNat ∧ c.toNat ≤ 57) ∨ (97 ≤ c.toNat ∧ c.toNat ≤ 102) ∨
    (65 ≤ c.toNat ∧ c.toNat ≤ 70) at h
  have hascii : c.toNat < 0x80 := by omega
  rw [isWord, if_pos hascii]
  delta Char.isAlphanum Char.isAlpha Char.isUpper Char.isLower Char.isDigit
  simp only [ge_iff_le, UInt32.le_iff_toNat_le, Bool.or_eq_true, Bool.and_eq_true,
    decide_eq_true_eq]
  change (((65 ≤ c.toNat ∧ c.toNat ≤ 90) ∨ (97 ≤ c.toNat ∧ c.toNat ≤ 122)) ∨
    (48 ≤ c.toNat ∧ c.toNat ≤ 57)) ∨ (c == '_') = true
  omega

/-- The characters that join the words of a literal. -/
def isSeparator (c : Char) : Bool :=
  c == '.' || c == ':' || c == '-'

theorem isSeparator_iff (c : Char) : isSeparator c = true ↔ c = '.' ∨ c = ':' ∨ c = '-' := by
  simp [isSeparator, or_assoc]

theorem isHexDigit_eq_false_of_isSeparator {c : Char} (h : isSeparator c = true) :
    isHexDigit c = false := by
  rcases (isSeparator_iff c).mp h with rfl | rfl | rfl <;> decide

theorem isWord_eq_false_of_isSeparator {c : Char} (h : isSeparator c = true) :
    isWord c = false := by
  rcases (isSeparator_iff c).mp h with rfl | rfl | rfl <;> decide

end NetRedact.Text

namespace NetRedact.Scan

open NetRedact.Text

@[simp] theorem isClear_nil (blocked : List Char) : isClear blocked [] = true := rfl

@[simp] theorem isClear_dot (blocked : List Char) : isClear blocked ['.'] = true := rfl

@[simp] theorem isClear_dot_cons (blocked : List Char) (c : Char) (rest : List Char) :
    isClear blocked ('.' :: c :: rest) = !isWord c := rfl

/-- Away from a dot the nearest character alone decides. -/
theorem isClear_cons {c : Char} (hc : c ≠ '.') (blocked rest : List Char) :
    isClear blocked (c :: rest) = !(isWord c || blocked.contains c) := by
  cases rest with
  | nil => rw [isClear] <;> simp [hc]
  | cons d rest => rw [isClear] <;> simp [hc]

/-- Nothing is clear against a word character. -/
theorem isClear_word {c : Char} (hc : isWord c = true) (blocked rest : List Char) :
    isClear blocked (c :: rest) = false := by
  have hdot : c ≠ '.' := by
    rintro rfl
    rw [isWord_eq_false_of_isSeparator (by decide)] at hc
    contradiction
  rw [isClear_cons hdot, hc]
  rfl

/-- Nothing is clear against a dot behind which a word character stands. -/
theorem isClear_dot_word {c : Char} (hc : isWord c = true) (blocked rest : List Char) :
    isClear blocked ('.' :: c :: rest) = false := by
  rw [isClear_dot_cons, hc]
  rfl

/-- Nothing is clear against a blocked separator. -/
theorem isClear_blocked {c : Char} {blocked : List Char} (hdot : c ≠ '.')
    (hc : blocked.contains c = true) (rest : List Char) :
    isClear blocked (c :: rest) = false := by
  rw [isClear_cons hdot, hc, Bool.or_true]
  rfl

/-- A side is decided once it shows a character other than a dot, or a dot and what is behind it. -/
def Decided (side : List Char) : Prop :=
  ∃ c rest, side = c :: rest ∧ (c = '.' → rest ≠ [])

/-- What lies beyond the decisive characters does not matter. -/
theorem isClear_append_eq {side : List Char} (h : Decided side) (blocked beyond other : List Char) :
    isClear blocked (side ++ beyond) = isClear blocked (side ++ other) := by
  obtain ⟨c, rest, rfl, hrest⟩ := h
  by_cases hc : c = '.'
  · subst hc
    cases rest with
    | nil => exact absurd rfl (hrest rfl)
    | cons d rest => simp
  · simp only [List.cons_append, isClear_cons hc]

end NetRedact.Scan
