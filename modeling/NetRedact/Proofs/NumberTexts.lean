import NetRedact.Text.Blank
import NetRedact.Text.Decimal
import Mathlib.Data.List.Basic

/-!
# Numbers and white space in texts

A number that is not written by a program may have zeros in front, and a text that holds one word may
have white space around it.  `NumberWord` and `Padded` say which texts these are, and the readers are
shown to take just them.
-/

namespace NetRedact.Text

/-! ## White space -/

theorem isBlank_of_isDigit {c : Char} (h : c.isDigit = true) : isBlank c = false := by
  have hrange : 48 ≤ c.toNat ∧ c.toNat ≤ 57 := by
    simpa [Char.isDigit, UInt32.le_iff_toNat_le] using h
  unfold isBlank
  simp only [decide_eq_false_iff_not]
  omega

theorem trimFront_cons {c : Char} (h : isBlank c = false) (rest : List Char) :
    trimFront (c :: rest) = c :: rest := by
  simp [trimFront, h]

/-- A word with something in it and without white space. -/
def Solid (word : List Char) : Prop :=
  word ≠ [] ∧ ∀ c ∈ word, isBlank c = false

instance (word : List Char) : Decidable (Solid word) :=
  decidable_of_iff (word.isEmpty = false ∧ (word.all fun c => !isBlank c) = true)
    (by simp [Solid])

theorem Solid.reverse {word : List Char} (h : Solid word) : Solid word.reverse :=
  ⟨List.reverse_ne_nil_iff.mpr h.1, fun c hc => h.2 c (List.mem_reverse.mp hc)⟩

/-- White space is dropped up to the first other character. -/
theorem trimFront_append {front word : List Char} (hfront : ∀ c ∈ front, isBlank c = true)
    (hword : Solid word) (rest : List Char) :
    trimFront (front ++ (word ++ rest)) = word ++ rest := by
  obtain ⟨c, more, rfl⟩ := List.exists_cons_of_ne_nil hword.1
  rw [trimFront, List.dropWhile_append_of_pos hfront]
  exact trimFront_cons (hword.2 c List.mem_cons_self) _

/-- A word with nothing but white space around it. -/
def Padded (word cs : List Char) : Prop :=
  ∃ front back, cs = front ++ word ++ back ∧ (∀ c ∈ front, isBlank c = true) ∧
    ∀ c ∈ back, isBlank c = true

/-- What trimming leaves of a text stands in it with white space around. -/
theorem padded_trim (cs : List Char) : Padded (trim cs) cs := by
  have hcut (cs : List Char) :
      ∃ blanks, cs = blanks ++ trimFront cs ∧ ∀ c ∈ blanks, isBlank c = true :=
    ⟨cs.takeWhile isBlank, List.takeWhile_append_dropWhile.symm,
      List.all_eq_true.mp List.all_takeWhile⟩
  obtain ⟨front, hfront, hblank⟩ := hcut cs
  obtain ⟨back, hback, hblank'⟩ := hcut (trimFront cs).reverse
  refine ⟨front, back.reverse, ?_, hblank, fun c hc => hblank' c (List.mem_reverse.mp hc)⟩
  have hword : trimFront cs = trim cs ++ back.reverse := by
    rw [trim, ← List.reverse_append, ← hback, List.reverse_reverse]
  rw [List.append_assoc, ← hword, ← hfront]

/-- A word without white space is what trimming leaves of a text if it stands there with white space
around. -/
theorem trim_eq_iff_padded {word cs : List Char} (hword : Solid word) :
    trim cs = word ↔ Padded word cs := by
  constructor
  · rintro rfl
    exact padded_trim cs
  · rintro ⟨front, back, rfl, hfront, hback⟩
    have hback' : ∀ c ∈ back.reverse, isBlank c = true :=
      fun c hc => hback c (List.mem_reverse.mp hc)
    have hend := trimFront_append hback' hword.reverse []
    rw [List.append_nil] at hend
    rw [trim, List.append_assoc, trimFront_append hfront hword, List.reverse_append, hend,
      List.reverse_reverse]

/-- A reader that trims before it parses takes just the texts in which a word that it parses stands
with white space around, if no such word has white space itself. -/
theorem parse_trim_eq_some_iff {α : Type} {parse : List Char → Option α}
    {Word : List Char → α → Prop} (hparse : ∀ word v, parse word = some v ↔ Word word v)
    (hsolid : ∀ word v, Word word v → Solid word)
    {cs : List Char} {v : α} :
    parse (trim cs) = some v ↔ ∃ word, Padded word cs ∧ Word word v := by
  constructor
  · exact fun h => ⟨trim cs, padded_trim cs, (hparse _ _).mp h⟩
  · rintro ⟨word, hpadded, hword⟩
    rw [(trim_eq_iff_padded (hsolid word v hword)).mpr hpadded]
    exact (hparse word v).mpr hword

/-! ## Numbers -/

/-- Decimal digits of a number up to a limit.  Zeros may stand in front. -/
structure NumberWord (limit : Nat) (word : List Char) (n : Nat) : Prop where
  ne_nil : word ≠ []
  digits : ∀ c ∈ word, c.isDigit = true
  value : decimalNumber word = n
  le : n ≤ limit

/-- A number with or without a plus sign in front. -/
def SignedNumberWord (limit : Nat) (cs : List Char) (n : Nat) : Prop :=
  ∃ word, (cs = word ∨ cs = '+' :: word) ∧ NumberWord limit word n

/-- A plus sign is no digit, so it is clear where the digits begin. -/
theorem unsigned?_eq_some_iff {limit n : Nat} {cs : List Char} :
    unsigned? limit cs = some n ↔ SignedNumberWord limit cs n := by
  have hread (word : List Char) :
      (if !word.isEmpty && word.all Char.isDigit && decide (decimalNumber word ≤ limit) then
        some (decimalNumber word) else none) = some n ↔ NumberWord limit word n := by
    rw [Option.ite_none_right_eq_some]
    simp only [Bool.and_eq_true, Bool.not_eq_true', List.isEmpty_eq_false_iff, List.all_eq_true,
      decide_eq_true_eq, Option.some.injEq]
    constructor
    · rintro ⟨⟨⟨hne, hdigits⟩, hle⟩, rfl⟩
      exact ⟨hne, hdigits, rfl, hle⟩
    · rintro ⟨hne, hdigits, rfl, hle⟩
      exact ⟨⟨⟨hne, hdigits⟩, hle⟩, rfl⟩
  unfold unsigned? SignedNumberWord
  split
  · rename_i word
    rw [hread]
    constructor
    · exact fun h => ⟨word, .inr rfl, h⟩
    · rintro ⟨word', rfl | hcons, hnumber⟩
      · exact absurd (hnumber.digits '+' List.mem_cons_self) (by decide)
      · rwa [(List.cons.inj hcons).2]
  · rename_i hplus
    rw [hread]
    constructor
    · exact fun h => ⟨cs, .inl rfl, h⟩
    · rintro ⟨word', rfl | rfl, hnumber⟩
      · exact hnumber
      · exact absurd rfl (hplus word')

theorem SignedNumberWord.solid {limit n : Nat} {cs : List Char} (h : SignedNumberWord limit cs n) :
    Solid cs := by
  obtain ⟨word, rfl | rfl, hnumber⟩ := h
  · exact ⟨hnumber.ne_nil, fun c hc => isBlank_of_isDigit (hnumber.digits c hc)⟩
  · exact ⟨List.cons_ne_nil _ _, List.forall_mem_cons.mpr
      ⟨by decide, fun c hc => isBlank_of_isDigit (hnumber.digits c hc)⟩⟩

end NetRedact.Text
