import NetRedact.Json.Token
import NetRedact.Json.Write
import NetRedact.Proofs.Digits
import NetRedact.Proofs.Utf8Texts

/-!
# Written strings are read back

The lexer takes a written string as one token with the text as its content, whatever the text: a
quote or a backslash is escaped, a control character is written by its letter or by its digits, and
every other character stands as its bytes, none of which the lexer could mistake.

What the lexer makes of bytes does not depend on what follows them.  So each lemma is about bytes
with any rest behind, and the lemmas chain.
-/

namespace NetRedact.Json

open NetRedact.Text

/-! ## The content of a string -/

/-- Pieces that make up a text, wherever they stand. -/
def Holds (pieces : List Piece) (cs : List Char) : Prop :=
  ∀ done more, contentBytes? done (pieces ++ more) = contentBytes? ((utf8 cs).reverse ++ done) more

theorem holds_nil : Holds [] [] :=
  fun _ _ => rfl

theorem Holds.append {pieces pieces' : List Piece} {cs cs' : List Char} (h : Holds pieces cs)
    (h' : Holds pieces' cs') : Holds (pieces ++ pieces') (cs ++ cs') := by
  intro done more
  rw [List.append_assoc, h, h', utf8_append, List.reverse_append, List.append_assoc]

theorem contentBytes?_bytes (done bytes : List UInt8) (more : List Piece) :
    contentBytes? done (bytes.map .byte ++ more) = contentBytes? (bytes.reverse ++ done) more := by
  induction bytes generalizing done with
  | nil => rfl
  | cons b bytes ih =>
      rw [List.map_cons, List.cons_append, contentBytes?, ih]
      simp

/-- A character's own bytes make it up. -/
theorem holds_bytes (c : Char) : Holds ((String.utf8EncodeChar c).map .byte) [c] := by
  intro done more
  rw [contentBytes?_bytes]
  simp

/-- A unit that is no half of a pair is a character. -/
theorem holds_unit {n : Nat} (h : n < 0xD800) : Holds [.unit n] [Char.ofNat n] := by
  intro done more
  have hfirst : ¬(0xD800 ≤ n ∧ n < 0xDC00) := by omega
  have hsecond : ¬(0xDC00 ≤ n ∧ n < 0xE000) := by omega
  rw [List.singleton_append, contentBytes?.eq_def]
  simp [hfirst, hsecond]

theorem content?_of_holds {pieces : List Piece} {cs : List Char} (h : Holds pieces cs) :
    content? pieces = some cs := by
  have hbytes : contentBytes? [] pieces = some (utf8 cs) := by
    have := h [] []
    simpa [contentBytes?] using this
  have hread : decodeUtf8 (utf8 cs) = .ok cs := decodeUtf8_eq_ok_iff.mpr rfl
  simp [content?, hbytes, hread, Except.toOption]

/-! ## Inside a string -/

/-- Inside a string, the lexer takes the bytes as the pieces, whatever stands before and behind. -/
def Adds (bytes : List UInt8) (pieces : List Piece) : Prop :=
  ∀ before tokens rest, tokensFrom (.string before) tokens (bytes ++ rest) =
    tokensFrom (.string (pieces.reverse ++ before)) tokens rest

theorem adds_nil : Adds [] [] :=
  fun _ _ _ => rfl

theorem Adds.append {bytes bytes' : List UInt8} {pieces pieces' : List Piece}
    (h : Adds bytes pieces) (h' : Adds bytes' pieces') :
    Adds (bytes ++ bytes') (pieces ++ pieces') := by
  intro before tokens rest
  rw [List.append_assoc, h, h', List.reverse_append, List.append_assoc]

/-- A byte stands for itself unless it is a quote, a backslash or a control character. -/
theorem adds_byte {b : UInt8} (hquote : b ≠ 0x22) (hescape : b ≠ 0x5C) (hcontrol : ¬ b < 0x20) :
    Adds [b] [.byte b] := by
  intro before tokens rest
  rw [List.singleton_append, tokensFrom]
  simp only [Place.step, hquote, hescape, hcontrol, ↓reduceIte]
  rfl

theorem adds_bytes {bytes : List UInt8}
    (h : ∀ b ∈ bytes, b ≠ 0x22 ∧ b ≠ 0x5C ∧ ¬ b < 0x20) : Adds bytes (bytes.map .byte) := by
  induction bytes with
  | nil => exact adds_nil
  | cons b bytes ih =>
      obtain ⟨hquote, hescape, hcontrol⟩ := h b (by simp)
      exact (adds_byte hquote hescape hcontrol).append (ih fun b hb => h b (by simp [hb]))

theorem adds_letter {letter b : UInt8} (hletter : letter ≠ 0x75) (h : escaped? letter = some b) :
    Adds [0x5C, letter] [.byte b] := by
  intro before tokens rest
  rw [List.cons_append, tokensFrom]
  simp [Place.step, tokensFrom, hletter, h]

/-- Four digits behind a backslash and a letter give a unit. -/
theorem adds_digits {d0 d1 d2 d3 : UInt8} {v0 v1 v2 v3 : Nat}
    (h0 : hexValue? (Char.ofNat d0.toNat) = some v0)
    (h1 : hexValue? (Char.ofNat d1.toNat) = some v1)
    (h2 : hexValue? (Char.ofNat d2.toNat) = some v2)
    (h3 : hexValue? (Char.ofNat d3.toNat) = some v3) :
    Adds [0x5C, 0x75, d0, d1, d2, d3] [.unit (16 * (16 * (16 * v0 + v1) + v2) + v3)] := by
  intro before tokens rest
  simp [tokensFrom, Place.step, h0, h1, h2, h3]

/-- A written digit is one byte that has its value. -/
theorem exists_digitByte {n : Nat} (h : n < 16) :
    ∃ b : UInt8, utf8 [Nat.digitChar n] = [b] ∧ hexValue? (Char.ofNat b.toNat) = some n := by
  have hall : ∀ n : Fin 16, (Nat.digitChar n.val).toNat ≤ 0x7F ∧
      hexValue? (Char.ofNat (UInt8.ofNat (Nat.digitChar n.val).toNat).toNat) = some n.val := by
    decide
  obtain ⟨hascii, hvalue⟩ := hall ⟨n, h⟩
  exact ⟨_, by rw [utf8_cons, utf8EncodeChar_of_ascii hascii, utf8_nil, List.append_nil], hvalue⟩

/-- A control character is read from its digits. -/
theorem exists_adds_control {c : Char} (h : c.toNat < 0x20) :
    ∃ pieces, Adds (utf8 ('\\' :: 'u' :: '0' :: '0' :: hexByte (UInt8.ofNat c.toNat))) pieces ∧
      Holds pieces [c] := by
  have hbyte : (UInt8.ofNat c.toNat).toNat = c.toNat := by
    rw [UInt8.toNat_ofNat']
    omega
  obtain ⟨high, hhigh, hhighValue⟩ := exists_digitByte (n := c.toNat / 16) (by omega)
  obtain ⟨low, hlow, hlowValue⟩ := exists_digitByte (n := c.toNat % 16) (by omega)
  have hbytes : utf8 ('\\' :: 'u' :: '0' :: '0' :: hexByte (UInt8.ofNat c.toNat)) =
      [0x5C, 0x75, 0x30, 0x30, high, low] := by
    have hsplit : '\\' :: 'u' :: '0' :: '0' :: hexByte (UInt8.ofNat c.toNat) =
        ['\\', 'u', '0', '0'] ++
          ([Nat.digitChar (c.toNat / 16)] ++ [Nat.digitChar (c.toNat % 16)]) := by
      rw [hexByte, hbyte]
      rfl
    rw [hsplit, utf8_append, utf8_append, hhigh, hlow]
    rfl
  have hvalue : 16 * (16 * (16 * 0 + 0) + c.toNat / 16) + c.toNat % 16 = c.toNat := by omega
  have hholds := holds_unit (n := c.toNat) (by omega)
  rw [Char.ofNat_toNat] at hholds
  rw [hbytes]
  refine ⟨[.unit c.toNat], ?_, hholds⟩
  have hadds : Adds [0x5C, 0x75, 0x30, 0x30, high, low]
      [.unit (16 * (16 * (16 * 0 + 0) + c.toNat / 16) + c.toNat % 16)] :=
    adds_digits (by decide) (by decide) hhighValue hlowValue
  rwa [hvalue] at hadds

/-- Any character but a quote, a backslash and a control character may stand as it is. -/
theorem adds_plain {c : Char} (hquote : c ≠ '"') (hescape : c ≠ '\\')
    (hcontrol : ¬ c.toNat < 0x20) :
    Adds (String.utf8EncodeChar c) ((String.utf8EncodeChar c).map .byte) := by
  refine adds_bytes ?_
  intro b hb
  have hbyte : b.toNat ≠ 0x22 ∧ b.toNat ≠ 0x5C ∧ ¬ b.toNat < 0x20 := by
    by_cases hascii : c.toNat ≤ 0x7F
    · rw [utf8EncodeChar_of_ascii hascii, List.mem_singleton] at hb
      have htoNat : b.toNat = c.toNat := by
        rw [hb, UInt8.toNat_ofNat']
        omega
      rw [htoNat]
      exact ⟨fun h => hquote (Char.toNat_inj.mp h), fun h => hescape (Char.toNat_inj.mp h),
        hcontrol⟩
    · have := le_of_mem_utf8EncodeChar (by omega) hb
      omega
  refine ⟨?_, ?_, ?_⟩
  · rintro rfl
    exact hbyte.1 rfl
  · rintro rfl
    exact hbyte.2.1 rfl
  · rw [UInt8.lt_iff_toNat_lt]
    exact hbyte.2.2

/-- However a character is written, it is read as that character. -/
theorem exists_adds_escape (c : Char) :
    ∃ pieces, Adds (utf8 (escape c)) pieces ∧ Holds pieces [c] := by
  by_cases hletter : c ∈ ['"', '\\', '\x08', '\x0C', '\n', '\r', '\t']
  · refine ⟨(String.utf8EncodeChar c).map .byte, ?_, holds_bytes c⟩
    simp only [List.mem_cons, List.not_mem_nil, or_false] at hletter
    rcases hletter with rfl | rfl | rfl | rfl | rfl | rfl | rfl <;>
      exact adds_letter (by decide) (by decide)
  · simp only [List.mem_cons, List.not_mem_nil, or_false, not_or] at hletter
    by_cases hcontrol : c.toNat < 0x20
    · have hescape : escape c = '\\' :: 'u' :: '0' :: '0' :: hexByte (UInt8.ofNat c.toNat) := by
        simp [escape, hletter, hcontrol]
      rw [hescape]
      exact exists_adds_control hcontrol
    · have hescape : escape c = [c] := by simp [escape, hletter, hcontrol]
      rw [hescape, utf8_cons, utf8_nil, List.append_nil]
      exact ⟨_, adds_plain hletter.1 hletter.2.1 hcontrol, holds_bytes c⟩

theorem exists_adds_text (cs : List Char) :
    ∃ pieces, Adds (utf8 (cs.flatMap escape)) pieces ∧ Holds pieces cs := by
  induction cs with
  | nil => exact ⟨[], adds_nil, holds_nil⟩
  | cons c cs ih =>
      obtain ⟨first, hfirst, hc⟩ := exists_adds_escape c
      obtain ⟨later, hlater, hcs⟩ := ih
      rw [List.flatMap_cons, utf8_append]
      exact ⟨first ++ later, hfirst.append hlater, hc.append hcs⟩

/-! ## Between tokens -/

/-- Between tokens, the lexer takes the bytes as the tokens, whatever stands before and behind. -/
def Lexes (bytes : List UInt8) (tokens : List Token) : Prop :=
  ∀ before rest, tokensFrom .gap before (bytes ++ rest) =
    tokensFrom .gap (tokens.reverse ++ before) rest

theorem lexes_nil : Lexes [] [] :=
  fun _ _ => rfl

theorem Lexes.append {bytes bytes' : List UInt8} {tokens tokens' : List Token}
    (h : Lexes bytes tokens) (h' : Lexes bytes' tokens') :
    Lexes (bytes ++ bytes') (tokens ++ tokens') := by
  intro before rest
  rw [List.append_assoc, h, h', List.reverse_append, List.append_assoc]

theorem lexes_punctuation {b : UInt8} {token : Token} (hgap : isGap b = false) (hquote : b ≠ 0x22)
    (h : punctuation? b = some token) : Lexes [b] [token] := by
  intro before rest
  rw [List.singleton_append, tokensFrom]
  simp [Place.step, Place.step.start, hgap, hquote, h]

/-- A written string is one token with the text as its content. -/
theorem lexes_quote (cs : List Char) : Lexes (utf8 (quote cs)) [.text (some cs)] := by
  obtain ⟨pieces, hadds, hholds⟩ := exists_adds_text cs
  have hbytes : utf8 (quote cs) = 0x22 :: (utf8 (cs.flatMap escape) ++ [0x22]) := by
    rw [quote, utf8_cons, utf8_append]
    rfl
  intro before rest
  rw [hbytes, List.cons_append, List.append_assoc, tokensFrom]
  simp only [Place.step, Place.step.start]
  change tokensFrom (.string []) before _ = _
  rw [hadds, List.singleton_append, tokensFrom]
  simp [Place.step, content?_of_holds hholds]

theorem tokens?_of_lexes {bytes : List UInt8} {tokens : List Token} (h : Lexes bytes tokens) :
    tokens? bytes = some tokens := by
  have := h [] []
  simpa [tokens?, tokensFrom] using this

end NetRedact.Json
