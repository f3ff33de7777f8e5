import NetRedact.Proofs.Offsets
import NetRedact.Text.Utf8

/-!
# Reading UTF-8

Reading bytes and writing a text undo each other: bytes are read as a text exactly if they are the
bytes of that text.  So what is refused is no text at all, and nothing is lost of what is read.
-/

namespace NetRedact.Text

@[simp] theorem utf8_nil : utf8 [] = [] := rfl

@[simp] theorem utf8_cons (c : Char) (cs : List Char) :
    utf8 (c :: cs) = String.utf8EncodeChar c ++ utf8 cs := by
  simp [utf8]

theorem length_utf8 (cs : List Char) : (utf8 cs).length = byteLength cs := by
  induction cs with
  | nil => rfl
  | cons c cs ih =>
      rw [utf8_cons, List.length_append, String.length_utf8EncodeChar, ih, byteLength_cons]

/-! ## Bytes of one character -/

theorem continuation?_eq_some_iff {b : UInt8} {x : Nat} :
    continuation? b = some x ↔ b.toNat = x + 128 ∧ x < 64 := by
  unfold continuation?
  simp only [UInt8.le_iff_toNat_le, UInt8.lt_iff_toNat_lt]
  have h128 : (0x80 : UInt8).toNat = 128 := rfl
  have h192 : (0xC0 : UInt8).toNat = 192 := rfl
  rw [h128, h192]
  split
  · rw [Option.some.injEq]
    omega
  · simp only [reduceCtorEq, false_iff]
    omega

theorem scalar?_eq_some_iff {short n : Nat} {c : Char} :
    scalar? short n = some c ↔ c.toNat = n ∧ short < n := by
  unfold scalar?
  by_cases hvalid : n.isValidChar
  · have hnat : (Char.ofNatAux n hvalid).toNat = n := rfl
    rw [dif_pos hvalid]
    by_cases hshort : short < n
    · rw [if_pos hshort, Option.some.injEq]
      constructor
      · rintro rfl
        exact ⟨hnat, hshort⟩
      · rintro ⟨hc, -⟩
        exact Char.toNat_inj.mp (hnat.trans hc.symm)
    · rw [if_neg hshort]
      simp [hshort]
  · rw [dif_neg hvalid]
    simp only [reduceCtorEq, false_iff, not_and]
    rintro rfl
    exact absurd c.valid hvalid

private theorem eq_ofNat_iff {b : UInt8} {n : Nat} (h : n < 256) :
    b = UInt8.ofNat n ↔ b.toNat = n := by
  rw [← UInt8.toNat_inj, UInt8.toNat_ofNat', Nat.mod_eq_of_lt h]

theorem utf8EncodeChar_eq_one_iff {c : Char} (h : c.toNat ≤ 0x7F) {b0 : UInt8} :
    String.utf8EncodeChar c = [b0] ↔ b0.toNat = c.toNat := by
  change c.val.toNat ≤ 127 at h
  simp only [String.utf8EncodeChar, h, ↓reduceIte, List.cons.injEq, and_true]
  rw [eq_comm, eq_ofNat_iff (by omega)]
  rfl

theorem utf8EncodeChar_eq_two_iff {c : Char} (h : 0x7F < c.toNat) (h' : c.toNat ≤ 0x7FF)
    {b0 b1 : UInt8} :
    String.utf8EncodeChar c = [b0, b1] ↔
      b0.toNat = c.toNat / 64 + 192 ∧ b1.toNat = c.toNat % 64 + 128 := by
  change 127 < c.val.toNat at h
  change c.val.toNat ≤ 2047 at h'
  simp only [String.utf8EncodeChar, Nat.not_le.mpr h, h', ↓reduceIte, List.cons.injEq, and_true]
  rw [eq_comm (b := b0), eq_comm (b := b1), eq_ofNat_iff (by omega), eq_ofNat_iff (by omega)]
  change _ ↔ b0.toNat = c.val.toNat / 64 + 192 ∧ b1.toNat = c.val.toNat % 64 + 128
  omega

theorem utf8EncodeChar_eq_three_iff {c : Char} (h : 0x7FF < c.toNat) (h' : c.toNat ≤ 0xFFFF)
    {b0 b1 b2 : UInt8} :
    String.utf8EncodeChar c = [b0, b1, b2] ↔
      b0.toNat = c.toNat / 4096 + 224 ∧ b1.toNat = c.toNat / 64 % 64 + 128 ∧
        b2.toNat = c.toNat % 64 + 128 := by
  change 2047 < c.val.toNat at h
  change c.val.toNat ≤ 65535 at h'
  have hlow : ¬ c.val.toNat ≤ 127 := by omega
  simp only [String.utf8EncodeChar, hlow, Nat.not_le.mpr h, h', ↓reduceIte, List.cons.injEq, and_true]
  rw [eq_comm (b := b0), eq_comm (b := b1), eq_comm (b := b2), eq_ofNat_iff (by omega),
    eq_ofNat_iff (by omega), eq_ofNat_iff (by omega)]
  change _ ↔ b0.toNat = c.val.toNat / 4096 + 224 ∧ b1.toNat = c.val.toNat / 64 % 64 + 128 ∧
    b2.toNat = c.val.toNat % 64 + 128
  omega

theorem toNat_lt (c : Char) : c.toNat < 0x110000 := by
  have hvalid : c.val.toNat < 0xD800 ∨ 0xDFFF < c.val.toNat ∧ c.val.toNat < 0x110000 := c.valid
  change c.val.toNat < 0x110000
  omega

theorem utf8EncodeChar_eq_four_iff {c : Char} (h : 0xFFFF < c.toNat) {b0 b1 b2 b3 : UInt8} :
    String.utf8EncodeChar c = [b0, b1, b2, b3] ↔
      b0.toNat = c.toNat / 262144 + 240 ∧ b1.toNat = c.toNat / 4096 % 64 + 128 ∧
        b2.toNat = c.toNat / 64 % 64 + 128 ∧ b3.toNat = c.toNat % 64 + 128 := by
  have hlt := toNat_lt c
  change 65535 < c.val.toNat at h
  change c.val.toNat < 1114112 at hlt
  have hlow : ¬ c.val.toNat ≤ 127 := by omega
  have hmiddle : ¬ c.val.toNat ≤ 2047 := by omega
  simp only [String.utf8EncodeChar, hlow, hmiddle, Nat.not_le.mpr h, ↓reduceIte, List.cons.injEq,
    and_true]
  rw [eq_comm (b := b0), eq_comm (b := b1), eq_comm (b := b2), eq_comm (b := b3),
    eq_ofNat_iff (by omega), eq_ofNat_iff (by omega), eq_ofNat_iff (by omega),
    eq_ofNat_iff (by omega)]
  change _ ↔ b0.toNat = c.val.toNat / 262144 + 240 ∧ b1.toNat = c.val.toNat / 4096 % 64 + 128 ∧
    b2.toNat = c.val.toNat / 64 % 64 + 128 ∧ b3.toNat = c.val.toNat % 64 + 128
  omega

/-! ## Sequences of several bytes -/

theorem decode2?_eq_some_iff {b0 b1 : UInt8} {c : Char} :
    decode2? b0 b1 = some c ↔
      0x7F < c.toNat ∧ c.toNat ≤ 0x7FF ∧ String.utf8EncodeChar c = [b0, b1] := by
  have hlow : (0xC0 : UInt8).toNat = 192 := rfl
  have hhigh : (0xE0 : UInt8).toNat = 224 := rfl
  simp only [decode2?, Option.bind_eq_bind, Option.bind_eq_some_iff, continuation?_eq_some_iff,
    Option.ite_none_right_eq_some, scalar?_eq_some_iff, UInt8.le_iff_toNat_le,
    UInt8.lt_iff_toNat_lt, hlow, hhigh]
  constructor
  · rintro ⟨x1, ⟨hb1, hx1⟩, hb0, hc, hshort⟩
    have h : 0x7F < c.toNat := by omega
    have h' : c.toNat ≤ 0x7FF := by omega
    refine ⟨h, h', (utf8EncodeChar_eq_two_iff h h').mpr ?_⟩
    omega
  · rintro ⟨h, h', hbytes⟩
    have hbytes := (utf8EncodeChar_eq_two_iff h h').mp hbytes
    refine ⟨c.toNat % 64, ?_, ?_, ?_⟩ <;> omega

theorem decode3?_eq_some_iff {b0 b1 b2 : UInt8} {c : Char} :
    decode3? b0 b1 b2 = some c ↔
      0x7FF < c.toNat ∧ c.toNat ≤ 0xFFFF ∧ String.utf8EncodeChar c = [b0, b1, b2] := by
  have hlow : (0xE0 : UInt8).toNat = 224 := rfl
  have hhigh : (0xF0 : UInt8).toNat = 240 := rfl
  simp only [decode3?, Option.bind_eq_bind, Option.bind_eq_some_iff, continuation?_eq_some_iff,
    Option.ite_none_right_eq_some, scalar?_eq_some_iff, UInt8.le_iff_toNat_le,
    UInt8.lt_iff_toNat_lt, hlow, hhigh]
  constructor
  · rintro ⟨x1, ⟨hb1, hx1⟩, x2, ⟨hb2, hx2⟩, hb0, hc, hshort⟩
    have h : 0x7FF < c.toNat := by omega
    have h' : c.toNat ≤ 0xFFFF := by omega
    refine ⟨h, h', (utf8EncodeChar_eq_three_iff h h').mpr ?_⟩
    omega
  · rintro ⟨h, h', hbytes⟩
    have hbytes := (utf8EncodeChar_eq_three_iff h h').mp hbytes
    refine ⟨c.toNat / 64 % 64, ?_, c.toNat % 64, ?_, ?_, ?_⟩ <;> omega

theorem decode4?_eq_some_iff {b0 b1 b2 b3 : UInt8} {c : Char} :
    decode4? b0 b1 b2 b3 = some c ↔
      0xFFFF < c.toNat ∧ String.utf8EncodeChar c = [b0, b1, b2, b3] := by
  have hlow : (0xF0 : UInt8).toNat = 240 := rfl
  have hhigh : (0xF8 : UInt8).toNat = 248 := rfl
  simp only [decode4?, Option.bind_eq_bind, Option.bind_eq_some_iff, continuation?_eq_some_iff,
    Option.ite_none_right_eq_some, scalar?_eq_some_iff, UInt8.le_iff_toNat_le,
    UInt8.lt_iff_toNat_lt, hlow, hhigh]
  constructor
  · rintro ⟨x1, ⟨hb1, hx1⟩, x2, ⟨hb2, hx2⟩, x3, ⟨hb3, hx3⟩, hb0, hc, hshort⟩
    have h : 0xFFFF < c.toNat := by omega
    refine ⟨h, (utf8EncodeChar_eq_four_iff h).mpr ?_⟩
    omega
  · rintro ⟨h, hbytes⟩
    have hlt := toNat_lt c
    have hbytes := (utf8EncodeChar_eq_four_iff h).mp hbytes
    refine ⟨c.toNat / 4096 % 64, ?_, c.toNat / 64 % 64, ?_, c.toNat % 64, ?_, ?_, ?_⟩ <;> omega

/-! ## Whole texts -/

/-- A byte that begins a longer sequence begins no pair. -/
private theorem decode2?_eq_none {b0 : UInt8} (h : 224 ≤ b0.toNat) (b1 : UInt8) :
    decode2? b0 b1 = none := by
  cases hread : decode2? b0 b1 with
  | none => rfl
  | some c =>
      obtain ⟨hlow, hhigh, hbytes⟩ := decode2?_eq_some_iff.mp hread
      have := (utf8EncodeChar_eq_two_iff hlow hhigh).mp hbytes
      omega

private theorem decode3?_eq_none {b0 : UInt8} (h : 240 ≤ b0.toNat) (b1 b2 : UInt8) :
    decode3? b0 b1 b2 = none := by
  cases hread : decode3? b0 b1 b2 with
  | none => rfl
  | some c =>
      obtain ⟨hlow, hhigh, hbytes⟩ := decode3?_eq_some_iff.mp hread
      have := (utf8EncodeChar_eq_three_iff hlow hhigh).mp hbytes
      omega

private theorem not_ascii {b : UInt8} (h : 128 ≤ b.toNat) : ¬ b < 0x80 := by
  rw [UInt8.lt_iff_toNat_lt]
  have h128 : (0x80 : UInt8).toNat = 128 := rfl
  omega

/-! ## The bytes of a character -/

private theorem exists_one_byte {c : Char} (h : c.toNat ≤ 0x7F) :
    ∃ b0, String.utf8EncodeChar c = [b0] := by
  change c.val.toNat ≤ 127 at h
  exact ⟨_, by simp only [String.utf8EncodeChar, h, ↓reduceIte]; rfl⟩

private theorem exists_two_bytes {c : Char} (hlow : 0x7F < c.toNat) (hhigh : c.toNat ≤ 0x7FF) :
    ∃ b0 b1, String.utf8EncodeChar c = [b0, b1] := by
  have h1 : ¬ c.val.toNat ≤ 127 := Nat.not_le.mpr hlow
  change c.val.toNat ≤ 2047 at hhigh
  exact ⟨_, _, by simp only [String.utf8EncodeChar, h1, hhigh, ↓reduceIte]; rfl⟩

private theorem exists_three_bytes {c : Char} (hlow : 0x7FF < c.toNat)
    (hhigh : c.toNat ≤ 0xFFFF) : ∃ b0 b1 b2, String.utf8EncodeChar c = [b0, b1, b2] := by
  have h2 : ¬ c.val.toNat ≤ 2047 := Nat.not_le.mpr hlow
  have h1 : ¬ c.val.toNat ≤ 127 := by omega
  change c.val.toNat ≤ 65535 at hhigh
  exact ⟨_, _, _, by simp only [String.utf8EncodeChar, h1, h2, hhigh, ↓reduceIte]; rfl⟩

private theorem exists_four_bytes {c : Char} (hlow : 0xFFFF < c.toNat) :
    ∃ b0 b1 b2 b3, String.utf8EncodeChar c = [b0, b1, b2, b3] := by
  have h3 : ¬ c.val.toNat ≤ 65535 := Nat.not_le.mpr hlow
  have h2 : ¬ c.val.toNat ≤ 2047 := by omega
  have h1 : ¬ c.val.toNat ≤ 127 := by omega
  exact ⟨_, _, _, _, by simp only [String.utf8EncodeChar, h1, h2, h3, ↓reduceIte]; rfl⟩

theorem utf8EncodeChar_of_ascii {c : Char} (h : c.toNat ≤ 0x7F) :
    String.utf8EncodeChar c = [UInt8.ofNat c.toNat] := by
  obtain ⟨b0, hbytes⟩ := exists_one_byte h
  have hb0 := (utf8EncodeChar_eq_one_iff h).mp hbytes
  rw [hbytes, ← hb0, UInt8.ofNat_toNat]

/-- A character that needs several bytes has none among them that is a character of its own. -/
theorem le_of_mem_utf8EncodeChar {c : Char} (h : 0x7F < c.toNat) {b : UInt8}
    (hb : b ∈ String.utf8EncodeChar c) : 128 ≤ b.toNat := by
  by_cases h2 : c.toNat ≤ 0x7FF
  · obtain ⟨b0, b1, hbytes⟩ := exists_two_bytes h h2
    have := (utf8EncodeChar_eq_two_iff h h2).mp hbytes
    simp only [hbytes, List.mem_cons, List.not_mem_nil, or_false] at hb
    rcases hb with rfl | rfl <;> omega
  by_cases h3 : c.toNat ≤ 0xFFFF
  · obtain ⟨b0, b1, b2, hbytes⟩ := exists_three_bytes (by omega) h3
    have := (utf8EncodeChar_eq_three_iff (by omega) h3).mp hbytes
    simp only [hbytes, List.mem_cons, List.not_mem_nil, or_false] at hb
    rcases hb with rfl | rfl | rfl <;> omega
  · obtain ⟨b0, b1, b2, b3, hbytes⟩ := exists_four_bytes (by omega : 0xFFFF < c.toNat)
    have := (utf8EncodeChar_eq_four_iff (by omega)).mp hbytes
    simp only [hbytes, List.mem_cons, List.not_mem_nil, or_false] at hb
    rcases hb with rfl | rfl | rfl | rfl <;> omega

/-- The bytes of a character are read as that character.  The reader tries short sequences first, so
for each length the shorter ones have to be excluded. -/
theorem decodeAfter_utf8EncodeChar (done : List Char) (offset : Nat) (c : Char)
    (rest : List UInt8) :
    decodeAfter done offset (String.utf8EncodeChar c ++ rest) =
      decodeAfter (c :: done) (offset + (String.utf8EncodeChar c).length) rest := by
  by_cases h1 : c.toNat ≤ 0x7F
  · obtain ⟨b0, hbytes⟩ := exists_one_byte h1
    have hb0 := (utf8EncodeChar_eq_one_iff h1).mp hbytes
    have hascii : b0 < 0x80 := by
      rw [UInt8.lt_iff_toNat_lt]
      have h128 : (0x80 : UInt8).toNat = 128 := rfl
      omega
    rw [hbytes, List.singleton_append, decodeAfter.eq_def]
    simp only [hascii, ↓reduceIte, hb0, Char.ofNat_toNat, List.length_singleton]
  by_cases h2 : c.toNat ≤ 0x7FF
  · have hlow : 0x7F < c.toNat := by omega
    obtain ⟨b0, b1, hbytes⟩ := exists_two_bytes hlow h2
    have hb := (utf8EncodeChar_eq_two_iff hlow h2).mp hbytes
    have hread := decode2?_eq_some_iff.mpr ⟨hlow, h2, hbytes⟩
    have hlead : ¬ b0 < 0x80 := not_ascii (by omega)
    rw [hbytes, List.cons_append, List.singleton_append, decodeAfter.eq_def]
    simp only [hlead, ↓reduceIte, hread]
    rfl
  by_cases h3 : c.toNat ≤ 0xFFFF
  · have hlow : 0x7FF < c.toNat := by omega
    obtain ⟨b0, b1, b2, hbytes⟩ := exists_three_bytes hlow h3
    have hb := (utf8EncodeChar_eq_three_iff hlow h3).mp hbytes
    have hread := decode3?_eq_some_iff.mpr ⟨hlow, h3, hbytes⟩
    have hlead : ¬ b0 < 0x80 := not_ascii (by omega)
    have hpair : decode2? b0 b1 = none := decode2?_eq_none (by omega) b1
    rw [hbytes, List.cons_append, List.cons_append, List.singleton_append, decodeAfter.eq_def]
    simp only [hlead, ↓reduceIte, hpair, hread]
    rfl
  · have hlow : 0xFFFF < c.toNat := by omega
    obtain ⟨b0, b1, b2, b3, hbytes⟩ := exists_four_bytes hlow
    have hb := (utf8EncodeChar_eq_four_iff hlow).mp hbytes
    have hread := decode4?_eq_some_iff.mpr ⟨hlow, hbytes⟩
    have hlead : ¬ b0 < 0x80 := not_ascii (by omega)
    have hpair : decode2? b0 b1 = none := decode2?_eq_none (by omega) b1
    have htriple : decode3? b0 b1 b2 = none := decode3?_eq_none (by omega) b1 b2
    rw [hbytes, List.cons_append, List.cons_append, List.cons_append, List.singleton_append,
      decodeAfter.eq_def]
    simp only [hlead, ↓reduceIte, hpair, htriple, hread]
    rfl

/-! ## The bytes of a text -/

theorem utf8_append (cs cs' : List Char) : utf8 (cs ++ cs') = utf8 cs ++ utf8 cs' := by
  simp [utf8]

/-- The bytes of a text are read as that text. -/
theorem decodeAfter_utf8 (done : List Char) (offset : Nat) (cs : List Char) :
    decodeAfter done offset (utf8 cs) = .ok (done.reverse ++ cs) := by
  induction cs generalizing done offset with
  | nil => simp [decodeAfter]
  | cons c cs ih =>
      rw [utf8_cons, decodeAfter_utf8EncodeChar, ih]
      simp

/-- What is read has the bytes that it is read from. -/
theorem utf8_of_decodeAfter {done text : List Char} {offset : Nat} {bytes : List UInt8}
    (h : decodeAfter done offset bytes = .ok text) :
    ∃ cs, text = done.reverse ++ cs ∧ utf8 cs = bytes := by
  -- A character that was read stands in front of what is read behind it.
  have hpush : ∀ {done : List Char} {c : Char} {front rest : List UInt8},
      String.utf8EncodeChar c = front →
      (∃ cs, text = (c :: done).reverse ++ cs ∧ utf8 cs = rest) →
        ∃ cs, text = done.reverse ++ cs ∧ utf8 cs = front ++ rest := by
    rintro done c front rest hfront ⟨cs, htext, hcs⟩
    exact ⟨c :: cs, by simpa using htext, by rw [utf8_cons, hfront, hcs]⟩
  fun_induction decodeAfter done offset bytes with
  | case1 done offset =>
      obtain rfl := Except.ok.inj h
      exact ⟨[], by simp, rfl⟩
  | case2 done offset b0 rest hascii ih =>
      have hlt : b0.toNat < 128 := UInt8.lt_iff_toNat_lt.mp hascii
      have hvalid : b0.toNat.isValidChar := Or.inl (by omega)
      have hnat : (Char.ofNat b0.toNat).toNat = b0.toNat := by
        rw [Char.ofNat, dif_pos hvalid]
        rfl
      have hbytes : String.utf8EncodeChar (Char.ofNat b0.toNat) = [b0] :=
        (utf8EncodeChar_eq_one_iff (by omega)).mpr hnat.symm
      exact hpush hbytes (ih h)
  | case3 => contradiction
  | case4 done offset b0 hascii b1 rest c hread ih =>
      exact hpush (decode2?_eq_some_iff.mp hread).2.2 (ih h)
  | case5 => contradiction
  | case6 done offset b0 hascii b1 hpair b2 rest c hread ih =>
      exact hpush (decode3?_eq_some_iff.mp hread).2.2 (ih h)
  | case7 => contradiction
  | case8 done offset b0 hascii b1 hpair b2 htriple b3 rest c hread ih =>
      exact hpush (decode4?_eq_some_iff.mp hread).2 (ih h)
  | case9 => contradiction

/-- Bytes are read as a text exactly if they are its bytes. -/
theorem decodeUtf8_eq_ok_iff {bytes : List UInt8} {text : List Char} :
    decodeUtf8 bytes = .ok text ↔ utf8 text = bytes := by
  constructor
  · intro h
    obtain ⟨cs, rfl, hcs⟩ := utf8_of_decodeAfter h
    simpa using hcs
  · rintro rfl
    exact decodeAfter_utf8 [] 0 text

end NetRedact.Text
