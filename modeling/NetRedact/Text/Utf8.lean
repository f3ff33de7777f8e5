/-!
# UTF-8

Texts as bytes.  Reading refuses every byte sequence that is not the shortest form of a scalar
value and tells the offset of the first such sequence.
-/

namespace NetRedact.Text

/-- The bytes of a text. -/
def utf8 (cs : List Char) : List UInt8 :=
  cs.flatMap String.utf8EncodeChar

/-- The payload of a continuation byte. -/
def continuation? (b : UInt8) : Option Nat :=
  if 0x80 ≤ b ∧ b < 0xC0 then some (b.toNat - 0x80) else none

/-- The scalar value `n` as a character, if it is one and needs more than `short` to be written. -/
def scalar? (short n : Nat) : Option Char :=
  if h : n.isValidChar then (if short < n then some (Char.ofNatAux n h) else none) else none

/-- The character of a two-byte sequence. -/
def decode2? (b0 b1 : UInt8) : Option Char := do
  let x1 ← continuation? b1
  if 0xC0 ≤ b0 ∧ b0 < 0xE0 then scalar? 0x7F ((b0.toNat - 0xC0) * 64 + x1) else none

/-- The character of a three-byte sequence. -/
def decode3? (b0 b1 b2 : UInt8) : Option Char := do
  let x1 ← continuation? b1
  let x2 ← continuation? b2
  if 0xE0 ≤ b0 ∧ b0 < 0xF0 then scalar? 0x7FF (((b0.toNat - 0xE0) * 64 + x1) * 64 + x2) else none

/-- The character of a four-byte sequence. -/
def decode4? (b0 b1 b2 b3 : UInt8) : Option Char := do
  let x1 ← continuation? b1
  let x2 ← continuation? b2
  let x3 ← continuation? b3
  if 0xF0 ≤ b0 ∧ b0 < 0xF8 then
    scalar? 0xFFFF ((((b0.toNat - 0xF0) * 64 + x1) * 64 + x2) * 64 + x3)
  else none

/-- The characters `done` put back in order, followed by those of the bytes; or the offset of the
first sequence that is none, where the bytes start at `offset`. -/
def decodeAfter (done : List Char) (offset : Nat) : List UInt8 → Except Nat (List Char)
  | [] => .ok done.reverse
  | b0 :: rest =>
    if b0 < 0x80 then decodeAfter (Char.ofNat b0.toNat :: done) (offset + 1) rest
    else match rest with
      | [] => .error offset
      | b1 :: rest =>
        match decode2? b0 b1 with
        | some c => decodeAfter (c :: done) (offset + 2) rest
        | none =>
          match rest with
          | [] => .error offset
          | b2 :: rest =>
            match decode3? b0 b1 b2 with
            | some c => decodeAfter (c :: done) (offset + 3) rest
            | none =>
              match rest with
              | [] => .error offset
              | b3 :: rest =>
                match decode4? b0 b1 b2 b3 with
                | some c => decodeAfter (c :: done) (offset + 4) rest
                | none => .error offset

/-- The text that bytes spell, or the offset of the first byte sequence that is no character. -/
def decodeUtf8 (bytes : List UInt8) : Except Nat (List Char) :=
  decodeAfter [] 0 bytes

end NetRedact.Text
