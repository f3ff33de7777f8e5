import NetRedact.Text.Hex
import NetRedact.Text.Utf8

/-!
# JSON tokens

The lexical level of reading JSON, on bytes.  A string is a token as soon as its escapes are formed
correctly; whether its content is a text (bytes that are UTF-8, no lone surrogates) is noted in the
token and matters only to those who need the content.
-/

namespace NetRedact.Json

open NetRedact.Text

/-- A part of a string's content: a byte as it stands, or a UTF-16 unit given by digits. -/
inductive Piece where
  | byte (b : UInt8)
  | unit (n : Nat)
  deriving DecidableEq, Repr

/-- The bytes of a string's content, after those in `done`, last first; none for a surrogate
without its partner. -/
def contentBytes? (done : List UInt8) : List Piece → Option (List UInt8)
  | [] => some done.reverse
  | .byte b :: rest => contentBytes? (b :: done) rest
  | .unit n :: rest =>
    if 0xD800 ≤ n ∧ n < 0xDC00 then
      match rest with
      | .unit m :: rest =>
        if 0xDC00 ≤ m ∧ m < 0xE000 then
          let c := Char.ofNat (0x10000 + (n - 0xD800) * 0x400 + (m - 0xDC00))
          contentBytes? ((String.utf8EncodeChar c).reverse ++ done) rest
        else none
      | _ => none
    else if 0xDC00 ≤ n ∧ n < 0xE000 then none
    else contentBytes? ((String.utf8EncodeChar (Char.ofNat n)).reverse ++ done) rest

/-- The text that the pieces of a string make up, if they do. -/
def content? (pieces : List Piece) : Option (List Char) := do
  let bytes ← contentBytes? [] pieces
  (decodeUtf8 bytes).toOption

/-- The smallest parts of a JSON text. -/
inductive Token where
  | openArray
  | closeArray
  | openObject
  | closeObject
  | comma
  | colon
  | null
  | bool (value : Bool)
  | number
  | text (content : Option (List Char))
  deriving DecidableEq, Repr

/-- The token of a single punctuation byte. -/
def punctuation? (b : UInt8) : Option Token :=
  if b = 0x5B then some .openArray
  else if b = 0x5D then some .closeArray
  else if b = 0x7B then some .openObject
  else if b = 0x7D then some .closeObject
  else if b = 0x2C then some .comma
  else if b = 0x3A then some .colon
  else none

/-- Blanks between tokens. -/
def isGap (b : UInt8) : Bool :=
  b = 0x20 || b = 0x0A || b = 0x0D || b = 0x09

/-- Decimal digits. -/
def isDigit (b : UInt8) : Bool :=
  decide (0x30 ≤ b ∧ b ≤ 0x39)

/-- Whether the bytes are nothing or an exponent. -/
def isExponent : List UInt8 → Bool
  | [] => true
  | e :: rest =>
    let digits := match rest with
      | sign :: more => if sign = 0x2B ∨ sign = 0x2D then more else rest
      | [] => []
    (e = 0x65 || e = 0x45) && !digits.isEmpty && digits.all isDigit

/-- Whether the bytes are nothing, a fraction or an exponent, or a fraction and an exponent. -/
def isNumberTail : List UInt8 → Bool
  | 0x2E :: rest =>
    let (digits, rest) := rest.span isDigit
    !digits.isEmpty && isExponent rest
  | rest => isExponent rest

/-- Whether the bytes are a number: no leading zeros, digits on both sides of a point. -/
def isNumber (bytes : List UInt8) : Bool :=
  let bytes := match bytes with
    | 0x2D :: rest => rest
    | _ => bytes
  let (digits, rest) := bytes.span isDigit
  match digits with
  | [] => false
  | 0x30 :: _ :: _ => false
  | _ => isNumberTail rest

/-- The token of a run of bytes without blanks, quotes and punctuation. -/
def word? (bytes : List UInt8) : Option Token :=
  if bytes = [0x6E, 0x75, 0x6C, 0x6C] then some .null
  else if bytes = [0x74, 0x72, 0x75, 0x65] then some (.bool true)
  else if bytes = [0x66, 0x61, 0x6C, 0x73, 0x65] then some (.bool false)
  else if isNumber bytes then some .number
  else none

/-- The byte that a backslash and the given letter stand for. -/
def escaped? (letter : UInt8) : Option UInt8 :=
  if letter = 0x22 then some 0x22
  else if letter = 0x5C then some 0x5C
  else if letter = 0x2F then some 0x2F
  else if letter = 0x62 then some 0x08
  else if letter = 0x66 then some 0x0C
  else if letter = 0x6E then some 0x0A
  else if letter = 0x72 then some 0x0D
  else if letter = 0x74 then some 0x09
  else none

/-- Where the lexer is.  Lists run backwards. -/
inductive Place where
  /-- Between tokens. -/
  | gap
  /-- Inside a word. -/
  | word (bytes : List UInt8)
  /-- Inside a string. -/
  | string (pieces : List Piece)
  /-- Inside a string, behind a backslash. -/
  | escape (pieces : List Piece)
  /-- Inside a string, with so many digits of a unit to come. -/
  | unit (pieces : List Piece) (left : Nat) (value : Nat)

/-- The place after one more byte, and the tokens with those that it completes, last first. -/
def Place.step (place : Place) (tokens : List Token) (b : UInt8) : Option (Place × List Token) :=
  match place with
  | .gap => start tokens b
  | .word bytes =>
    if isGap b || b = 0x22 || (punctuation? b).isSome then do
      let token ← word? bytes.reverse
      start (token :: tokens) b
    else some (.word (b :: bytes), tokens)
  | .string pieces =>
    if b = 0x22 then some (.gap, .text (content? pieces.reverse) :: tokens)
    else if b = 0x5C then some (.escape pieces, tokens)
    else if b < 0x20 then none
    else some (.string (.byte b :: pieces), tokens)
  | .escape pieces =>
    if b = 0x75 then some (.unit pieces 4 0, tokens)
    else (escaped? b).map fun c => (.string (.byte c :: pieces), tokens)
  | .unit pieces left value => do
    let digit ← hexValue? (Char.ofNat b.toNat)
    let value := 16 * value + digit
    if left ≤ 1 then some (.string (.unit value :: pieces), tokens)
    else some (.unit pieces (left - 1) value, tokens)
where
  /-- A byte between tokens. -/
  start (tokens : List Token) (b : UInt8) : Option (Place × List Token) :=
    if isGap b then some (.gap, tokens)
    else if b = 0x22 then some (.string [], tokens)
    else match punctuation? b with
      | some token => some (.gap, token :: tokens)
      | none => some (.word [b], tokens)

/-- The tokens of a text from a place on, after those in `tokens`, last first. -/
def tokensFrom (place : Place) (tokens : List Token) : List UInt8 → Option (List Token)
  | [] =>
    match place with
    | .gap => some tokens.reverse
    | .word bytes => (word? bytes.reverse).map fun token => (token :: tokens).reverse
    | _ => none
  | b :: rest =>
    match place.step tokens b with
    | some (place, tokens) => tokensFrom place tokens rest
    | none => none

/-- The tokens of a text. -/
def tokens? (bytes : List UInt8) : Option (List Token) :=
  tokensFrom .gap [] bytes

end NetRedact.Json
