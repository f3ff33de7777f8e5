import NetRedact.Text.Decimal
import NetRedact.Text.Hex
import NetRedact.Time.Calendar
import NetRedact.Toml.Value

/-!
# Numbers and date-times in TOML

A value that is neither a string nor a holder of values is one word: truth values, numbers and
date-times.  A date-time may have a space between its date and its time and is then two words.
-/

namespace NetRedact.Toml

open NetRedact.Text

/-- The characters of words. -/
def isWord (c : Char) : Bool :=
  c.isAlphanum || c = '+' || c = '-' || c = '_' || c = '.' || c = ':'

/-- Whether a text consists of digits, with single underscores between digits. -/
def isDigits (isDigit : Char → Bool) : List Char → Bool
  | [] => false
  | [d] => isDigit d
  | d :: '_' :: rest => isDigit d && isDigits isDigit rest
  | d :: rest => isDigit d && isDigits isDigit rest

/-- Whether a text is a decimal number without a sign and without leading zeros. -/
def isWhole : List Char → Bool
  | ['0'] => true
  | '0' :: _ => false
  | cs => isDigits Char.isDigit cs

/-- A sign, if there is one, as whether it is a minus, and the text behind it. -/
def splitSign : List Char → Bool × List Char
  | '-' :: rest => (true, rest)
  | '+' :: rest => (false, rest)
  | cs => (false, cs)

/-- The text without underscores. -/
def withoutUnderscores (cs : List Char) : List Char :=
  cs.filter (· != '_')

/-! ## Integers -/

/-- The largest integer. -/
def maxInteger : Nat := 9223372036854775807

/-- The base that the letter behind a leading zero stands for. -/
def base? : Char → Option Nat
  | 'x' => some 16
  | 'o' => some 8
  | 'b' => some 2
  | _ => none

/-- The value of a digit below a base. -/
def digitBelow? (base : Nat) (c : Char) : Option Nat :=
  (hexValue? c).filter (· < base)

/-- A number in base 16, 8 or 2, from behind the letter for its base on. -/
def based? (base : Nat) (cs : List Char) : Option Int :=
  if isDigits (fun c => (digitBelow? base c).isSome) cs then
    let value := (withoutUnderscores cs).foldl (fun n c => base * n + (hexValue? c).getD 0) 0
    if value ≤ maxInteger then some value else none
  else none

/-- A decimal number with or without a sign. -/
def decimal? (cs : List Char) : Option Int :=
  let (minus, digits) := splitSign cs
  if isWhole digits then
    let value := decimalNumber (withoutUnderscores digits)
    if minus then (if value ≤ maxInteger + 1 then some (-value) else none)
    else if value ≤ maxInteger then some value else none
  else none

/-- The integer that a word spells. -/
def integer? (cs : List Char) : Option Int :=
  match cs with
  | '0' :: letter :: digits =>
    match base? letter with
    | some base => based? base digits
    | none => decimal? cs
  | cs => decimal? cs

/-! ## Numbers with a point or an exponent -/

/-- The parts of such a number: whether it is negative, the digits before and behind the point,
and the exponent. -/
structure Scientific where
  minus : Bool
  whole : List Char
  fraction : List Char
  exponent : Int

/-- The exponent behind the letter `e`. -/
def exponent? (cs : List Char) : Option Int :=
  let (minus, digits) := splitSign cs
  if isDigits Char.isDigit digits then
    let value := decimalNumber (withoutUnderscores digits)
    some (if minus then -value else value)
  else none

/-- The parts of a number that has a point, an exponent or both. -/
def scientific? (cs : List Char) : Option Scientific :=
  let (minus, cs) := splitSign cs
  let isMark (c : Char) : Bool := c = 'e' || c = 'E'
  let (mantissa, rest) := cs.span (!isMark ·)
  let (whole, point) := mantissa.span (· != '.')
  let exponent := match rest with
    | [] => if point.isEmpty then none else some 0
    | _ :: digits => exponent? digits
  let fraction := match point with
    | [] => some []
    | _ :: digits => if isDigits Char.isDigit digits then some digits else none
  if isWhole whole then
    match fraction, exponent with
    | some fraction, some exponent =>
      some ⟨minus, withoutUnderscores whole, withoutUnderscores fraction, exponent⟩
    | _, _ => none
  else none

/-- The numbers from here on are closer to the next power of two than to the largest number with 53
binary digits below it. -/
def floatBound : Nat := Nat.pow 2 970 * (Nat.pow 2 54 - 1)

/-- Whether the size of a number is beyond all 64-bit floating-point numbers.  The number of digits
decides unless it is close to that of the bound. -/
def Scientific.isHuge (s : Scientific) : Bool :=
  let digits := (s.whole ++ s.fraction).dropWhile (· = '0')
  let places : Int := digits.length + s.exponent - s.fraction.length
  let shift : Int := s.exponent - s.fraction.length
  if digits.isEmpty || decide (places < 309) then false
  else if decide (309 < places) then true
  else if 0 ≤ shift then decide (floatBound ≤ decimalNumber digits * Nat.pow 10 shift.toNat)
  else decide (floatBound * Nat.pow 10 (-shift).toNat ≤ decimalNumber digits)

/-- Whether a word spells a number with a point or an exponent, or a name of infinity or of what is
no number.  A positive number must not be too large to have a finite value. -/
def isFloat (cs : List Char) : Bool :=
  let named := (splitSign cs).2
  named = ['i', 'n', 'f'] || named = ['n', 'a', 'n'] ||
    match scientific? cs with
    | some s => s.minus || !s.isHuge
    | none => false

/-! ## Date-times -/

/-- Whether a text consists of digits and spells a number of at most `limit`. -/
def isUpTo (limit : Nat) (cs : List Char) : Bool :=
  cs.all Char.isDigit && decide (decimalNumber cs ≤ limit)

/-- Whether a text is a date that exists. -/
def isDate : List Char → Bool
  | [y₁, y₂, y₃, y₄, '-', m₁, m₂, '-', d₁, d₂] =>
    [y₁, y₂, y₃, y₄, m₁, m₂, d₁, d₂].all Char.isDigit &&
      (Calendar.dayOf? ⟨decimalNumber [y₁, y₂, y₃, y₄], decimalNumber [m₁, m₂],
        decimalNumber [d₁, d₂]⟩).isSome
  | _ => false

/-- Whether a text is an hour and a minute. -/
def isHourMinute : List Char → Bool
  | [h₁, h₂, ':', m₁, m₂] => isUpTo 23 [h₁, h₂] && isUpTo 59 [m₁, m₂]
  | _ => false

/-- A time of day at the front of a text, with or without a fraction of the second: the text behind
it. -/
def afterTime? (cs : List Char) : Option (List Char) :=
  match cs.drop 5 with
  | ':' :: s₁ :: s₂ :: rest =>
    if isHourMinute (cs.take 5) && isUpTo 60 [s₁, s₂] then
      match rest with
      | '.' :: digits =>
        let (digits, rest) := spanDigits digits
        if digits.isEmpty then none else some rest
      | rest => some rest
    else none
  | _ => none

/-- Whether a text is a time of day. -/
def isTime (cs : List Char) : Bool :=
  afterTime? cs = some []

/-- Whether a text is nothing or an offset from universal time. -/
def isOffset : List Char → Bool
  | [] => true
  | ['Z'] => true
  | ['z'] => true
  | '+' :: rest => isHourMinute rest
  | '-' :: rest => isHourMinute rest
  | _ => false

/-- Whether a text is a time of day with or without an offset. -/
def isOffsetTime (cs : List Char) : Bool :=
  match afterTime? cs with
  | some rest => isOffset rest
  | none => false

/-- Whether a text is a date with a time behind the letter `T`. -/
def isDateTime (cs : List Char) : Bool :=
  isDate (cs.take 10) &&
    match cs.drop 10 with
    | 'T' :: rest => isOffsetTime rest
    | 't' :: rest => isOffsetTime rest
    | _ => false

/-! ## Words -/

/-- The value that a single word spells. -/
def word? (cs : List Char) : Option Value :=
  if cs = ['t', 'r', 'u', 'e'] then some (.boolean true)
  else if cs = ['f', 'a', 'l', 's', 'e'] then some (.boolean false)
  else if isDate cs || isDateTime cs || isTime cs then some .dateTime
  else if isFloat cs then some .float
  else (integer? cs).map .integer

/-- The value at the front of a text that starts with a word, and the text behind it. -/
def scalar? (cs : List Char) : Option (Value × List Char) :=
  let (word, rest) := cs.span isWord
  let next := match rest with
    | ' ' :: more => more.span isWord
    | _ => ([], [])
  if isDate word && !next.1.isEmpty then
    if isOffsetTime next.1 then some (.dateTime, next.2) else none
  else (word? word).map fun value => (value, rest)

end NetRedact.Toml
