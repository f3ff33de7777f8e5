import NetRedact.Text.Decimal
import NetRedact.Text.Utf8

/-!
# Replies of a Redis server

The replies that a server sends, as far as a store has to tell them apart.  Where a text is wanted,
a line, a bulk string and a number will do; an error, an array or nothing will not.
-/

namespace NetRedact.Redis

open NetRedact.Text

/-- A reply. -/
inductive Reply where
  /-- A line of text. -/
  | line (text : List UInt8)
  /-- An error. -/
  | error (text : List UInt8)
  | integer (n : Int)
  /-- A string of any bytes. -/
  | bulk (bytes : List UInt8)
  /-- Nothing. -/
  | nil
  /-- An array, whatever it holds. -/
  | array
  deriving DecidableEq

namespace Reply

/-- The bytes up to the end of a line, and those behind it. -/
def line? : List UInt8 → Option (List UInt8 × List UInt8)
  | 0x0D :: 0x0A :: rest => some ([], rest)
  | b :: rest => (line? rest).map fun (text, rest) => (b :: text, rest)
  | [] => none

/-- A number with an optional sign. -/
def integer? (bytes : List UInt8) : Option Int :=
  let digits (bytes : List UInt8) : Option Nat :=
    let cs := bytes.map fun b => Char.ofNat b.toNat
    if cs.isEmpty || !cs.all Char.isDigit then none else some (decimalNumber cs)
  match bytes with
  | 0x2D :: rest => (digits rest).map fun n => -(n : Int)
  | 0x2B :: rest => (digits rest).map Int.ofNat
  | _ => (digits bytes).map Int.ofNat

/-- The reply that the bytes spell. -/
def read? (bytes : List UInt8) : Option Reply := do
  match bytes with
  | [] => none
  | mark :: rest =>
    let (text, rest) ← line? rest
    if mark = 0x2B then pure (.line text)
    else if mark = 0x2D then pure (.error text)
    else if mark = 0x3A then (integer? text).map .integer
    else if mark = 0x24 then
      let size ← integer? text
      if size < 0 then pure .nil
      else if size.toNat ≤ rest.length then pure (.bulk (rest.take size.toNat))
      else none
    else if mark = 0x2A then
      let size ← integer? text
      pure (if size < 0 then .nil else .array)
    else if mark = 0x5F then pure .nil
    else none

/-- The text of a reply where one is wanted. -/
def text? : Reply → Option (List Char)
  | .line text => (decodeUtf8 text).toOption
  | .bulk bytes => (decodeUtf8 bytes).toOption
  | .integer n => some (toString n).toList
  | .error _ => none
  | .nil => none
  | .array => none

end Reply

end NetRedact.Redis
