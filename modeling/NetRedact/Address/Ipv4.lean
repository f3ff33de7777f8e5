import NetRedact.Address.Basic
import NetRedact.Text.Decimal
import NetRedact.Text.Units

/-!
# Dotted quads

An IPv4 literal is four octets in decimal joined by dots.  Each octet is at most 255 and has no
leading zero, so every address has exactly one literal.
-/

namespace NetRedact.Ipv4

open NetRedact.Text

/-- An octet at the front of a text: one to three digits, at most 255, without a leading zero and
not followed by a further digit. -/
def readOctet (cs : List Char) : Option (UInt8 × List Char) :=
  let (digits, rest) := spanDigits cs
  let plain := match digits with
    | [] => false
    | '0' :: _ :: _ => false
    | _ => true
  if plain && decide (digits.length ≤ 3) && decide (decimalNumber digits ≤ 255) then
    some (UInt8.ofNat (decimalNumber digits), rest)
  else none

/-- Exactly `count` further octets, each after a dot. -/
def readDottedOctets : Nat → List Char → Option (List UInt8 × List Char)
  | 0, cs => some ([], cs)
  | count + 1, '.' :: cs => do
    let (octet, rest) ← readOctet cs
    let (octets, rest) ← readDottedOctets count rest
    pure (octet :: octets, rest)
  | _ + 1, _ => none

/-- A dotted quad at the front of a text, and the rest. -/
def readFirst (cs : List Char) : Option (Octets 4 × List Char) := do
  let (octet, rest) ← readOctet cs
  let (octets, rest) ← readDottedOctets 3 rest
  let quad ← Octets.ofList? 4 (octet :: octets)
  pure (quad, rest)

/-- The address that a text spells as a whole. -/
def read? (cs : List Char) : Option (Octets 4) :=
  match readFirst cs with
  | some (quad, []) => some quad
  | _ => none

/-- The literal of an address. -/
def render (octets : Octets 4) : List Char :=
  joinWith ['.'] (octets.toList.map fun b => decimal b.toNat)

end NetRedact.Ipv4
