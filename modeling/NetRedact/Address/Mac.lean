import NetRedact.Address.Basic
import NetRedact.Text.Units

/-!
# MAC literals

Six octets as hexadecimal digits in one of three layouts.  Written digits are lowercase.  Reading
takes the layout from the separator and the octets from the digits; that the separators stand in
the right places is for the scan pattern to ensure.
-/

namespace NetRedact.Mac

open NetRedact.Text

/-- The layout that a literal's separator shows. -/
def styleOf (cs : List Char) : MacStyle :=
  if cs.contains ':' then .colon else if cs.contains '-' then .hyphen else .dotted

/-- The octets and the layout of a literal with exactly twelve hexadecimal digits. -/
def read? (cs : List Char) : Option (Octets 6 × MacStyle) := do
  let bytes ← bytesOfHex? (cs.filter isHexDigit)
  let octets ← Octets.ofList? 6 bytes
  pure (octets, styleOf cs)

/-- The pieces of a list taken two at a time. -/
def pairs {α : Type} : List α → List (List α)
  | [] => []
  | [a] => [[a]]
  | a :: b :: rest => [a, b] :: pairs rest

/-- The literal of six octets in a layout. -/
def render (style : MacStyle) (octets : Octets 6) : List Char :=
  match style with
  | .colon => joinWith [':'] (octets.toList.map hexByte)
  | .hyphen => joinWith ['-'] (octets.toList.map hexByte)
  | .dotted => joinWith ['.'] ((pairs octets.toList).map hexBytes)

end NetRedact.Mac
