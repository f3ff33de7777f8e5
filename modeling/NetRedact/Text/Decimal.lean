/-!
# Decimal numbers

Unsigned numbers are written without leading zeros.  Reading takes digits only; how many digits a
field may have, and whether it may start with a zero, is for the field to say.
-/

namespace NetRedact.Text

/-- A number in decimal digits, without leading zeros. -/
def decimal (n : Nat) : List Char :=
  Nat.toDigits 10 n

/-- The value of a decimal digit. -/
def decimalValue (c : Char) : Nat :=
  c.toNat - '0'.toNat

/-- The value of a run of decimal digits, most significant first. -/
def decimalNumber (digits : List Char) : Nat :=
  digits.foldl (fun n c => 10 * n + decimalValue c) 0

/-- The digits at the front of a text, and the rest. -/
def spanDigits (cs : List Char) : List Char × List Char :=
  cs.span Char.isDigit

/-- A number on `width` places or more, filled up with zeros on the left. -/
def padded (width n : Nat) : List Char :=
  let digits := decimal n
  List.replicate (width - digits.length) '0' ++ digits

/-- Reads a setting of at most `limit`: an optional plus sign and at least one digit, nothing
else. -/
def unsigned? (limit : Nat) (cs : List Char) : Option Nat :=
  let digits := match cs with
    | '+' :: rest => rest
    | _ => cs
  if !digits.isEmpty && digits.all Char.isDigit && decide (decimalNumber digits ≤ limit) then
    some (decimalNumber digits)
  else none

end NetRedact.Text
