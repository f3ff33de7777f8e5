import NetRedact.Text.Hex
import NetRedact.Text.Units

/-!
# Writing JSON

Compact JSON text: no blanks, members in the order given.  In a string only the quote, the
backslash and the control characters below the space are escaped, the last by a letter if there is
one and else by four digits.
-/

namespace NetRedact.Json

open NetRedact.Text

/-- A character as it stands in a string. -/
def escape (c : Char) : List Char :=
  if c = '"' then ['\\', '"']
  else if c = '\\' then ['\\', '\\']
  else if c = '\x08' then ['\\', 'b']
  else if c = '\x0C' then ['\\', 'f']
  else if c = '\n' then ['\\', 'n']
  else if c = '\r' then ['\\', 'r']
  else if c = '\t' then ['\\', 't']
  else if c.toNat < 0x20 then '\\' :: 'u' :: '0' :: '0' :: hexByte (UInt8.ofNat c.toNat)
  else [c]

/-- A string. -/
def quote (cs : List Char) : List Char :=
  '"' :: (cs.flatMap escape ++ ['"'])

/-- An array of texts that are JSON already. -/
def array (items : List (List Char)) : List Char :=
  '[' :: (joinWith [','] items ++ [']'])

/-- An object of named texts that are JSON already. -/
def object (members : List (String × List Char)) : List Char :=
  '\x7b' :: (joinWith [','] (members.map fun m => quote m.1.toList ++ ':' :: m.2) ++ ['\x7d'])

end NetRedact.Json
