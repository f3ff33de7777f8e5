import NetRedact.Text.Printable

/-!
# Quoted text

Texts shown inside messages stand between quotes.  The quote, the backslash and the usual control
characters are written with a backslash, and every other character without a visible form of its
own by its code point, so the shown text has one line and can be told apart from what surrounds it.
-/

namespace NetRedact.Text

/-- A character inside quotes. -/
def showChar (c : Char) : List Char :=
  if c = '"' then ['\\', '"']
  else if c = '\\' then ['\\', '\\']
  else if c = '\n' then ['\\', 'n']
  else if c = '\r' then ['\\', 'r']
  else if c = '\t' then ['\\', 't']
  else if c = '\x00' then ['\\', '0']
  else if isPrintable c && !isExtending c then [c]
  else '\\' :: 'u' :: '\x7b' :: (Nat.toDigits 16 c.toNat ++ ['\x7d'])

/-- A text between quotes. -/
def quoted (cs : List Char) : List Char :=
  '"' :: (cs.flatMap showChar ++ ['"'])

/-- A text between quotes, as a string. -/
def quotedString (s : String) : String :=
  String.ofList (quoted s.toList)

end NetRedact.Text
