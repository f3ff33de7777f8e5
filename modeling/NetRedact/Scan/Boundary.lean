import NetRedact.Text.WordChar

/-!
# Boundaries

An identifier must not be a part of a longer token.  Each of its two sides is judged by the text on
that side, nearest character first, so one rule serves both: a dot is harmless as punctuation but
not between the identifier and a word character, and otherwise neither a word character nor one of
the blocked separators may touch the identifier.
-/

namespace NetRedact.Scan

open NetRedact.Text

/-- Whether an identifier may end against this side, given nearest character first. -/
def isClear (blocked : List Char) : List Char → Bool
  | [] => true
  | '.' :: [] => true
  | '.' :: c :: _ => !isWord c
  | c :: _ => !(isWord c || blocked.contains c)

end NetRedact.Scan
