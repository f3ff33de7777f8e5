/-!
# Layout of TOML documents

Spaces, comments and the ends of lines.  A comment runs to the end of its line and holds no control
characters but tabs; a line ends with a line feed, a carriage return in front of it, or the end of
the document.
-/

namespace NetRedact.Toml

/-- What reads something at the front of a text and leaves the rest. -/
abbrev Reader (α : Type) := List Char → Option (α × List Char)

/-- Spaces inside a line. -/
def isSpace (c : Char) : Bool :=
  c = ' ' || c = '\t'

/-- Characters that may stand in comments and, as they are, in strings. -/
def isPlain (c : Char) : Bool :=
  c = '\t' || (decide (0x20 ≤ c.toNat) && c.toNat != 0x7F)

/-- The text behind the spaces at its front. -/
def skipSpaces (cs : List Char) : List Char :=
  cs.dropWhile isSpace

/-- The text behind a comment at its front, if there is one. -/
def skipComment : List Char → List Char
  | '#' :: rest => rest.dropWhile isPlain
  | cs => cs

/-- The text behind the end of a line. -/
def lineBreak? : List Char → Option (List Char)
  | '\n' :: rest => some rest
  | '\r' :: '\n' :: rest => some rest
  | _ => none

/-- The text behind the rest of a line that holds nothing but spaces and a comment. -/
def endLine? (cs : List Char) : Option (List Char) :=
  match skipComment (skipSpaces cs) with
  | [] => some []
  | cs => lineBreak? cs

/-- The text behind spaces, comments and ends of lines, `inComment` or not.  A character that
cannot stand in a comment ends the skipping. -/
def skipLayout (inComment : Bool) : List Char → List Char
  | [] => []
  | '\n' :: rest => skipLayout false rest
  | '\r' :: '\n' :: rest => skipLayout false rest
  | c :: rest =>
    if inComment then (if isPlain c then skipLayout true rest else c :: rest)
    else if c = '#' then skipLayout true rest
    else if isSpace c then skipLayout false rest
    else c :: rest

end NetRedact.Toml
