import NetRedact.Text.Hex
import NetRedact.Toml.Layout

/-!
# TOML strings

Strings stand between single or double quotes, on one line or, between three quotes, on several.
Only double quotes allow escapes.  A string is read by a machine that takes one character at a time
and collects the content backwards.
-/

namespace NetRedact.Toml

open NetRedact.Text

/-- The two kinds of quotes. -/
inductive Quote where
  /-- Double quotes: a backslash starts an escape. -/
  | basic
  /-- Single quotes: every character stands for itself. -/
  | literal
  deriving DecidableEq, Repr

/-- The character of a quote. -/
def Quote.char : Quote → Char
  | .basic => '"'
  | .literal => '\''

/-- The character that a backslash and the given letter stand for. -/
def escaped? (letter : Char) : Option Char :=
  match letter with
  | 'b' => some '\x08'
  | 'f' => some '\x0C'
  | 'n' => some '\n'
  | 'r' => some '\r'
  | 't' => some '\t'
  | '\\' => some '\\'
  | '"' => some '"'
  | _ => none

/-- Where the machine is. -/
inductive Place where
  /-- Behind a character that is complete. -/
  | plain
  /-- Behind a backslash. -/
  | escape
  /-- Inside the number of a character, with so many digits to come. -/
  | number (left : Nat) (value : Nat)
  /-- Behind a carriage return. -/
  | carriage
  /-- Behind a backslash and spaces, before the end of the line. -/
  | breaking
  /-- Behind a backslash at the end of a line: spaces and empty lines are passed over. -/
  | gap
  /-- The same, behind a carriage return. -/
  | gapCarriage
  /-- Behind so many quotes that may be the first ones of three. -/
  | quotes (count : Nat)
  deriving DecidableEq, Repr

namespace Place

/-- A character behind a complete one that is neither the quote nor part of the end of a line. -/
def stepPlain (quote : Quote) (done : List Char) (c : Char) : Option (Place × List Char) :=
  if quote = .basic ∧ c = '\\' then some (.escape, done)
  else if isPlain c then some (.plain, c :: done)
  else none

/-- The letter or the first digit of an escape. -/
def stepEscape (done : List Char) (c : Char) : Option (Place × List Char) :=
  if c = 'u' then some (.number 4 0, done)
  else if c = 'U' then some (.number 8 0, done)
  else (escaped? c).map fun e => (.plain, e :: done)

/-- A digit of the number of a character.  Surrogates are no characters. -/
def stepNumber (left value : Nat) (done : List Char) (c : Char) : Option (Place × List Char) :=
  match hexValue? c with
  | none => none
  | some digit =>
    let value := 16 * value + digit
    if 1 < left then some (.number (left - 1) value, done)
    else if value.isValidChar then some (.plain, Char.ofNat value :: done)
    else none

/-- A character of a string on several lines, behind a complete one. -/
def stepBlock (quote : Quote) (done : List Char) (c : Char) : Option (Place × List Char) :=
  if c = quote.char then some (.quotes 1, done)
  else if c = '\n' then some (.plain, '\n' :: done)
  else if c = '\r' then some (.carriage, done)
  else stepPlain quote done c

/-- One more character of a string on several lines. -/
def step (quote : Quote) (place : Place) (done : List Char) (c : Char) :
    Option (Place × List Char) :=
  match place with
  | .plain => stepBlock quote done c
  | .quotes count =>
    if c = quote.char then some (.quotes (count + 1), done)
    else stepBlock quote (List.replicate count quote.char ++ done) c
  | .carriage => if c = '\n' then some (.plain, '\n' :: done) else none
  | .escape =>
    if isSpace c then some (.breaking, done)
    else if c = '\n' then some (.gap, done)
    else if c = '\r' then some (.gapCarriage, done)
    else stepEscape done c
  | .number left value => stepNumber left value done c
  | .breaking =>
    if isSpace c then some (.breaking, done)
    else if c = '\n' then some (.gap, done)
    else if c = '\r' then some (.gapCarriage, done)
    else none
  | .gap =>
    if isSpace c || c = '\n' then some (.gap, done)
    else if c = '\r' then some (.gapCarriage, done)
    else stepBlock quote done c
  | .gapCarriage => if c = '\n' then some (.gap, done) else none

end Place

/-- The content of a string on one line, and the text behind its closing quote. -/
def lineText (quote : Quote) (place : Place) (done : List Char) : Reader (List Char)
  | [] => none
  | c :: rest =>
    if place = .plain ∧ c = quote.char then some (done.reverse, rest)
    else
      let next := match place with
        | .plain => Place.stepPlain quote done c
        | .escape => Place.stepEscape done c
        | .number left value => Place.stepNumber left value done c
        | _ => none
      match next with
      | some (place, done) => lineText quote place done rest
      | none => none

/-- One or two quotes more than the three that close a string belong to its content. -/
def closeBlock (quote : Quote) (done : List Char) : List Char → List Char × List Char
  | a :: b :: rest =>
    if a = quote.char then
      if b = quote.char then ((a :: b :: done).reverse, rest) else ((a :: done).reverse, b :: rest)
    else (done.reverse, a :: b :: rest)
  | [a] => if a = quote.char then ((a :: done).reverse, []) else (done.reverse, [a])
  | [] => (done.reverse, [])

/-- The content of a string on several lines, and the text behind its closing quotes. -/
def blockText (quote : Quote) (place : Place) (done : List Char) : Reader (List Char)
  | [] => none
  | c :: rest =>
    if place = .quotes 2 ∧ c = quote.char then some (closeBlock quote done rest)
    else match place.step quote done c with
      | some (place, done) => blockText quote place done rest
      | none => none

/-- A string on several lines, from behind its opening quotes on.  A line that ends right there is
no part of the content. -/
def block (quote : Quote) (cs : List Char) : Option (List Char × List Char) :=
  blockText quote .plain [] ((lineBreak? cs).getD cs)

/-- A string on one line. -/
def line? : Reader (List Char)
  | '"' :: rest => lineText .basic .plain [] rest
  | '\'' :: rest => lineText .literal .plain [] rest
  | _ => none

/-- A string of any form. -/
def string? : Reader (List Char)
  | '"' :: '"' :: '"' :: rest => block .basic rest
  | '\'' :: '\'' :: '\'' :: rest => block .literal rest
  | cs => line? cs

end NetRedact.Toml
