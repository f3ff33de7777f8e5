import NetRedact.Toml.Number
import NetRedact.Toml.Table
import NetRedact.Toml.Text

/-!
# TOML documents

Reading a document.  It is a sequence of statements, each on lines of its own: headers that open a
table and pairs that set a key of the table opened last.  `read?` gives the table that the document
describes, and nothing for a text that breaks the rules anywhere.
-/

namespace NetRedact.Toml

/-- The most that keys may have parts and values may be nested. -/
def maxDepth : Nat := 79

/-- Characters of keys without quotes. -/
def isBare (c : Char) : Bool :=
  c.isAlphanum || c = '_' || c = '-'

/-- A part of a key. -/
def keyPart? (cs : List Char) : Option (Key × List Char) :=
  match cs.span isBare with
  | ([], rest) => line? rest
  | (bare, rest) => some (bare, rest)

/-- A key of at most `depth` parts: the path in front of the last part, which continues `path` (last
part first), and the last part. -/
def key? : Nat → List Key → Reader (List Key × Key)
  | 0, _, _ => none
  | depth + 1, path, cs => do
    let (part, rest) ← keyPart? (skipSpaces cs)
    match skipSpaces rest with
    | '.' :: rest => key? depth (part :: path) rest
    | rest => some ((path.reverse, part), rest)

/-- A key, an equals sign and a value. -/
def pair? (value : Reader Value) : Reader (List Key × Key × Value) := fun cs => do
  let ((path, key), rest) ← key? maxDepth [] cs
  match rest with
  | '=' :: rest =>
    let (value, rest) ← value (skipSpaces rest)
    some ((path, key, value), rest)
  | _ => none

/-- The items of an array behind those in `done`, last first, up to its closing bracket.  A comma
may stand behind the last item.  Each item takes at least one character, so `fuel` is at most the
length of the text. -/
def items? (value : Reader Value) : Nat → List Value → Reader (List Value)
  | 0, _, _ => none
  | fuel + 1, done, cs =>
    match skipLayout false cs with
    | ']' :: rest => some (done.reverse, rest)
    | cs => do
      let (item, rest) ← value cs
      match skipLayout false rest with
      | ',' :: rest => items? value fuel (item :: done) rest
      | ']' :: rest => some ((item :: done).reverse, rest)
      | _ => none

/-- The pairs of an inline table behind those in `done`, last first, up to its closing brace. -/
def pairs? (value : Reader Value) : Nat → List (List Key × Key × Value) →
    Reader (List (List Key × Key × Value))
  | 0, _, _ => none
  | fuel + 1, done, cs => do
    let (pair, rest) ← pair? value cs
    match skipSpaces rest with
    | ',' :: rest => pairs? value fuel (pair :: done) rest
    | '\x7d' :: rest => some ((pair :: done).reverse, rest)
    | _ => none

/-- The members of an inline table, from behind its opening brace on. -/
def inline? (value : Reader Value) : Reader Members := fun cs =>
  match skipSpaces cs with
  | '\x7d' :: rest => some ([], rest)
  | cs => do
    let (pairs, rest) ← pairs? value cs.length [] cs
    let members ← inlineMembers [] pairs
    some (members, rest)

/-- A value in which arrays and inline tables are nested at most `depth` times. -/
def value? : Nat → Reader Value
  | _, '"' :: rest => (string? ('"' :: rest)).map fun (content, rest) => (.text content, rest)
  | _, '\'' :: rest => (string? ('\'' :: rest)).map fun (content, rest) => (.text content, rest)
  | depth + 1, '[' :: rest =>
    (items? (value? depth) (rest.length + 1) [] rest).map fun (items, rest) => (.array items, rest)
  | depth + 1, '\x7b' :: rest =>
    (inline? (value? depth) rest).map fun (members, rest) => (.table .inline members, rest)
  | _, cs => scalar? cs

/-- The parts of a document. -/
inductive Statement where
  /-- A header that opens a table. -/
  | table (path : List Key) (key : Key)
  /-- A header that opens one more table of several. -/
  | element (path : List Key) (key : Key)
  /-- A pair that sets a key of the table opened last. -/
  | pair (path : List Key) (key : Key) (value : Value)

/-- A statement up to the end of its last line. -/
def statement? : Reader Statement
  | '[' :: '[' :: rest => do
    let ((path, key), rest) ← key? maxDepth [] rest
    match rest with
    | ']' :: ']' :: rest => (endLine? rest).map fun rest => (.element path key, rest)
    | _ => none
  | '[' :: rest => do
    let ((path, key), rest) ← key? maxDepth [] rest
    match rest with
    | ']' :: rest => (endLine? rest).map fun rest => (.table path key, rest)
    | _ => none
  | cs => do
    let ((path, key, value), rest) ← pair? (value? maxDepth) cs
    (endLine? rest).map fun rest => (.pair path key value, rest)

/-- The statements of a text behind those in `done`, last first.  Each takes at least one
character, so `fuel` is at most the length of the text. -/
def statements? : Nat → List Statement → List Char → Option (List Statement)
  | 0, done, cs => if cs.isEmpty then some done.reverse else none
  | fuel + 1, done, cs =>
    match skipSpaces cs with
    | [] => some done.reverse
    | cs =>
      match (if cs.head? = some '#' then endLine? cs else lineBreak? cs) with
      | some rest => statements? fuel done rest
      | none => do
        let (statement, rest) ← statement? cs
        statements? fuel (statement :: done) rest

/-- A document that is read in part: the header in force, and the table so far. -/
structure Document where
  current : List Key
  members : Members

namespace Document

/-- The document with one more statement. -/
def extend (d : Document) : Statement → Option Document
  | .table path key => do
    let members ← alter .implied (openTable key) path .header d.members
    some ⟨path ++ [key], members⟩
  | .element path key => do
    let members ← alter .implied (openElement key) path .header d.members
    some ⟨path ++ [key], members⟩
  | .pair path key value => do
    let members ← alter .implied (assign path key value) d.current .header d.members
    some ⟨d.current, members⟩

/-- The document that statements describe. -/
def ofStatements? (statements : List Statement) : Option Document :=
  statements.foldlM extend ⟨[], []⟩

end Document

/-- The text without a byte order mark at its front. -/
def skipMark : List Char → List Char
  | '\uFEFF' :: rest => rest
  | cs => cs

/-- The table that a document describes. -/
def read? (cs : List Char) : Option Value := do
  let cs := skipMark cs
  let statements ← statements? (cs.length + 1) [] cs
  let document ← Document.ofStatements? statements
  some (.table .header document.members)

end NetRedact.Toml
