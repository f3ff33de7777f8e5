/-!
# TOML values

The values of a TOML document, and how the reader of a document takes them apart.  A table
remembers how it came to be, because that decides what later lines may add to it; to its reader all
tables are alike.  Numbers with a point or an exponent and date-times are known to be such, but
their value is not kept.
-/

namespace NetRedact.Toml

/-- A part of a key. -/
abbrev Key := List Char

/-- How a table came to be. -/
inductive Origin where
  /-- By a header of its own, or as the document itself. -/
  | header
  /-- As a part of the path in a header of another table. -/
  | implied
  /-- As a part of the path of a dotted key. -/
  | dotted
  /-- Between braces. -/
  | inline
  deriving DecidableEq, Repr

/-- A TOML value. -/
inductive Value where
  | text (content : List Char)
  | integer (value : Int)
  | float
  | boolean (value : Bool)
  | dateTime
  | array (items : List Value)
  | table (origin : Origin) (members : List (Key × Value))
  /-- The tables that repeated headers made, the last one first. -/
  | tables (elements : List Value)

/-- The members of a table. -/
abbrev Members := List (Key × Value)

/-- The members with one of them set: in the place of the one with this key, or at the end. -/
def Members.set (key : Key) (value : Value) : Members → Members
  | [] => [(key, value)]
  | (k, v) :: rest => if k = key then (key, value) :: rest else (k, v) :: Members.set key value rest

namespace Value

/-- The content of a string. -/
def text? : Value → Option (List Char)
  | .text content => some content
  | _ => none

/-- A truth value. -/
def boolean? : Value → Option Bool
  | .boolean value => some value
  | _ => none

/-- An integer from zero up to a limit. -/
def natural? (limit : Nat) : Value → Option Nat
  | .integer (.ofNat n) => if n ≤ limit then some n else none
  | _ => none

/-- Whether the value is a table or an array that holds nothing. -/
def isEmptyHolder : Value → Bool
  | .array [] => true
  | .table _ [] => true
  | _ => false

/-- The name of a choice without content: a string, or a table whose only member has this name and
holds nothing. -/
def choice? : Value → Option (List Char)
  | .text content => some content
  | .table _ [(key, value)] => if value.isEmptyHolder then some key else none
  | _ => none

/-- The members of a structure with the given fields, in the order of the fields.  A table gives
fields by name and an array by position; what does not belong to a field is passed over.  A
date-time is taken for a table without any of the fields. -/
def fields? (names : List String) : Value → Option (List (Option Value))
  | .table _ members => some (names.map fun name => members.lookup name.toList)
  | .array items => some ((List.range names.length).map fun i => items[i]?)
  | .tables elements => some ((List.range names.length).map fun i => elements.reverse[i]?)
  | .dateTime => some (names.map fun _ => none)
  | _ => none

end Value

end NetRedact.Toml
