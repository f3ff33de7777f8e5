import NetRedact.Json.Token

/-!
# JSON values

The structural level of reading JSON.  A machine takes the tokens one by one and keeps the arrays
and objects that are still open on a stack, so texts may be nested to any depth.  Members of
objects keep their order and may repeat; what to make of that is for the reader of the value.
Numbers are known to be numbers, but their value is not kept.
-/

namespace NetRedact.Json

/-- A JSON value. -/
inductive Value where
  | null
  | bool (value : Bool)
  | number
  | text (content : Option (List Char))
  | array (items : List Value)
  | object (members : List (Option (List Char) × Value))

/-- An array or object that is still open.  What it holds so far runs backwards. -/
inductive Frame where
  | array (items : List Value)
  | object (members : List (Option (List Char) × Value)) (key : Option (List Char))

/-- What may come next. -/
inductive Expect where
  /-- A value. -/
  | value
  /-- A value or the end of an array that has just been opened. -/
  | first
  /-- A key of an object that holds the given members. -/
  | key (members : List (Option (List Char) × Value))
  /-- A key or the end of an object that has just been opened. -/
  | firstKey
  /-- The colon behind the given key. -/
  | colon (members : List (Option (List Char) × Value)) (key : Option (List Char))
  /-- A comma, an end, or nothing, behind the given value. -/
  | after (value : Value)

/-- The values still open, innermost first, and what may come next. -/
structure Machine where
  stack : List Frame
  expect : Expect

namespace Machine

/-- Before the first token. -/
def start : Machine := ⟨[], .value⟩

/-- A token where a value may begin. -/
def begin? (stack : List Frame) : Token → Option Machine
  | .null => some ⟨stack, .after .null⟩
  | .bool b => some ⟨stack, .after (.bool b)⟩
  | .number => some ⟨stack, .after .number⟩
  | .text content => some ⟨stack, .after (.text content)⟩
  | .openArray => some ⟨.array [] :: stack, .first⟩
  | .openObject => some ⟨stack, .firstKey⟩
  | _ => none

/-- One more token. -/
def step (m : Machine) (token : Token) : Option Machine :=
  match m.expect with
  | .value => begin? m.stack token
  | .first =>
    match token, m.stack with
    | .closeArray, .array items :: stack => some ⟨stack, .after (.array items.reverse)⟩
    | _, _ => begin? m.stack token
  | .firstKey =>
    match token with
    | .closeObject => some ⟨m.stack, .after (.object [])⟩
    | .text key => some ⟨m.stack, .colon [] key⟩
    | _ => none
  | .key members =>
    match token with
    | .text key => some ⟨m.stack, .colon members key⟩
    | _ => none
  | .colon members key =>
    match token with
    | .colon => some ⟨.object members key :: m.stack, .value⟩
    | _ => none
  | .after value =>
    match token, m.stack with
    | .comma, .array items :: stack => some ⟨.array (value :: items) :: stack, .value⟩
    | .closeArray, .array items :: stack =>
      some ⟨stack, .after (.array (value :: items).reverse)⟩
    | .comma, .object members key :: stack => some ⟨stack, .key ((key, value) :: members)⟩
    | .closeObject, .object members key :: stack =>
      some ⟨stack, .after (.object ((key, value) :: members).reverse)⟩
    | _, _ => none

/-- The machine after all tokens. -/
def run (m : Machine) : List Token → Option Machine
  | [] => some m
  | token :: rest =>
    match m.step token with
    | some m => m.run rest
    | none => none

/-- The value, if it is complete and nothing is open. -/
def result? (m : Machine) : Option Value :=
  match m.stack, m.expect with
  | [], .after value => some value
  | _, _ => none

end Machine

/-- The value that a text spells as a whole. -/
def read? (bytes : List UInt8) : Option Value := do
  let tokens ← tokens? bytes
  let m ← Machine.start.run tokens
  m.result?

namespace Value

/-- The content of a string. -/
def text? : Value → Option (List Char)
  | .text content => content
  | _ => none

/-- Whether the value is the given constant. -/
def isNull : Value → Bool
  | .null => true
  | _ => false

/-- The members of an object if all of its keys are texts. -/
def members? : List (Option (List Char) × Value) → Option (List (List Char × Value))
  | members => members.mapM fun (key, value) => key.map fun key => (key, value)

/-- The members of a structure with the given fields, in the order of the fields.  An array gives
the first fields in order.  An object gives fields by name; other names are passed over, and a
field given twice is refused. -/
def fields? (names : List String) : Value → Option (List (Option Value))
  | .array items =>
    if items.length ≤ names.length then
      some (items.map some ++ List.replicate (names.length - items.length) none)
    else none
  | .object members => do
    let members ← members? members
    names.mapM fun name =>
      match members.filter fun member => member.1 == name.toList with
      | [] => some none
      | [member] => some (some member.2)
      | _ => none
  | _ => none

/-- The name of a choice without content: a string, or an object that gives the name the value
null. -/
def choice? : Value → Option (List Char)
  | .text content => content
  | .object [(some key, value)] => if value.isNull then some key else none
  | _ => none

end Value

end NetRedact.Json
