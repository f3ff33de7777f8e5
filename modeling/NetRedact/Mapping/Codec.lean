import NetRedact.Json.Value
import NetRedact.Json.Write
import NetRedact.Mapping.Record
import NetRedact.Text.Quoted
import NetRedact.Time.Rfc3339

/-!
# Entries and records as JSON

Entries and records are written as objects with their fields in a fixed order.  Reading takes the
fields in any order, passes over unknown ones, and takes an array of exactly the fields as well.
-/

namespace NetRedact

open NetRedact.Json NetRedact.Text

/-- The kind that a JSON value names. -/
def AddressKind.ofJson? (v : Value) : Option AddressKind := do
  ofLabel? (String.ofList (← v.choice?))

/-- The mode that a JSON value names. -/
def RedactMode.ofJson? (v : Value) : Option RedactMode := do
  ofLabel? (String.ofList (← v.choice?))

/-- The salt policy that a JSON value names. -/
def SaltPolicy.ofJson? (v : Value) : Option SaltPolicy := do
  ofLabel? (String.ofList (← v.choice?))

namespace MappingEntry

/-- An entry as JSON. -/
def toJson (e : MappingEntry) : List Char :=
  object [("original", quote e.literal), ("surrogate", quote e.surrogate),
    ("kind", quote e.kind.label.toList)]

/-- The entry that a JSON value gives. -/
def ofJson? (v : Value) : Option MappingEntry := do
  match ← v.fields? ["original", "surrogate", "kind"] with
  | [some literal, some surrogate, some kind] =>
    pure ⟨← literal.text?, ← surrogate.text?, ← AddressKind.ofJson? kind⟩
  | _ => none

/-- The name of a kind in a shown entry. -/
def shownKind : AddressKind → String
  | .ipv4 => "Ipv4"
  | .ipv6 => "Ipv6"
  | .mac => "Mac"

/-- The entry for messages, without its literal. -/
def shown (e : MappingEntry) : String :=
  "MappingEntry \x7b original: " ++ quotedString Secret.shown ++ ", surrogate: " ++
    quotedString (String.ofList e.surrogate) ++ ", kind: " ++ shownKind e.kind ++ " \x7d"

end MappingEntry

namespace MappingRecord

/-- A record as JSON. -/
def toJson (r : MappingRecord) : List Char :=
  object [("handle", quote r.handle.render), ("entries", array (r.entries.map (·.toJson))),
    ("created_at", quote (Rfc3339.render r.createdAt)),
    ("expires_at", quote (Rfc3339.render r.expiresAt))]

/-- The entries in an array. -/
def entriesOfJson? : Value → Option (List MappingEntry)
  | .array items => items.mapM MappingEntry.ofJson?
  | _ => none

/-- The record that a JSON value gives. -/
def ofJson? (v : Value) : Option MappingRecord := do
  match ← v.fields? ["handle", "entries", "created_at", "expires_at"] with
  | [some handle, some entries, some createdAt, some expiresAt] =>
    let handle ← Handle.read? (← handle.text?)
    let entries ← entriesOfJson? entries
    let createdAt ← Rfc3339.read? (← createdAt.text?)
    let expiresAt ← Rfc3339.read? (← expiresAt.text?)
    pure ⟨handle, entries, createdAt, expiresAt⟩
  | _ => none

/-- A record as stored text. -/
def encode (r : MappingRecord) : List UInt8 :=
  utf8 r.toJson

/-- The record that a stored text gives. -/
def decode? (payload : List UInt8) : Option MappingRecord := do
  ofJson? (← Json.read? payload)

end MappingRecord

end NetRedact
