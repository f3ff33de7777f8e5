import NetRedact.Address.Basic

/-!
# Handles

A handle names a stored record.  It is a UUID: sixteen octets, written as hexadecimal digits in five
groups.  Reading also takes the digits without hyphens, the written form in braces, and the written
form behind `urn:uuid:`, with letters of either case.
-/

namespace NetRedact

open NetRedact.Text

/-- The name of a record. -/
structure Handle where
  octets : Octets 16
  deriving DecidableEq

namespace Handle

/-- The handle made of sixteen random bytes: four bits tell the version, two the layout. -/
def ofDraw (draw : Octets 16) : Handle :=
  ⟨(draw.set 6 ((draw[6] &&& 0x0F) ||| 0x40)).set 8 ((draw[8] &&& 0x3F) ||| 0x80)⟩

/-- The version that a handle tells. -/
def version (h : Handle) : Nat :=
  h.octets[6].toNat / 16

/-- Where hyphens stand: the sizes of the groups in bytes. -/
def groupSizes : List Nat := [4, 2, 2, 2, 6]

/-- Bytes as digits in groups joined by hyphens. -/
def hyphenated : List Nat → List UInt8 → List Char
  | [], _ => []
  | [size], bytes => hexBytes (bytes.take size)
  | size :: sizes, bytes => hexBytes (bytes.take size) ++ '-' :: hyphenated sizes (bytes.drop size)

/-- The text of a handle. -/
def render (h : Handle) : List Char :=
  hyphenated groupSizes h.octets.toList

/-- The handle as a string. -/
def toString (h : Handle) : String :=
  String.ofList h.render

/-- The bytes of digits in groups of the given sizes joined by hyphens. -/
def readHyphenated : List Nat → List Char → Option (List UInt8)
  | [], cs => if cs.isEmpty then some [] else none
  | [size], cs => if cs.length = 2 * size then bytesOfHex? cs else none
  | size :: sizes, cs =>
    match cs.drop (2 * size) with
    | '-' :: rest => do
      let front ← bytesOfHex? (cs.take (2 * size))
      let back ← readHyphenated sizes rest
      pure (front ++ back)
    | _ => none

/-- The text inside the braces or behind the name space, if it has either. -/
def unwrap (cs : List Char) : List Char :=
  match cs with
  | '\x7b' :: rest =>
    match rest.getLast? with
    | some '\x7d' => rest.dropLast
    | _ => cs
  | _ =>
    let space := "urn:uuid:".toList
    if (cs.take space.length).map Char.toLower = space then cs.drop space.length else cs

/-- The handle that a text names. -/
def read? (cs : List Char) : Option Handle := do
  let bytes ← if cs.length = 32 then bytesOfHex? cs else readHyphenated groupSizes (unwrap cs)
  let octets ← Octets.ofList? 16 bytes
  pure ⟨octets⟩

end Handle

end NetRedact
