import NetRedact.Text.Hex

/-!
# Network addresses

The three kinds of identifier the library knows, and their values.  A value carries the octets of
an address; of the way a literal was spelled it keeps only the layout of a MAC address.
-/

namespace NetRedact

/-- A fixed number of octets. -/
abbrev Octets (n : Nat) := Vector UInt8 n

/-- The octets in a list of exactly `n` of them. -/
def Octets.ofList? (n : Nat) (bytes : List UInt8) : Option (Octets n) :=
  if h : bytes.toArray.size = n then some ⟨bytes.toArray, h⟩ else none

/-- The kinds of network identifier. -/
inductive AddressKind where
  | ipv4
  | ipv6
  | mac
  deriving DecidableEq, Repr, Inhabited

namespace AddressKind

/-- The name of a kind, which is also its tag in keyed digests. -/
def label : AddressKind → String
  | .ipv4 => "ipv4"
  | .ipv6 => "ipv6"
  | .mac => "mac"

/-- Every kind. -/
def all : List AddressKind := [.ipv4, .ipv6, .mac]

/-- The kind with the given name. -/
def ofLabel? (name : String) : Option AddressKind :=
  all.find? fun kind => kind.label == name

end AddressKind

/-- The separator layouts of a MAC literal. -/
inductive MacStyle where
  /-- Six pairs of digits joined by colons. -/
  | colon
  /-- Six pairs of digits joined by hyphens. -/
  | hyphen
  /-- Three quadruples of digits joined by dots. -/
  | dotted
  deriving DecidableEq, Repr, Inhabited

namespace MacStyle

/-- The name of a layout. -/
def label : MacStyle → String
  | .colon => "colon"
  | .hyphen => "hyphen"
  | .dotted => "dotted"

/-- The layout with the given name. -/
def ofLabel? (name : String) : Option MacStyle :=
  [colon, hyphen, dotted].find? fun style => style.label == name

end MacStyle

/-- The value of a literal. -/
inductive Address where
  | ipv4 (octets : Octets 4)
  | ipv6 (octets : Octets 16)
  | mac (octets : Octets 6) (style : MacStyle)
  deriving DecidableEq

namespace Address

/-- The kind of an address. -/
def kind : Address → AddressKind
  | .ipv4 _ => .ipv4
  | .ipv6 _ => .ipv6
  | .mac _ _ => .mac

/-- The layout of a MAC address. -/
def style? : Address → Option MacStyle
  | .mac _ style => some style
  | _ => none

/-- The octets of an address.  All spellings of one address, and all layouts of one MAC address,
have the same octets. -/
def bytes : Address → List UInt8
  | .ipv4 octets => octets.toList
  | .ipv6 octets => octets.toList
  | .mac octets _ => octets.toList

/-- The address of a kind with the given octets; a MAC address has the given layout. -/
def ofBytes? (kind : AddressKind) (style : MacStyle) (bytes : List UInt8) : Option Address :=
  match kind with
  | .ipv4 => (Octets.ofList? 4 bytes).map .ipv4
  | .ipv6 => (Octets.ofList? 16 bytes).map .ipv6
  | .mac => (Octets.ofList? 6 bytes).map (.mac · style)

end Address

end NetRedact
