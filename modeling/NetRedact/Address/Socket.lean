import NetRedact.Address.Ipv6

/-!
# Socket addresses

An address together with the number of a service at it: `address:service` for IPv4 and
`[address%scope]:service` for IPv6, where the scope may be left out and is then zero.  Numbers may
have leading zeros when read and have none when written.
-/

namespace NetRedact

open NetRedact.Text

/-- Where a service is reached. -/
inductive SocketAddress where
  | ipv4 (host : Octets 4) (service : Nat)
  | ipv6 (host : Octets 16) (scope service : Nat)
  deriving DecidableEq

namespace SocketAddress

/-- A number of any length at the front of a text, if it is at most `limit`. -/
def readNumber (limit : Nat) (cs : List Char) : Option (Nat × List Char) :=
  let (digits, rest) := spanDigits cs
  if digits.isEmpty || decide (limit < decimalNumber digits) then none
  else some (decimalNumber digits, rest)

/-- A colon and the number of a service, up to the end. -/
def readService : List Char → Option Nat
  | ':' :: cs =>
    match readNumber 65535 cs with
    | some (service, []) => some service
    | _ => none
  | _ => none

/-- A percent sign and a scope, or nothing. -/
def readScope : List Char → Option (Nat × List Char)
  | '%' :: cs => readNumber 4294967295 cs
  | cs => some (0, cs)

/-- The socket address that a text spells. -/
def read? (cs : List Char) : Option SocketAddress :=
  match cs with
  | '[' :: cs => do
    let (host, rest) ← Ipv6.readFirst cs
    let (scope, rest) ← readScope rest
    match rest with
    | ']' :: rest => (readService rest).map (.ipv6 host scope)
    | _ => none
  | cs => do
    let (host, rest) ← Ipv4.readFirst cs
    (readService rest).map (.ipv4 host)

/-- The text of the address without the service. -/
def renderHost : SocketAddress → List Char
  | .ipv4 host _ => Ipv4.render host
  | .ipv6 host _ _ => Ipv6.renderShort host

/-- The text of a socket address.  A scope of zero is left out. -/
def render : SocketAddress → List Char
  | .ipv4 host service => Ipv4.render host ++ ':' :: decimal service
  | .ipv6 host scope service =>
    let scopeText := if scope = 0 then [] else '%' :: decimal scope
    '[' :: (Ipv6.renderShort host ++ scopeText ++ ']' :: ':' :: decimal service)

end SocketAddress

end NetRedact
