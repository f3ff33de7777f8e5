import NetRedact.Address.Socket
import NetRedact.Text.Blank
import NetRedact.Text.Utf8

/-!
# Requests and responses

What the service sees of an HTTP exchange: method, target, headers and body of a request, and
status, headers and body of a response.  Of several headers of one name the first counts, and a
header value with a byte outside visible ASCII, space and tab counts as absent.
-/

namespace NetRedact.Http

open NetRedact.Text

/-- A header of a request. -/
structure Header where
  name : String
  value : List UInt8

/-- A request. -/
structure Request where
  method : String
  /-- The target as it was sent. -/
  target : List Char
  headers : List Header
  body : List UInt8
  /-- The other end of the connection, where known. -/
  peer : Option SocketAddress

/-- A response. -/
structure Response where
  status : Nat
  headers : List (String × String)
  body : List Char

/-- The text of a header value, if all of it is visible ASCII, spaces and tabs. -/
def headerText? (value : List UInt8) : Option (List Char) :=
  if value.all fun b => b = 9 || decide (0x20 ≤ b ∧ b < 0x7F) then
    some (value.map fun b => Char.ofNat b.toNat)
  else none

/-- The text of the first header of a name, letters of either case. -/
def headerOf? (headers : List Header) (name : String) : Option (List Char) := do
  let header ← headers.find? fun h => h.name.toLower == name
  headerText? header.value

/-- The part of a target before a query or a fragment. -/
def beforeQuery (cs : List Char) : List Char :=
  cs.takeWhile fun c => c != '?' && c != '#'

/-- What follows `://` in a target. -/
def afterScheme : List Char → Option (List Char)
  | ':' :: '/' :: '/' :: rest => some rest
  | _ :: rest => afterScheme rest
  | [] => none

/-- The path of a target: the target itself if it is a path, or what follows the host. -/
def pathOf (target : List Char) : List Char :=
  let plain := beforeQuery target
  match plain with
  | '/' :: _ => plain
  | ['*'] => plain
  | _ =>
    match afterScheme plain with
    | none => []
    | some rest =>
      match rest.dropWhile (· != '/') with
      | [] => ['/']
      | path => path

/-- A name for the caller that nothing is known of. -/
def unknownIdentity : String := "unknown"

/-- The caller in whose name a request is counted: the first forwarded address, else the host of
the peer. -/
def clientIdentity (headers : List Header) (peer : Option SocketAddress) : String :=
  let forwarded := (headerOf? headers "x-forwarded-for").map fun value =>
    trim (value.takeWhile (· != ','))
  match forwarded, peer with
  | some (c :: cs), _ => String.ofList (c :: cs)
  | _, some address => String.ofList address.renderHost
  | _, none => unknownIdentity

end NetRedact.Http
