import NetRedact.Address.Ipv6
import NetRedact.Address.Mac
import NetRedact.Hash.Hmac
import NetRedact.Scan.Cancellation
import NetRedact.Text.Utf8

/-!
# Surrogates

A surrogate is a well-formed literal that takes the place of another one of the same kind and, for
a MAC address, of the same layout.  Its octets are the leading bytes of a byte string that comes
either from a sequence of random draws, one for each occurrence, or from a keyed digest of the salt
and the address, so that equal addresses under one key and salt have equal surrogates.
-/

namespace NetRedact

open NetRedact.Text

/-- A secret.  Its text is used for keying only. -/
structure Secret where
  text : List Char
  deriving DecidableEq

namespace Secret

/-- The bytes that key the digest. -/
def bytes (s : Secret) : List UInt8 :=
  utf8 s.text

/-- The number of bytes. -/
def size (s : Secret) : Nat :=
  byteLength s.text

/-- What is shown instead of a secret. -/
def shown : String := "__REDACTED__"

/-- The least number of bytes that a configured secret may have. -/
def minSize : Nat := 32

end Secret

/-- Where the salts of keyed surrogates come from. -/
inductive SaltPolicy where
  /-- A fresh salt for each request: surrogates of different requests are unrelated. -/
  | perRequest
  /-- The empty salt: surrogates stay the same as long as the secret does. -/
  | stable
  deriving DecidableEq, Repr, Inhabited

namespace SaltPolicy

/-- The name of a policy. -/
def label : SaltPolicy → String
  | .perRequest => "per_request"
  | .stable => "stable"

/-- Every policy. -/
def all : List SaltPolicy := [.perRequest, .stable]

/-- The policy with the given name. -/
def ofLabel? (name : String) : Option SaltPolicy :=
  all.find? fun policy => policy.label == name

/-- Reads the name of a policy. -/
def read (name : String) : Except String SaltPolicy :=
  match ofLabel? name with
  | some policy => .ok policy
  | none => .error ("unknown salt policy: " ++ name)

/-- The number of bytes in a fresh salt. -/
def freshSize : Nat := 16

end SaltPolicy

/-- Bytes mixed into every digest of a request. -/
structure Salt where
  bytes : List UInt8
  deriving DecidableEq

namespace Salt

/-- The empty salt. -/
def stable : Salt := ⟨[]⟩

end Salt

/-- The salt of one request: the drawn bytes or the empty salt. -/
def SaltPolicy.salt (policy : SaltPolicy) (draw : Octets SaltPolicy.freshSize) : Salt :=
  match policy with
  | .perRequest => ⟨draw.toList⟩
  | .stable => .stable

/-- A key for digests.  It is never empty. -/
structure Key where
  bytes : List UInt8
  bytes_ne_nil : bytes ≠ []

namespace Key

/-- The key of a secret; the empty secret counts as none. -/
def ofSecret (s : Secret) : Except RedactError Key :=
  if h : s.bytes = [] then .error .missingSecret else .ok ⟨s.bytes, h⟩

/-- What is shown instead of a key. -/
def shown : String := "DeterministicKey(" ++ Secret.shown ++ ")"

end Key

/-- A field behind its length in four bytes.  A length that needs more is given as the largest
number that fits. -/
def frame (field : List UInt8) : List UInt8 :=
  Hash.Sha256.bigEndian 4 (min field.length 0xFFFFFFFF) ++ field

/-- The bytes digested for an address: salt, kind and octets, each framed.  The layout of a MAC
address is not among them. -/
def digestInput (salt : Salt) (address : Address) : List UInt8 :=
  frame salt.bytes ++ frame (utf8 address.kind.label.toList) ++ frame address.bytes

/-- The keyed digest of an address. -/
def Key.digest (key : Key) (salt : Salt) (address : Address) : List UInt8 :=
  (Hash.hmacSha256 key.bytes (digestInput salt address)).toList

/-- The first `n` bytes, filled up with zeros. -/
def leading (n : Nat) (bytes : List UInt8) : Octets n :=
  .ofFn fun i => bytes.getD i.val 0

/-- The literal with the leading bytes of `bytes` in the shape of an address. -/
def renderLike (address : Address) (bytes : List UInt8) : List Char :=
  match address with
  | .ipv4 _ => Ipv4.render (leading 4 bytes)
  | .ipv6 _ => Ipv6.renderFull (leading 16 bytes)
  | .mac _ style => Mac.render style (leading 6 bytes)

/-- Where surrogates come from. -/
inductive Source where
  /-- Random draws, the first for the first occurrence and so on. -/
  | random (draws : Nat → Octets 16)
  /-- Digests under a key and a salt. -/
  | keyed (key : Key) (salt : Salt)

namespace Source

/-- The surrogate for the address of the occurrence with the given number. -/
def surrogate (source : Source) (occurrence : Nat) (address : Address) : List Char :=
  match source with
  | .random draws => renderLike address (draws occurrence).toList
  | .keyed key salt => renderLike address (key.digest salt address)

end Source

end NetRedact
