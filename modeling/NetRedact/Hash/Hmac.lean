import NetRedact.Hash.Sha256

/-!
# Keyed hashing

HMAC over SHA-256 as in RFC 2104: the message is hashed behind one mask of the key, and the result
behind another.  A key longer than a block is hashed first.
-/

namespace NetRedact.Hash

/-- The key filled up with zeros to one block. -/
def hmacBlock (key : List UInt8) : List UInt8 :=
  let short := if 64 < key.length then (Sha256.hash key).toList else key
  short ++ List.replicate (64 - short.length) 0

/-- The keyed digest of a message. -/
def hmacSha256 (key message : List UInt8) : Vector UInt8 32 :=
  let block := hmacBlock key
  let inner := Sha256.hash (block.map (· ^^^ 0x36) ++ message)
  Sha256.hash (block.map (· ^^^ 0x5C) ++ inner.toList)

end NetRedact.Hash
