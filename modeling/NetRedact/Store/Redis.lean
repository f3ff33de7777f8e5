import NetRedact.Mapping.Codec
import NetRedact.Store.Basic
import NetRedact.Store.Reply

/-!
# Records in Redis

A record is kept as one JSON text under the name space, a colon and its handle.  It is written by a
single command that refuses to replace a value and gives the value a lifetime, so that the server
both keeps records from being overwritten and lets them expire.

The store is described over any server that answers commands; `Store.RedisServer` has one.
-/

namespace NetRedact.Redis

open NetRedact.Text

/-- The commands that a store sends. -/
inductive Command where
  /-- Asks for any answer. -/
  | ping
  /-- Writes a value that lives for some milliseconds, if there is none under the key. -/
  | setFresh (key value : List Char) (milliseconds : Nat)
  /-- Reads a value. -/
  | get (key : List Char)
  deriving DecidableEq

/-- The words of a command as they are sent. -/
def Command.words : Command → List (List Char)
  | ping => ["PING".toList]
  | setFresh key value milliseconds =>
    ["SET".toList, key, value, "PX".toList, decimal milliseconds, "NX".toList]
  | get key => ["GET".toList, key]

/-- The key of a record. -/
def keyOf (nameSpace : List Char) (handle : Handle) : List Char :=
  nameSpace ++ ':' :: handle.render

/-- The largest lifetime that can be asked for, in milliseconds. -/
def maxMilliseconds : Nat := 18446744073709551615

/-- A lifetime in whole milliseconds.  A server takes no lifetime of zero, so there is at least
one. -/
def lifetime (ttl : Duration) : Nat :=
  max 1 (min maxMilliseconds ttl.milliseconds)

/-- The command that stores a record. -/
def putCommand (nameSpace : List Char) (record : MappingRecord) : Command :=
  .setFresh (keyOf nameSpace record.handle) record.toJson (lifetime record.ttl)

/-- What a server's reply means where a text or nothing is wanted. -/
def optionalText (reply : Option Reply) : Except StoreError (Option (List Char)) :=
  match reply with
  | none => .error (.unavailable "no reply")
  | some .nil => .ok none
  | some reply =>
    match reply.text? with
    | some text => .ok (some text)
    | none => .error (.unavailable "unexpected reply")

/-- What the reply to `putCommand` means: a text says that the record was written. -/
def putResult (handle : Handle) (reply : Option Reply) : Except StoreError Handle :=
  match optionalText reply with
  | .error e => .error e
  | .ok none => .error (.alreadyExists handle)
  | .ok (some _) => .ok handle

/-- What the reply to a request for a record means. -/
def getResult (reply : Option Reply) : Except StoreError MappingRecord :=
  match optionalText reply with
  | .error e => .error e
  | .ok none => .error .notFound
  | .ok (some payload) =>
    match MappingRecord.decode? (utf8 payload) with
    | some record => .ok record
    | none => .error .undecodable

/-- What the reply to `ping` means: any text will do. -/
def pingResult (reply : Option Reply) : Except StoreError Unit :=
  match optionalText reply with
  | .ok (some _) => .ok ()
  | .ok none => .error (.unavailable "no answer")
  | .error e => .error e

/-- The text of a store for messages. -/
def shownStore (nameSpace : String) : String :=
  "RedisMappingStore \x7b namespace: " ++ quotedString nameSpace ++ ", .. \x7d"

end NetRedact.Redis

namespace NetRedact

open NetRedact.Redis

/-- The store in a server.  `answer` sends a command to the server and waits for its reply. -/
def MappingStore.redis {σ : Type} (nameSpace : List Char)
    (answer : Moment → Command → σ → Option Reply × σ) : MappingStore σ where
  put now record server :=
    let (reply, server) := answer now (putCommand nameSpace record) server
    (putResult record.handle reply, server)
  get now handle server :=
    let (reply, server) := answer now (.get (keyOf nameSpace handle)) server
    (getResult reply, server)
  evictExpired _ server := (.ok 0, server)
  ping now server :=
    let (reply, server) := answer now .ping server
    (pingResult reply, server)
  backend := "redis"

end NetRedact
