import NetRedact.Store.Redis
import NetRedact.Table

/-!
# A Redis server

A server that executes one command at a time on a table from keys to values.  A value lives until
its deadline, and a value past its deadline counts as absent.  A lifetime must be a positive number
of milliseconds that fits into 63 bits.
-/

namespace NetRedact.Redis

open NetRedact.Text

/-- A value and the moment at which it expires, if it does. -/
structure ServerValue where
  value : List Char
  deadline : Option Moment

/-- The state of a server. -/
abbrev Server := Table (List Char) ServerValue

namespace Server

/-- The live value of a key. -/
def live? (now : Moment) (key : List Char) (s : Server) : Option (List Char) :=
  match s.find? key with
  | none => none
  | some stored =>
    match stored.deadline with
    | none => some stored.value
    | some deadline => if now < deadline then some stored.value else none

/-- The bound that lifetimes must stay below. -/
def lifetimeBound : Nat := 9223372036854775808

/-- Executes one command. -/
def execute (now : Moment) (command : Command) (s : Server) : Reply × Server :=
  match command with
  | .ping => (.line (utf8 "PONG".toList), s)
  | .get key =>
    match s.live? now key with
    | some value => (.bulk (utf8 value), s)
    | none => (.nil, s)
  | .setFresh key value milliseconds =>
    if milliseconds = 0 ∨ lifetimeBound ≤ milliseconds then
      (.error (utf8 "ERR invalid expire time in 'set' command".toList), s)
    else match s.live? now key with
      | some _ => (.nil, s)
      | none =>
        let deadline : Moment := ⟨now.nanos + milliseconds * 1000000⟩
        (.line (utf8 "OK".toList), s.insert key ⟨value, some deadline⟩)

/-- A server that answers every command. -/
def serve (now : Moment) (command : Command) (s : Server) : Option Reply × Server :=
  let (reply, s) := s.execute now command
  (some reply, s)

end Server

/-- The store in a server of this kind. -/
def serverStore (nameSpace : List Char) : MappingStore Server :=
  .redis nameSpace Server.serve

end NetRedact.Redis
