import NetRedact.Mapping.Handle
import NetRedact.Redaction
import NetRedact.Time.Timestamp

/-!
# Mapping records

A record keeps the entries of one redaction under a handle, with the wall-clock times at which it
was made and will expire.  The time it lives is the difference of the two, and this is what a store
goes by.
-/

namespace NetRedact

/-- What a store keeps. -/
structure MappingRecord where
  handle : Handle
  /-- The entries in the order of the text. -/
  entries : List MappingEntry
  createdAt : Timestamp
  expiresAt : Timestamp
  deriving DecidableEq

namespace MappingRecord

/-- A record made now that lives for `ttl`, or until the last stamp if that is sooner. -/
def make (handle : Handle) (entries : List MappingEntry) (now : Timestamp) (ttl : Duration) :
    MappingRecord :=
  ⟨handle, entries, now, now.addCapped ttl⟩

/-- How long the record lives; not at all if it expires before it is made. -/
def ttl (r : MappingRecord) : Duration :=
  r.expiresAt.since r.createdAt

/-- Whether the record has expired at a wall-clock time. -/
def isExpiredAt (r : MappingRecord) (now : Timestamp) : Bool :=
  r.expiresAt.le now

end MappingRecord

end NetRedact
