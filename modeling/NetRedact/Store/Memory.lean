import NetRedact.Store.Basic
import NetRedact.Table

/-!
# Records in memory

A table from handles to records with the moments at which they expire.  An expired record is not
seen any more, but it occupies its handle until it is removed, by a request for it or by a sweep.

Each operation reads the clock first and then acts on the table in atomic steps.  The steps are
definitions of their own, so that operations can also be composed of them with other clients' steps
in between.
-/

namespace NetRedact

/-- A record and the moment at which it expires. -/
structure StoredRecord where
  record : MappingRecord
  deadline : Moment

/-- The records held, expired or not. -/
abbrev MemoryStore := Table Handle StoredRecord

namespace MemoryStore

/-- Whether a record is live at a reading of the clock. -/
def live (now : Moment) (stored : StoredRecord) : Bool :=
  decide (now < stored.deadline)

/-- The step of `put`: takes a free handle. -/
def occupy (stored : StoredRecord) (s : MemoryStore) : Except StoreError Handle × MemoryStore :=
  let handle := stored.record.handle
  match s.find? handle with
  | some _ => (.error (.alreadyExists handle), s)
  | none => (.ok handle, s.insert handle stored)

/-- The second step of `get`: removes the record under a handle if it has expired. -/
def removeExpired (now : Moment) (handle : Handle) (s : MemoryStore) : MemoryStore :=
  match s.find? handle with
  | some stored => if live now stored then s else s.erase handle
  | none => s

/-- Keeps a record until its lifetime after `now`.  A lifetime that the clock cannot show is
refused. -/
def put (now : Moment) (record : MappingRecord) (s : MemoryStore) :
    Except StoreError Handle × MemoryStore :=
  match now.add? record.ttl with
  | none => (.error (.unavailable ("ttl " ++ record.ttl.shown ++ " out of range")), s)
  | some deadline => occupy ⟨record, deadline⟩ s

/-- The live record under a handle.  An expired one is removed. -/
def get (now : Moment) (handle : Handle) (s : MemoryStore) :
    Except StoreError MappingRecord × MemoryStore :=
  match s.find? handle with
  | none => (.error .notFound, s)
  | some stored =>
    if live now stored then (.ok stored.record, s)
    else (.error .notFound, removeExpired now handle s)

/-- Removes all expired records and tells how many they were. -/
def evictExpired (now : Moment) (s : MemoryStore) : Nat × MemoryStore :=
  let kept := s.filter fun _ stored => live now stored
  (s.size - kept.size, kept)

end MemoryStore

/-- The store in memory. -/
def MappingStore.memory : MappingStore MemoryStore where
  put := MemoryStore.put
  get := MemoryStore.get
  evictExpired now s := let (count, s) := MemoryStore.evictExpired now s; (.ok count, s)
  ping _ s := (.ok (), s)
  backend := "memory"

end NetRedact
