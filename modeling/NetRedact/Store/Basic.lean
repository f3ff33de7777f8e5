import NetRedact.Mapping.Record
import NetRedact.Time.Clock

/-!
# Mapping stores

What the gateway expects of a store: to keep a record under its handle until its time is up, never
to replace one, and to give it back on request.  A store is described by its operations on a state
of its own; each takes the reading of the monotonic clock at which it happens.
-/

namespace NetRedact

/-- Why a store does not do what it is asked. -/
inductive StoreError where
  /-- There is no live record: there never was one, or it has expired. -/
  | notFound
  /-- The store cannot be used. -/
  | unavailable (reason : String)
  /-- A record under the handle is there already. -/
  | alreadyExists (handle : Handle)
  /-- What is stored is no record. -/
  | undecodable
  deriving DecidableEq

/-- The text of an error. -/
def StoreError.message : StoreError → String
  | .notFound => "mapping not found"
  | .unavailable reason => "mapping store unavailable: " ++ reason
  | .alreadyExists handle => "mapping " ++ handle.toString ++ " already exists"
  | .undecodable => "mapping serialization failed: not a mapping record"

/-- The operations of a store with states of type `σ`. -/
structure MappingStore (σ : Type) where
  /-- Keeps a record under its handle until its lifetime has passed. -/
  put : Moment → MappingRecord → σ → Except StoreError Handle × σ
  /-- The live record under a handle. -/
  get : Moment → Handle → σ → Except StoreError MappingRecord × σ
  /-- Drops expired records and tells how many. -/
  evictExpired : Moment → σ → Except StoreError Nat × σ
  /-- Whether the store can be used. -/
  ping : Moment → σ → Except StoreError Unit × σ
  /-- The name of the kind of store. -/
  backend : String

/-- A store that refuses everything for one reason. -/
def MappingStore.failing {σ : Type} (backend reason : String) : MappingStore σ where
  put _ _ state := (.error (.unavailable reason), state)
  get _ _ state := (.error (.unavailable reason), state)
  evictExpired _ state := (.error (.unavailable reason), state)
  ping _ state := (.error (.unavailable reason), state)
  backend := backend

end NetRedact
