import NetRedact.Proofs.Stores

/-!
# A store in use

Records are put into a store, asked for and swept out while time passes.  A `Session` is a store with
all that has happened to it: what was done, when, in which state it found the store, and what the
store replied.  The store forgets, and the session does not.

The definitions are about any store, so that stores can be compared by their replies to the same
acts.
-/

namespace NetRedact.MappingStore

variable {σ : Type}

/-! ## Acts and replies -/

/-- What happens to a store: somebody turns to it, or time passes. -/
inductive Act where
  | put (record : MappingRecord)
  | get (handle : Handle)
  | evictExpired
  | advance (d : Duration)
  deriving DecidableEq

/-- What a store replies.  Nothing is replied to the passing of time. -/
inductive Response where
  | put (result : Except StoreError Handle)
  | got (result : Except StoreError MappingRecord)
  | evicted (result : Except StoreError Nat)
  | nothing

/-- Whether a record has been accepted. -/
def Response.accepts : Response → Bool
  | .put (.ok _) => true
  | _ => false

/-- How far an act moves the clock. -/
def Act.elapsed : Act → Duration
  | .put _ => .zero
  | .get _ => .zero
  | .evictExpired => .zero
  | .advance d => d

/-- What a store does at a reading of the clock. -/
def answer (store : MappingStore σ) (now : Moment) (state : σ) : Act → Response × σ
  | .put record =>
    let (result, state) := store.put now record state
    (.put result, state)
  | .get handle =>
    let (result, state) := store.get now handle state
    (.got result, state)
  | .evictExpired =>
    let (result, state) := store.evictExpired now state
    (.evicted result, state)
  | .advance _ => (.nothing, state)

/-- An act, with the reading of the clock and the state of the store that it found, and the reply to
it. -/
structure Event (σ : Type) where
  now : Moment
  found : σ
  act : Act
  reply : Response

/-- A store with all that has happened to it, oldest first. -/
structure Session (σ : Type) where
  clock : Moment
  state : σ
  past : List (Event σ)

namespace Session

/-- A store to which nothing has happened yet. -/
def start (clock : Moment) (state : σ) : Session σ :=
  ⟨clock, state, []⟩

/-- The event that an act comes to. -/
def event (store : MappingStore σ) (w : Session σ) (act : Act) : Event σ :=
  ⟨w.clock, w.state, act, (store.answer w.clock w.state act).1⟩

/-- An act takes place. -/
def perform (store : MappingStore σ) (w : Session σ) (act : Act) : Session σ where
  clock := ⟨w.clock.nanos + act.elapsed.nanos⟩
  state := (store.answer w.clock w.state act).2
  past := w.past ++ [w.event store act]

/-- Acts take place one after the other. -/
def run (store : MappingStore σ) (w : Session σ) (acts : List Act) : Session σ :=
  acts.foldl (perform store) w

/-- The clock never goes back. -/
theorem clock_le_perform (store : MappingStore σ) (w : Session σ) (act : Act) :
    w.clock ≤ (w.perform store act).clock := by
  show w.clock.nanos ≤ w.clock.nanos + act.elapsed.nanos
  omega

/-- More acts can follow. -/
theorem run_append (store : MappingStore σ) (w : Session σ) (first second : List Act) :
    w.run store (first ++ second) = (w.run store first).run store second :=
  List.foldl_append

/-- A session keeps its past and adds one event for each act. -/
theorem exists_past_run (store : MappingStore σ) (w : Session σ) (acts : List Act) :
    ∃ events, (w.run store acts).past = w.past ++ events ∧ events.map Event.act = acts := by
  induction acts generalizing w with
  | nil => exact ⟨[], (List.append_nil _).symm, rfl⟩
  | cons act rest ih =>
      obtain ⟨events, hpast, hacts⟩ := ih (w.perform store act)
      refine ⟨w.event store act :: events, ?_, ?_⟩
      · show ((w.perform store act).run store rest).past = _
        rw [hpast]
        simp [perform]
      · rw [List.map_cons, hacts]
        rfl

end Session

end NetRedact.MappingStore
