import NetRedact.Admission.RateLimit
import NetRedact.Store.Basic

/-!
# Maintenance

Expired records and idle rate windows do no harm, but they take room.  A sweep removes both.  A loop
sweeps again and again, once every period: the first time one period after its start, and then one
period after each time it was due.  A loop that comes too late by more than a few milliseconds
counts its next period from when it came.
-/

namespace NetRedact

/-- What one sweep removed. -/
structure SweepReport where
  evictedMappings : Nat
  purgedIdentities : Nat
  deriving DecidableEq, Repr

/-- Removes expired records and idle windows.  If the store refuses, only the windows. -/
def sweep {σ : Type} (store : MappingStore σ) (now : Moment) (limiter : RateLimiter) (records : σ) :
    SweepReport × RateLimiter × σ :=
  let (result, records) := store.evictExpired now records
  let evicted := match result with
    | .ok count => count
    | .error _ => 0
  let (purged, limiter) := limiter.purgeIdle now
  (⟨evicted, purged⟩, limiter, records)

/-- A loop that is running. -/
structure MaintenanceLoop where
  /-- The period. -/
  every : Duration
  /-- When the next sweep is due; never, if the clock cannot show that moment. -/
  due : Option Moment
  deriving DecidableEq

namespace MaintenanceLoop

/-- How late a sweep may be without putting off the ones behind it. -/
def tolerance : Duration := ⟨5000000⟩

/-- A loop started now.  There is none with a period of zero. -/
def start? (every : Duration) (now : Moment) : Option MaintenanceLoop :=
  if every = .zero then none else some ⟨every, now.add? every⟩

/-- Whether a sweep is due. -/
def isDue (l : MaintenanceLoop) (now : Moment) : Bool :=
  match l.due with
  | some due => decide (due ≤ now)
  | none => false

/-- The loop after the sweep that was due at `due` has been served at `now`. -/
def served (l : MaintenanceLoop) (due now : Moment) : MaintenanceLoop :=
  let late := decide (due.nanos + tolerance.nanos < now.nanos)
  { l with due := (if late then now else due).add? l.every }

/-- Serves the sweep that is due now, if one is. -/
def poll {σ : Type} (store : MappingStore σ) (now : Moment) (l : MaintenanceLoop)
    (limiter : RateLimiter) (records : σ) : MaintenanceLoop × RateLimiter × σ :=
  match l.due with
  | none => (l, limiter, records)
  | some due =>
    if due ≤ now then
      let (_, limiter, records) := sweep store now limiter records
      (l.served due now, limiter, records)
    else (l, limiter, records)

/-- Serves at most `count` sweeps that are due by `stop`, each at its own moment. -/
def pollTimes {σ : Type} (store : MappingStore σ) (stop : Moment) (count : Nat)
    (l : MaintenanceLoop) (limiter : RateLimiter) (records : σ) :
    MaintenanceLoop × RateLimiter × σ :=
  match count, l.due with
  | 0, _ => (l, limiter, records)
  | _, none => (l, limiter, records)
  | count + 1, some due =>
    if due ≤ stop then
      let (l, limiter, records) := poll store due l limiter records
      pollTimes store stop count l limiter records
    else (l, limiter, records)

/-- Serves all sweeps that are due by `stop`, each at its own moment. -/
def pollUntil {σ : Type} (store : MappingStore σ) (stop : Moment) (l : MaintenanceLoop)
    (limiter : RateLimiter) (records : σ) : MaintenanceLoop × RateLimiter × σ :=
  match l.due with
  | none => (l, limiter, records)
  | some due =>
    let count := (stop.since due).nanos / l.every.nanos + 1
    pollTimes store stop count l limiter records

/-- The loop after a value has come over the shutdown channel: `true` ends it. -/
def signalled (l : MaintenanceLoop) (stop : Bool) : Option MaintenanceLoop :=
  if stop then none else some l

end MaintenanceLoop

end NetRedact
