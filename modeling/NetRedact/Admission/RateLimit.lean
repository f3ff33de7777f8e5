import NetRedact.Table
import NetRedact.Time.Clock

/-!
# The sliding window

A limiter keeps, for each identity, the times of its admitted requests, oldest first.  A request is
admitted if fewer than the permitted number of them lie within one window before it.  A refused
request leaves no trace, and is told how long to wait until the oldest time leaves the window.
-/

namespace NetRedact

/-- The verdict on one request. -/
inductive RateDecision where
  /-- Admitted and counted. -/
  | allowed
  /-- Refused and not counted. -/
  | limited (retryAfter : Duration)
  deriving DecidableEq, Repr

/-- Whether a request was admitted. -/
def RateDecision.isAllowed : RateDecision → Bool
  | .allowed => true
  | .limited _ => false

/-- A limiter and the windows it holds. -/
structure RateLimiter where
  /-- How many requests of one identity a window may hold. -/
  maxRequests : Nat
  window : Duration
  /-- Admitted times of each identity, oldest first. -/
  windows : Table String (List Moment)

namespace RateLimiter

/-- A limiter that has not seen a request. -/
def fresh (maxRequests : Nat) (window : Duration) : RateLimiter :=
  ⟨maxRequests, window, .empty⟩

/-- The times that are left when those at or before the beginning of the window are taken from the
front.  Where the clock cannot show the beginning of the window, none is. -/
def drain (window : Duration) (now : Moment) (times : List Moment) : List Moment :=
  match now.sub? window with
  | none => times
  | some cutoff => times.dropWhile fun t => decide (t ≤ cutoff)

/-- How long a refused request has to wait for the oldest time to leave the window. -/
def retryAfter (window : Duration) (now : Moment) (times : List Moment) : Duration :=
  match times.head?.bind (·.add? window) with
  | some free => free.since now
  | none => window

/-- Checks a request, and counts it if it is admitted. -/
def check (limiter : RateLimiter) (identity : String) (now : Moment) :
    RateDecision × RateLimiter :=
  let times := drain limiter.window now ((limiter.windows.find? identity).getD [])
  if times.length < limiter.maxRequests then
    (.allowed, { limiter with windows := limiter.windows.insert identity (times ++ [now]) })
  else
    (.limited (retryAfter limiter.window now times),
      { limiter with windows := limiter.windows.insert identity times })

/-- Checks a request in the same way, and tells only whether it is admitted. -/
def allow (limiter : RateLimiter) (identity : String) (now : Moment) : Bool × RateLimiter :=
  let (decision, limiter) := limiter.check identity now
  (decision.isAllowed, limiter)

/-- Forgets identities without an admitted request in the window, and tells how many. -/
def purgeIdle (limiter : RateLimiter) (now : Moment) : Nat × RateLimiter :=
  let drained := limiter.windows.map (drain limiter.window now)
  let active := drained.filter fun _ times => !times.isEmpty
  (drained.size - active.size, { limiter with windows := active })

/-- The number of identities for which a window is held. -/
def tracked (limiter : RateLimiter) : Nat :=
  limiter.windows.size

end RateLimiter

end NetRedact
