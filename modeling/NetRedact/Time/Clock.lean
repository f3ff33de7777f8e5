import NetRedact.Time.Duration

/-!
# The monotonic clock

Moments of a clock that never goes back.  Deadlines and windows are reckoned on it.  A moment is a
number of nanoseconds from some origin; its seconds fit into a signed 64-bit number, so adding or
taking away a very long duration may have no result.
-/

namespace NetRedact

/-- A reading of the monotonic clock. -/
structure Moment where
  nanos : Int
  deriving DecidableEq, Repr, Inhabited

namespace Moment

instance : LT Moment := ⟨fun a b => a.nanos < b.nanos⟩

instance : LE Moment := ⟨fun a b => a.nanos ≤ b.nanos⟩

instance (a b : Moment) : Decidable (a < b) := inferInstanceAs (Decidable (a.nanos < b.nanos))

instance (a b : Moment) : Decidable (a ≤ b) := inferInstanceAs (Decidable (a.nanos ≤ b.nanos))

/-- One second more than the clock can show, in nanoseconds on either side of the origin. -/
def limit : Int := 9223372036854775808 * 1000000000

/-- The moment at the given nanoseconds, if the clock can show it. -/
def ofNanos? (n : Int) : Option Moment :=
  if -limit ≤ n ∧ n < limit then some ⟨n⟩ else none

/-- The moment a duration later. -/
def add? (m : Moment) (d : Duration) : Option Moment :=
  ofNanos? (m.nanos + d.nanos)

/-- The moment a duration earlier. -/
def sub? (m : Moment) (d : Duration) : Option Moment :=
  ofNanos? (m.nanos - d.nanos)

/-- The time from `earlier` to `later`, or none if they are the other way round. -/
def since (later earlier : Moment) : Duration :=
  ⟨(later.nanos - earlier.nanos).toNat⟩

end Moment

end NetRedact
