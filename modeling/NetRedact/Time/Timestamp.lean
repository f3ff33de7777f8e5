import NetRedact.Time.Calendar
import NetRedact.Time.Duration

/-!
# Wall-clock stamps

A stamp is a point of universal time between the years -262143 and 262142, to the nanosecond.
Inside a leap second the count of seconds stays at the second before it and the nanoseconds run on
beyond one second.  A stamp may lie in a leap second behind any second, although clocks have a name
for one only at the end of a minute, the sixty-first second.  Stamps are ordered first by seconds and
then by nanoseconds.
-/

namespace NetRedact

open NetRedact.Calendar

/-- A point of universal time. -/
structure Timestamp where
  /-- Seconds since the beginning of 1970, leap seconds not counted. -/
  seconds : Int
  /-- Nanoseconds within the second; from one thousand million on, within the leap second that
  follows it. -/
  nanos : Nat
  deriving DecidableEq, Repr

namespace Timestamp

/-- The first second of the year -262143. -/
def minSeconds : Int := (daysBeforeYear (-262143) - epochDay) * 86400

/-- The last second of the year 262142. -/
def maxSeconds : Int := (daysBeforeYear 262143 - epochDay) * 86400 - 1

/-- Whether the parts make up a stamp: a year in range, and nanoseconds of the second or of a leap
second behind it. -/
def IsValid (t : Timestamp) : Prop :=
  minSeconds ≤ t.seconds ∧ t.seconds ≤ maxSeconds ∧ t.nanos < 2000000000

instance (t : Timestamp) : Decidable t.IsValid :=
  inferInstanceAs (Decidable (_ ∧ _ ∧ _))

/-- The last stamp outside leap seconds. -/
def last : Timestamp := ⟨maxSeconds, 999999999⟩

/-- Whether one stamp is at or before another. -/
def le (a b : Timestamp) : Bool :=
  decide (a.seconds < b.seconds) || (a.seconds == b.seconds && decide (a.nanos ≤ b.nanos))

/-- The number of the day since 1970. -/
def day (t : Timestamp) : Int := t.seconds / 86400

/-- The second of the day. -/
def secondOfDay (t : Timestamp) : Int := t.seconds % 86400

/-- Nanoseconds from `b` to `a`.  A leap second at the earlier time of day is counted when the other
time of day lies beyond it, in the way of the days on which they fall. -/
def nanosSince (a b : Timestamp) : Int :=
  let leap : Int :=
    if b.secondOfDay < a.secondOfDay ∧ 1000000000 ≤ b.nanos then 1
    else if a.secondOfDay < b.secondOfDay ∧ 1000000000 ≤ a.nanos then -1
    else 0
  (a.seconds - b.seconds + leap) * 1000000000 + ((a.nanos : Int) - (b.nanos : Int))

/-- The time from `b` to `a`, or none if `a` is earlier. -/
def since (a b : Timestamp) : Duration :=
  ⟨(nanosSince a b).toNat⟩

/-- The stamp a duration later, or the last one where that is out of range.  Within a leap second
the nanoseconds run on; beyond it the leap second has counted as one. -/
def addCapped (t : Timestamp) (d : Duration) : Timestamp :=
  let nanos := t.nanos + d.nanos
  if t.nanos < 1000000000 ∨ 2000000000 ≤ nanos then
    let nanos := if t.nanos < 1000000000 then nanos else nanos - 1000000000
    let seconds := t.seconds + ((nanos / 1000000000 : Nat) : Int)
    if seconds ≤ maxSeconds then ⟨seconds, nanos % 1000000000⟩ else last
  else ⟨t.seconds, nanos⟩

end Timestamp

end NetRedact
