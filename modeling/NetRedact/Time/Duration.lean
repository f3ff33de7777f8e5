import NetRedact.Text.Decimal

/-!
# Durations

A duration is a whole number of nanoseconds.  Settings and stamps give it as seconds and a part of
a second; messages show it in the largest unit of which it has at least one.
-/

namespace NetRedact

open NetRedact.Text

/-- A length of time. -/
structure Duration where
  nanos : Nat
  deriving DecidableEq, Repr, Inhabited

namespace Duration

/-- The nanoseconds of one second. -/
def perSecond : Nat := 1000000000

/-- Whole seconds. -/
def ofSeconds (n : Nat) : Duration :=
  ⟨n * perSecond⟩

/-- Seconds and further nanoseconds. -/
def ofParts (seconds nanos : Nat) : Duration :=
  ⟨seconds * perSecond + nanos⟩

/-- No time at all. -/
def zero : Duration := ⟨0⟩

/-- The whole seconds of a duration. -/
def seconds (d : Duration) : Nat :=
  d.nanos / perSecond

/-- What is left beyond the whole seconds, in nanoseconds. -/
def subsecond (d : Duration) : Nat :=
  d.nanos % perSecond

/-- The whole milliseconds of a duration. -/
def milliseconds (d : Duration) : Nat :=
  d.nanos / 1000000

/-- A number with a fraction of `part` in units of `1 / whole`, without trailing zeros. -/
def showFraction (count part whole : Nat) : List Char :=
  let digits := (padded ((decimal whole).length - 1) part).reverse.dropWhile (· == '0')
  decimal count ++ (if digits.isEmpty then [] else '.' :: digits.reverse)

/-- The duration in seconds, milliseconds, microseconds or nanoseconds. -/
def shown (d : Duration) : String :=
  let n := d.nanos
  let unit (size : Nat) (name : String) : String :=
    String.ofList (showFraction (n / size) (n % size) size) ++ name
  if perSecond ≤ n then unit perSecond "s"
  else if 1000000 ≤ n then unit 1000000 "ms"
  else if 1000 ≤ n then unit 1000 "µs"
  else unit 1 "ns"

end Duration

end NetRedact
