/-!
# The calendar

The Gregorian calendar, extended to all years.  A day is counted from the first of January of the
year zero; a date is a year, a month and a day of the month.
-/

namespace NetRedact.Calendar

/-- Whether a year has a twenty-ninth of February. -/
def isLeapYear (year : Int) : Bool :=
  year % 4 == 0 && (year % 100 != 0 || year % 400 == 0)

/-- The lengths of the months of a year. -/
def monthLengths (year : Int) : List Nat :=
  [31, if isLeapYear year then 29 else 28, 31, 30, 31, 30, 31, 31, 30, 31, 30, 31]

/-- The number of days from the beginning of the year zero to the beginning of `year`. -/
def daysBeforeYear (year : Int) : Int :=
  365 * year + (year + 3) / 4 - (year + 99) / 100 + (year + 399) / 400

/-- The year that a day lies in.  Years of mean length give a guess that may be one off on either
side. -/
def yearOf (day : Int) : Int :=
  let guess := day * 400 / 146097
  if day < daysBeforeYear guess then guess - 1
  else if daysBeforeYear (guess + 1) ≤ day then guess + 1
  else guess

/-- A date. -/
structure Date where
  year : Int
  /-- From 1 to 12. -/
  month : Nat
  /-- From 1 on. -/
  day : Nat
  deriving DecidableEq, Repr

/-- The month and the day of the month of the day with the given number, both counted from zero,
where the months have the given lengths. -/
def splitMonth : List Nat → Nat → Nat × Nat
  | [], n => (0, n)
  | length :: later, n =>
    if n < length then (0, n)
    else let (month, day) := splitMonth later (n - length); (month + 1, day)

/-- The date of a day. -/
def dateOf (day : Int) : Date :=
  let year := yearOf day
  let (month, dayOfMonth) := splitMonth (monthLengths year) (day - daysBeforeYear year).toNat
  ⟨year, month + 1, dayOfMonth + 1⟩

/-- The day of a date, if the date exists. -/
def dayOf? (date : Date) : Option Int :=
  let lengths := monthLengths date.year
  match date.month, date.day with
  | month + 1, day + 1 =>
    match lengths[month]? with
    | some length =>
      if day < length then
        some (daysBeforeYear date.year + ((lengths.take month).foldl (· + ·) 0 : Nat) + day)
      else none
    | none => none
  | _, _ => none

/-- The first of January 1970. -/
def epochDay : Int := 719528

end NetRedact.Calendar
