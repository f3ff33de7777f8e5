import NetRedact.Text.Blank
import NetRedact.Text.Units
import NetRedact.Time.Timestamp

/-!
# Dates and times as text

Stamps are written as in RFC 3339, in universal time, with as many groups of three digits for the
fraction as are needed and a signed year where it does not have four digits.  Within a leap second the
number of the second is one more, so the text tells a leap second from the second behind it only where
that number is sixty.

Reading is more generous: blanks may stand before each number and each separator, the date and the
time may be joined by a blank, numbers may be short, and the offset may leave its colon out.
-/

namespace NetRedact.Rfc3339

open NetRedact.Text NetRedact.Calendar

/-- The fraction of a second: nothing, or three, six or nine digits. -/
def renderFraction (nanos : Nat) : List Char :=
  if nanos = 0 then []
  else if nanos % 1000000 = 0 then '.' :: padded 3 (nanos / 1000000)
  else if nanos % 1000 = 0 then '.' :: padded 6 (nanos / 1000)
  else '.' :: padded 9 nanos

/-- A year: four digits, or a sign and at least four. -/
def renderYear (year : Int) : List Char :=
  if year < 0 then '-' :: padded 4 year.natAbs
  else if 9999 < year then '+' :: padded 4 year.natAbs
  else padded 4 year.natAbs

/-- The text of a stamp. -/
def render (t : Timestamp) : List Char :=
  let date := dateOf (t.day + epochDay)
  let second := t.secondOfDay.toNat
  let leap := t.nanos / 1000000000
  renderYear date.year ++ '-' :: (padded 2 date.month ++ '-' :: (padded 2 date.day ++
    'T' :: (padded 2 (second / 3600) ++ ':' :: (padded 2 (second / 60 % 60) ++
    ':' :: (padded 2 (second % 60 + leap) ++ (renderFraction (t.nanos % 1000000000) ++ ['Z']))))))

/-- A number at the front of a text, after blanks: at least one digit and at most `most` of
them. -/
def number? (most : Option Nat) (cs : List Char) : Option (Nat × List Char) :=
  let digits := cs.takeWhile Char.isDigit
  let digits := match most with
    | some n => digits.take n
    | none => digits
  if digits.isEmpty then none else some (decimalNumber digits, cs.drop digits.length)

/-- A number of at most two digits after blanks. -/
def shortNumber? (cs : List Char) : Option (Nat × List Char) :=
  number? (some 2) (trimFront cs)

/-- A separator after blanks. -/
def separator? (c : Char) (cs : List Char) : Option (List Char) :=
  match trimFront cs with
  | d :: rest => if c = d then some rest else none
  | [] => none

/-- A year after blanks: with a sign of any length, else of at most four digits. -/
def year? (cs : List Char) : Option (Int × List Char) :=
  match trimFront cs with
  | '-' :: rest => (number? none rest).map fun (n, rest) => (-(n : Int), rest)
  | '+' :: rest => (number? none rest).map fun (n, rest) => ((n : Int), rest)
  | rest => (number? (some 4) rest).map fun (n, rest) => ((n : Int), rest)

/-- A fraction of a second in nanoseconds.  Digits after the ninth are dropped. -/
def fraction? (cs : List Char) : Option (Nat × List Char) :=
  match cs with
  | '.' :: rest =>
    let (digits, rest) := spanDigits rest
    let kept := digits.take 9
    if digits.isEmpty then none else some (decimalNumber kept * Nat.pow 10 (9 - kept.length), rest)
  | _ => some (0, cs)

/-- Two digits, each up to a bound. -/
def twoDigits? (firstUpTo : Char) (cs : List Char) : Option (Nat × List Char) :=
  match cs with
  | a :: b :: rest =>
    if a.isDigit && b.isDigit && decide (a ≤ firstUpTo) then
      some (decimalNumber [a, b], rest)
    else none
  | _ => none

/-- An offset from universal time in seconds: `Z`, `UTC` in any case, or a sign, hours and minutes
with colons and blanks between them. -/
def offset? (cs : List Char) : Option (Int × List Char) := do
  match trimFront cs with
  | [] => none
  | c :: rest =>
    if (([c] ++ rest.take 2).map Char.toUpper) = ['U', 'T', 'C'] then pure (0, rest.drop 2)
    else if c = 'Z' ∨ c = 'z' then pure (0, rest)
    else if c = '+' ∨ c = '-' ∨ c = '\u2212' then do
      let (hours, rest) ← twoDigits? '9' rest
      let (minutes, rest) ← twoDigits? '5' (rest.dropWhile fun c => c = ':' || isBlank c)
      let seconds : Int := hours * 3600 + minutes * 60
      if seconds < 86400 then pure (if c = '+' then seconds else -seconds, rest) else none
    else none

/-- The stamp with the given local date, time of day and offset, if there is one.  The sixty-first
second of a minute is a leap second behind the last one. -/
def assemble? (date : Date) (hour minute second nanos : Nat) (offset : Int) : Option Timestamp := do
  let day ← dayOf? date
  if date.year < -262143 ∨ 262142 < date.year ∨ 23 < hour ∨ 59 < minute ∨ 60 < second then none
  else
    let leap := second / 60
    let localSeconds : Int :=
      (day - epochDay) * 86400 + hour * 3600 + minute * 60 + (second - leap : Nat)
    let t : Timestamp := ⟨localSeconds - offset, nanos + leap * 1000000000⟩
    if t.IsValid then some t else none

/-- The stamp that a text gives. -/
def read? (cs : List Char) : Option Timestamp := do
  let (year, cs) ← year? cs
  let cs ← separator? '-' cs
  let (month, cs) ← shortNumber? cs
  let cs ← separator? '-' cs
  let (day, cs) ← shortNumber? cs
  let cs ← match cs with
    | c :: rest => if c = 'T' ∨ c = 't' ∨ c = ' ' then some rest else none
    | [] => none
  let (hour, cs) ← shortNumber? cs
  let cs ← separator? ':' cs
  let (minute, cs) ← shortNumber? cs
  let cs ← separator? ':' cs
  let (second, cs) ← shortNumber? cs
  let (nanos, cs) ← fraction? cs
  let (offset, cs) ← offset? cs
  if (trimFront cs).isEmpty then assemble? ⟨year, month, day⟩ hour minute second nanos offset
  else none

end NetRedact.Rfc3339
