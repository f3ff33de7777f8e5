/-!
# Patterns

A small pattern language: one character of a class, sequence, choice and bounded repetition.  A
pattern is matched at the front of a text.  Of several possible matches the preferred one is the
first in the order in which a choice takes its left side first and a repetition takes as many
copies as it can; `lengths` lists all of them in that order.  `Matches` says which texts a pattern
describes, without order or preference.
-/

namespace NetRedact.Scan

/-- A pattern over characters. -/
inductive Pattern where
  /-- One character that passes the test. -/
  | one (test : Char → Bool)
  /-- A match of the first pattern followed by one of the second. -/
  | seq (first second : Pattern)
  /-- A match of either pattern; the left one is preferred. -/
  | alt (left right : Pattern)
  /-- At least `least` and at most `most` copies in a row; more copies are preferred. -/
  | rep (body : Pattern) (least most : Nat)

namespace Pattern

/-- Lengths of runs of copies at the front of a text, where `step` lists the lengths of one
copy. -/
def repLengths (step : List Char → List Nat) : Nat → Nat → List Char → List Nat
  | least, 0, _ => if least = 0 then [0] else []
  | least, most + 1, cs =>
    (step cs).flatMap (fun n => (repLengths step (least - 1) most (cs.drop n)).map (n + ·)) ++
      (if least = 0 then [0] else [])

/-- The lengths of all matches at the front of a text, the preferred one first. -/
def lengths : Pattern → List Char → List Nat
  | one test, c :: _ => if test c then [1] else []
  | one _, [] => []
  | seq first second, cs =>
    (first.lengths cs).flatMap fun n => (second.lengths (cs.drop n)).map (n + ·)
  | alt left right, cs => left.lengths cs ++ right.lengths cs
  | rep body least most, cs => repLengths body.lengths least most cs

/-- The length of the preferred match at the front of a text. -/
def matchLength? (p : Pattern) (cs : List Char) : Option Nat :=
  (p.lengths cs).head?

/-- The language of `count` copies in a row. -/
def Copies (language : List Char → Prop) : Nat → List Char → Prop
  | 0, cs => cs = []
  | count + 1, cs => ∃ front back, cs = front ++ back ∧ language front ∧ Copies language count back

/-- The language of a pattern. -/
def Matches : Pattern → List Char → Prop
  | one test, cs => ∃ c, cs = [c] ∧ test c = true
  | seq first second, cs =>
    ∃ front back, cs = front ++ back ∧ first.Matches front ∧ second.Matches back
  | alt left right, cs => left.Matches cs ∨ right.Matches cs
  | rep body least most, cs => ∃ count, least ≤ count ∧ count ≤ most ∧ Copies body.Matches count cs

/-- The given character. -/
def char (c : Char) : Pattern :=
  one (· == c)

/-- Exactly `count` copies. -/
def times (count : Nat) (p : Pattern) : Pattern :=
  rep p count count

/-- A match or nothing. -/
def optional (p : Pattern) : Pattern :=
  rep p 0 1

end Pattern

end NetRedact.Scan
