import NetRedact.Address.Basic
import NetRedact.Text.Units

/-!
# Spans and candidates

A candidate is an address together with the span of the literal that spells it.  Spans are
half-open ranges of byte offsets.  The second part of the module joins two lists of candidates
that are each in ascending order and without overlaps: what is held already has priority, and of
what comes in only candidates that share no byte with it are taken.
-/

namespace NetRedact.Scan

open NetRedact.Text

/-- The bytes from `start` up to but not including `stop`. -/
structure Span where
  start : Nat
  stop : Nat
  deriving DecidableEq, Repr, Inhabited

namespace Span

/-- Whether two non-empty spans share a byte.  Spans that only touch do not. -/
def overlaps (a b : Span) : Bool :=
  decide (a.start < b.stop) && decide (b.start < a.stop)

/-- The text of a span, or nothing where the span is no part of the text. -/
def literal (span : Span) (text : List Char) : List Char :=
  (slice? span.start span.stop text).getD []

end Span

/-- The texts of spans that stand in ascending order and without overlaps; `rest` is the text from
byte `cursor` on. -/
def literals (cursor : Nat) (rest : List Char) : List Span → List (List Char)
  | [] => []
  | span :: later =>
    let (_, rest) := splitBytes (span.start - cursor) rest
    let (literal, rest) := splitBytes (span.stop - span.start) rest
    literal :: literals span.stop rest later

/-- An address and the place of its literal. -/
structure Candidate where
  span : Span
  address : Address
  deriving DecidableEq

namespace Candidate

/-- The kind of the literal. -/
def kind (c : Candidate) : AddressKind :=
  c.address.kind

/-- The text of the literal. -/
def literal (c : Candidate) (text : List Char) : List Char :=
  c.span.literal text

/-- Whether the literals of two candidates share a byte. -/
def overlaps (a b : Candidate) : Bool :=
  a.span.overlaps b.span

end Candidate

/-- Where the items that fail a test begin between `low` and `high`, if those that pass come
first. -/
def firstFailingBetween {α : Type} (test : α → Bool) (items : Array α) (low high : Nat) : Nat :=
  if h : low < high then
    let middle := (low + high) / 2
    if items[middle]?.any test then firstFailingBetween test items (middle + 1) high
    else firstFailingBetween test items low middle
  else low
  termination_by high - low

/-- Where the items that fail a test begin, if those that pass come first. -/
def firstFailing {α : Type} (test : α → Bool) (items : Array α) : Nat :=
  firstFailingBetween test items 0 items.size

/-- Whether a candidate overlaps one of `held`, which are in order and disjoint: only the first one
that ends after the candidate's start can. -/
def overlapsAny (held : Array Candidate) (c : Candidate) : Bool :=
  let next := firstFailing (fun k => decide (k.span.stop ≤ c.span.start)) held
  held[next]?.any (·.overlaps c)

/-- Adds to `held` every incoming candidate that overlaps none of it, and restores the order. -/
def mergeDisjoint (held incoming : List Candidate) : List Candidate :=
  let heldArray := held.toArray
  let taken := incoming.filter fun c => !overlapsAny heldArray c
  if taken.isEmpty then held
  else (held ++ taken).mergeSort fun a b => decide (a.span.start ≤ b.span.start)

end NetRedact.Scan
