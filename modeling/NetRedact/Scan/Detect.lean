import NetRedact.Address.Ipv6
import NetRedact.Address.Mac
import NetRedact.Scan.Boundary
import NetRedact.Scan.Candidate
import NetRedact.Scan.Cancellation
import NetRedact.Scan.Pattern

/-!
# Detection

A detector finds the literals of one kind.  It takes the hits of its pattern from left to right,
each search going on after the last hit, drops those that touch a word character or a blocked
separator, and keeps those that its reader accepts.  `findCandidates` runs the three detectors in
the order of their priority and joins the results.  Every hit costs one cancellation check, whether
it is kept or not.
-/

namespace NetRedact.Scan

open NetRedact.Text

/-- One to three decimal digits four times, joined by dots. -/
def quadPattern : Pattern :=
  .seq (.rep (.one Char.isDigit) 1 3)
    (.times 3 (.seq (.char '.') (.rep (.one Char.isDigit) 1 3)))

/-- Two to eight colon groups, and at their end a dotted quad, a further group or nothing.  Eight
are needed where `::` stands for one group at either end. -/
def ipv6Pattern : Pattern :=
  .seq (.rep (.seq (.rep (.one isHexDigit) 0 4) (.char ':')) 2 8)
    (.optional (.alt quadPattern (.rep (.one isHexDigit) 1 4)))

/-- Six pairs of hexadecimal digits joined by one separator. -/
def macPairsPattern (separator : Char) : Pattern :=
  let pair := Pattern.times 2 (.one isHexDigit)
  .seq (.times 5 (.seq pair (.char separator))) pair

/-- The three layouts of a MAC literal. -/
def macPattern : Pattern :=
  let quadruple := Pattern.times 4 (.one isHexDigit)
  .alt (macPairsPattern ':') (.alt (macPairsPattern '-')
    (.seq quadruple (.seq (.char '.') (.seq quadruple (.seq (.char '.') quadruple)))))

/-- How one kind of literal is found. -/
structure Detector where
  /-- What a literal looks like. -/
  pattern : Pattern
  /-- Separators that may not touch a literal. -/
  blocked : List Char
  /-- The address that a literal spells. -/
  read : List Char → Option Address

namespace Detector

/-- Finds IPv6 literals. -/
def ipv6 : Detector :=
  ⟨ipv6Pattern, [':'], fun cs => (Ipv6.read? cs).map .ipv6⟩

/-- Finds IPv4 literals. -/
def ipv4 : Detector :=
  ⟨quadPattern, [], fun cs => (Ipv4.read? cs).map .ipv4⟩

/-- Finds MAC literals. -/
def mac : Detector :=
  ⟨macPattern, [':', '-'], fun cs => (Mac.read? cs).map fun m => .mac m.1 m.2⟩

end Detector

/-- A match of a pattern in a text, with the text on both sides. -/
structure Hit where
  /-- The text before the match, last character first. -/
  before : List Char
  literal : List Char
  /-- The text after the match. -/
  after : List Char
  /-- The byte offset of the match. -/
  start : Nat

namespace Hit

/-- The bytes of the match. -/
def span (h : Hit) : Span :=
  ⟨h.start, h.start + byteLength h.literal⟩

end Hit

/-- The hits in `rest`, in order after the `found` ones.  `before` is the text already passed, last
character first, and `offset` its byte length; the next `skip` characters belong to the last
hit. -/
def hitsFrom (p : Pattern) (found : List Hit) (before : List Char) (offset skip : Nat) :
    List Char → List Hit
  | [] => found.reverse
  | c :: rest =>
    match skip with
    | skip + 1 => hitsFrom p found (c :: before) (offset + c.utf8Size) skip rest
    | 0 =>
      match p.matchLength? (c :: rest) with
      | none => hitsFrom p found (c :: before) (offset + c.utf8Size) 0 rest
      | some n =>
        let hit := ⟨before, (c :: rest).take n, (c :: rest).drop n, offset⟩
        hitsFrom p (hit :: found) (c :: before) (offset + c.utf8Size) (n - 1) rest

/-- The hits of a pattern in a text, from left to right and without overlaps. -/
def hits (p : Pattern) (text : List Char) : List Hit :=
  hitsFrom p [] [] 0 0 text

namespace Detector

/-- The candidate at a hit, if both sides are clear and the literal can be read. -/
def confirm? (d : Detector) (h : Hit) : Option Candidate :=
  if isClear d.blocked h.before && isClear d.blocked h.after then
    (d.read h.literal).map fun address => ⟨h.span, address⟩
  else none

/-- Goes through hits in order, one check each, and collects the candidates after the `found`
ones. -/
def confirmAll (d : Detector) (found : List Candidate) :
    List Hit → Cancellation → Except RedactError (List Candidate × Cancellation)
  | [], cancel => .ok (found.reverse, cancel)
  | h :: rest, cancel =>
    match cancel.check with
    | .error e => .error e
    | .ok cancel =>
      match d.confirm? h with
      | some c => d.confirmAll (c :: found) rest cancel
      | none => d.confirmAll found rest cancel

/-- The candidates that one detector finds. -/
def scan (d : Detector) (text : List Char) (cancel : Cancellation) :
    Except RedactError (List Candidate × Cancellation) :=
  d.confirmAll [] (hits d.pattern text) cancel

end Detector

/-- The candidates of all kinds in ascending order and without overlaps, and what is left of the
caller's patience. -/
def findCandidates (text : List Char) (cancel : Cancellation) :
    Except RedactError (List Candidate × Cancellation) := do
  let (ipv6, cancel) ← Detector.ipv6.scan text cancel
  let (ipv4, cancel) ← Detector.ipv4.scan text cancel
  let (mac, cancel) ← Detector.mac.scan text cancel
  pure (mergeDisjoint (mergeDisjoint ipv6 ipv4) mac, cancel)

end NetRedact.Scan
