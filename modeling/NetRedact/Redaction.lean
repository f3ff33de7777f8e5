import NetRedact.Scan.Detect
import NetRedact.Surrogate

/-!
# Redaction

One pass from left to right copies a text and puts surrogates in the place of its candidates.  The
result is the new text and one entry for each replacement.  The pass can be given up at each
candidate; then there is no result at all.
-/

namespace NetRedact

open NetRedact.Text NetRedact.Scan

/-- The ways to choose surrogates. -/
inductive RedactMode where
  /-- An independent draw for each occurrence. -/
  | random
  /-- A keyed digest, the same for equal addresses under one salt. -/
  | deterministic
  deriving DecidableEq, Repr, Inhabited

namespace RedactMode

/-- The name of a mode. -/
def label : RedactMode → String
  | .random => "random"
  | .deterministic => "deterministic"

/-- Every mode. -/
def all : List RedactMode := [.random, .deterministic]

/-- The mode with the given name. -/
def ofLabel? (name : String) : Option RedactMode :=
  all.find? fun mode => mode.label == name

end RedactMode

/-- Which literal was replaced by which surrogate. -/
structure MappingEntry where
  /-- The literal as it stood in the text. -/
  literal : List Char
  /-- What took its place. -/
  surrogate : List Char
  kind : AddressKind
  deriving DecidableEq

/-- The result of a pass. -/
structure Redaction where
  text : List Char
  /-- One entry for each replacement, in the order of the text. -/
  entries : List MappingEntry
  deriving DecidableEq

/-- The source of surrogates for a mode.  Deterministic mode needs a key; salt and draws are used
in one mode each. -/
def Source.forMode (mode : RedactMode) (key : Option Key) (salt : Salt)
    (draws : Nat → Octets 16) : Except RedactError Source :=
  match mode, key with
  | .random, _ => .ok (.random draws)
  | .deterministic, some key => .ok (.keyed key salt)
  | .deterministic, none => .error .missingSecret

/-- The mode of a source. -/
def Source.mode : Source → RedactMode
  | .random _ => .random
  | .keyed _ _ => .deterministic

namespace Redaction

/-- The rest of a pass.  `output` and `entries` hold what is done, last first, and `occurrence`
counts it; `rest` is the text from byte `cursor` on, in which the remaining candidates lie. -/
def splice (source : Source) (output : List Char) (entries : List MappingEntry)
    (occurrence cursor : Nat) (rest : List Char) :
    List Candidate → Cancellation → Except RedactError Redaction
  | [], _ => .ok ⟨output.reverse ++ rest, entries.reverse⟩
  | c :: later, cancel =>
    match cancel.check with
    | .error e => .error e
    | .ok cancel =>
      let (gap, rest) := splitBytes (c.span.start - cursor) rest
      let (literal, rest) := splitBytes (c.span.stop - c.span.start) rest
      let surrogate := source.surrogate occurrence c.address
      splice source (surrogate.reverse ++ (gap.reverse ++ output))
        (⟨literal, surrogate, c.kind⟩ :: entries) (occurrence + 1) c.span.stop rest later cancel

/-- Redacts a text, looking at each hit and at each candidate whether the caller gave up. -/
def runUntil (source : Source) (text : List Char) (cancel : Cancellation) :
    Except RedactError Redaction := do
  let (candidates, cancel) ← findCandidates text cancel
  splice source [] [] 0 0 text candidates cancel

/-- Redacts a text to the end. -/
def run (source : Source) (text : List Char) : Except RedactError Redaction :=
  runUntil source text .never

end Redaction

end NetRedact
