/-!
# Cancellation

A scan can be given up by its caller while it runs.  The scan looks at the caller's wish at fixed
checks only, so the moment of the wish matters just by how many checks pass before it takes effect.
-/

namespace NetRedact

/-- Why a redaction gives no result. -/
inductive RedactError where
  /-- Keyed surrogates were asked for, but there is no secret. -/
  | missingSecret
  /-- The caller gave the scan up. -/
  | cancelled
  deriving DecidableEq, Repr

/-- The text of an error. -/
def RedactError.message : RedactError → String
  | .missingSecret => "deterministic mode requires a configured secret"
  | .cancelled => "redaction cancelled"

/-- When the caller gives up. -/
inductive Cancellation where
  /-- Not at all. -/
  | never
  /-- After this many checks have passed; `after 0` is before the first. -/
  | after (checks : Nat)
  deriving DecidableEq, Repr

namespace Cancellation

/-- One check: fails once the caller has given up, and counts down before that. -/
def check : Cancellation → Except RedactError Cancellation
  | never => .ok never
  | after 0 => .error .cancelled
  | after (n + 1) => .ok (after n)

end Cancellation

end NetRedact
