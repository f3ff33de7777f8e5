import NetRedact.Mapping.Handle
import NetRedact.Redaction
import NetRedact.Time.Duration

/-!
# Outcomes

What becomes of a request: it is completed, refused before any work on it was kept, or it fails.
Each outcome tells the stage that the request reached, and each but completion a kind of error and
a message.
-/

namespace NetRedact

/-- The stages of a request. -/
inductive Stage where
  /-- The bytes have arrived. -/
  | received
  /-- There are not too many of them. -/
  | sizeChecked
  /-- The caller has not asked too often. -/
  | rateChecked
  /-- The text is being redacted. -/
  | processing
  /-- The record is being stored. -/
  | persisted
  /-- The result has been handed out. -/
  | completed
  deriving DecidableEq, Repr

/-- The name of a stage. -/
def Stage.label : Stage → String
  | .received => "received"
  | .sizeChecked => "size_checked"
  | .rateChecked => "rate_checked"
  | .processing => "processing"
  | .persisted => "persisted"
  | .completed => "completed"

/-- The kinds of error. -/
inductive ErrorKind where
  | payloadTooLarge
  | rateLimited
  | malformedInput
  | modeUnavailable
  | timeout
  | engineFailure
  | storeUnavailable
  deriving DecidableEq, Repr

/-- The name of a kind of error. -/
def ErrorKind.label : ErrorKind → String
  | .payloadTooLarge => "payload_too_large"
  | .rateLimited => "rate_limited"
  | .malformedInput => "malformed_input"
  | .modeUnavailable => "mode_unavailable"
  | .timeout => "timeout"
  | .engineFailure => "engine_failure"
  | .storeUnavailable => "store_unavailable"

/-- Why a request is refused. -/
inductive Rejection where
  | payloadTooLarge (size limit : Nat)
  | rateLimited (retryAfter : Duration)
  | malformedInput (detail : String)
  | modeUnavailable (mode : RedactMode)
  deriving DecidableEq, Repr

namespace Rejection

/-- The kind of error of a refusal. -/
def kind : Rejection → ErrorKind
  | payloadTooLarge _ _ => .payloadTooLarge
  | rateLimited _ => .rateLimited
  | malformedInput _ => .malformedInput
  | modeUnavailable _ => .modeUnavailable

/-- The last stage passed before a refusal. -/
def stage : Rejection → Stage
  | payloadTooLarge _ _ => .received
  | rateLimited _ => .sizeChecked
  | malformedInput _ => .rateChecked
  | modeUnavailable _ => .rateChecked

/-- The text of a refusal. -/
def message : Rejection → String
  | payloadTooLarge size limit =>
    "payload of " ++ toString size ++ " bytes exceeds limit of " ++ toString limit
  | rateLimited retryAfter =>
    "rate limit exceeded, retry after " ++ toString retryAfter.seconds ++ "s"
  | malformedInput detail => "malformed input: " ++ detail
  | modeUnavailable mode => mode.label ++ " mode is not available"

end Rejection

/-- Why an admitted request is not completed. -/
inductive Failure where
  | timeout (after : Duration)
  | engine (detail : String)
  | storeUnavailable (detail : String)
  deriving DecidableEq, Repr

namespace Failure

/-- The kind of error of a failure. -/
def kind : Failure → ErrorKind
  | timeout _ => .timeout
  | engine _ => .engineFailure
  | storeUnavailable _ => .storeUnavailable

/-- The stage in which a request failed. -/
def stage : Failure → Stage
  | timeout _ => .processing
  | engine _ => .processing
  | storeUnavailable _ => .persisted

/-- The text of a failure. -/
def message : Failure → String
  | timeout after => "redaction timed out after " ++ toString after.milliseconds ++ "ms"
  | engine detail => "redaction failed: " ++ detail
  | storeUnavailable detail => "mapping store unavailable: " ++ detail

end Failure

/-- The result of a completed request. -/
structure Completion where
  redactedText : List Char
  /-- The handle under which the record is stored. -/
  handle : Handle
  /-- The number of its entries. -/
  entryCount : Nat
  deriving DecidableEq

/-- What becomes of a request. -/
inductive Outcome where
  | completed (completion : Completion)
  | rejected (rejection : Rejection)
  | failed (failure : Failure)
  deriving DecidableEq

namespace Outcome

/-- The stage that the request reached. -/
def stage : Outcome → Stage
  | completed _ => .completed
  | rejected rejection => rejection.stage
  | failed failure => failure.stage

/-- The kind of error of a request that was not completed. -/
def errorKind? : Outcome → Option ErrorKind
  | completed _ => none
  | rejected rejection => some rejection.kind
  | failed failure => some failure.kind

/-- The text of the error of a request that was not completed. -/
def message? : Outcome → Option String
  | completed _ => none
  | rejected rejection => some rejection.message
  | failed failure => some failure.message

end Outcome

end NetRedact
