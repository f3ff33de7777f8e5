import NetRedact.Admission.Outcome
import NetRedact.Admission.RateLimit
import NetRedact.Store.Basic
import NetRedact.Text.Quoted

/-!
# The gateway

A request passes a size check, a rate check, the reading of its text and the choice of surrogates;
then its text is redacted within a time limit and the record is stored.  Only then is the result
handed out.  `Gateway.process` is one such passage.  All that it meets on its way (clock readings, random
draws, whether time runs out or the redaction is lost) is given as an `Occasion`, and what it leaves
behind is the new state of the limiter and of the store.
-/

namespace NetRedact

open NetRedact.Text

/-- The limits that hold for each request. -/
structure AdmissionPolicy where
  /-- The largest accepted input in bytes. -/
  maxPayloadBytes : Nat
  /-- How long a redaction may take. -/
  requestTimeout : Duration
  /-- How long records live. -/
  mappingTtl : Duration
  /-- Where salts come from. -/
  saltPolicy : SaltPolicy
  deriving DecidableEq

/-- The policy for messages. -/
def AdmissionPolicy.shown (p : AdmissionPolicy) : String :=
  let salt := match p.saltPolicy with
    | .perRequest => "PerRequest"
    | .stable => "Stable"
  "AdmissionPolicy \x7b max_payload_bytes: " ++ toString p.maxPayloadBytes ++
    ", request_timeout: " ++ p.requestTimeout.shown ++ ", mapping_ttl: " ++ p.mappingTtl.shown ++
    ", salt_policy: " ++ salt ++ " \x7d"

/-- What one request meets on its way. -/
structure Occasion where
  /-- The clock when the rate is checked. -/
  checkedAt : Moment
  /-- The clock when the record is stored. -/
  storedAt : Moment
  /-- The wall clock when the record is made. -/
  stampedAt : Timestamp
  /-- The handle drawn for the record. -/
  handle : Handle
  /-- The salt drawn, used only if the policy asks for a fresh one. -/
  saltDraw : Octets SaltPolicy.freshSize
  /-- The surrogates drawn, used only in random mode. -/
  draws : Nat → Octets 16
  /-- The number of checks that the redaction has made when its time runs out, if that happens
  before its result has been taken. -/
  expiry : Option Nat
  /-- What is reported of the redaction if it is lost within its time and never has a result. -/
  loss : Option String := none

/-- The fixed parts of the gateway: a store, a key if deterministic mode is on, and the policy. -/
structure Gateway (σ : Type) where
  store : MappingStore σ
  key : Option Key
  policy : AdmissionPolicy

/-- The parts that requests change. -/
structure GatewayState (σ : Type) where
  limiter : RateLimiter
  records : σ

namespace Gateway

variable {σ : Type}

/-- Whether deterministic mode can be served. -/
def deterministicAvailable (g : Gateway σ) : Bool :=
  g.key.isSome

/-- The gateway for messages. -/
def shown (g : Gateway σ) : String :=
  "Gateway \x7b backend: " ++ quotedString g.store.backend ++ ", deterministic: " ++
    toString g.deterministicAvailable ++ ", policy: " ++ g.policy.shown ++ ", .. \x7d"

/-- The text of a request: not empty, and UTF-8. -/
def readText (body : List UInt8) : Except Rejection (List Char) :=
  match decodeUtf8 body with
  | .ok [] => .error (.malformedInput "empty text")
  | .ok text => .ok text
  | .error offset => .error (.malformedInput ("invalid utf-8 at byte " ++ toString offset))

/-- The source of surrogates for one request.  A salt is taken only in deterministic mode. -/
def sourceFor (g : Gateway σ) (mode : RedactMode) (o : Occasion) : Except Rejection Source :=
  let salt := match mode with
    | .deterministic => g.policy.saltPolicy.salt o.saltDraw
    | .random => Salt.stable
  match Source.forMode mode g.key salt o.draws with
  | .ok source => .ok source
  | .error _ => .error (.modeUnavailable mode)

/-- Redacts within the time limit.  When time runs out the redaction is told to give up, and
whatever it still comes to is dropped.  If the redaction is lost before that, its failure is what is
reported of it. -/
def redactWithin (limit : Duration) (source : Source) (text : List Char) (expiry : Option Nat)
    (loss : Option String) : Except Failure Redaction :=
  match expiry, loss with
  | some _, _ => .error (.timeout limit)
  | none, some report => .error (.engine report)
  | none, none =>
    match Redaction.run source text with
    | .ok redaction => .ok redaction
    | .error .cancelled => .error (.timeout limit)
    | .error e => .error (.engine e.message)

/-- Makes and stores the record of a redaction. -/
def persist (g : Gateway σ) (o : Occasion) (redaction : Redaction) (records : σ) : Outcome × σ :=
  let record := MappingRecord.make o.handle redaction.entries o.stampedAt g.policy.mappingTtl
  let (result, records) := g.store.put o.storedAt record records
  match result with
  | .ok handle => (.completed ⟨redaction.text, handle, redaction.entries.length⟩, records)
  | .error e => (.failed (.storeUnavailable e.message), records)

/-- The part of a passage behind the rate check. -/
def redactAndStore (g : Gateway σ) (body : List UInt8) (mode : RedactMode) (o : Occasion)
    (records : σ) : Outcome × σ :=
  match readText body with
  | .error rejection => (.rejected rejection, records)
  | .ok text =>
    match g.sourceFor mode o with
    | .error rejection => (.rejected rejection, records)
    | .ok source =>
      match redactWithin g.policy.requestTimeout source text o.expiry o.loss with
      | .error failure => (.failed failure, records)
      | .ok redaction => g.persist o redaction records

/-- Takes one request through all stages. -/
def process (g : Gateway σ) (body : List UInt8) (mode : RedactMode) (identity : String)
    (o : Occasion) (state : GatewayState σ) : Outcome × GatewayState σ :=
  let limit := g.policy.maxPayloadBytes
  if limit < body.length then (.rejected (.payloadTooLarge body.length limit), state)
  else
    let (decision, limiter) := state.limiter.check identity o.checkedAt
    match decision with
    | .limited retryAfter => (.rejected (.rateLimited retryAfter), ⟨limiter, state.records⟩)
    | .allowed =>
      let (outcome, records) := g.redactAndStore body mode o state.records
      (outcome, ⟨limiter, records⟩)

end Gateway

end NetRedact
